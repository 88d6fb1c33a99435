import ObjectKernel.Proofs.BarrierCounts
import ObjectKernel.Proofs.Bystanders
import ObjectKernel.Proofs.ProtocolRuns
import ObjectKernel.Proofs.Shuffles

/-!
# The parts in the demonstration

The main program, the workers and the greeter work together under an agreement. Each thread has a share: its
own record, the variables of the body that it runs, the line that it writes, and how many pieces it has added to
the text. The main program leads: it holds the threads that it has not started, and knows which are over; and it
alone counts runs of the shutdown barrier and writes files. What fits all of that together is that the shared
buffer was fed with a shuffle of the pieces that the workers have added.

Before the first start the main program is alone, and knows the world as it is.

## Contents

* `Demo.Plan`: what the program is run with, and the objects that it makes. `Demo.Plan.Set`: they are made.
* `Demo.Share`, `Demo.Lead`, `Demo.Part`: the parts. `Demo.Plan.Concord`: they fit together.
* `Demo.Plan.pact`: the agreement.
* `Demo.Plan.Concord.quiet`, `Concord.act`, `Concord.direct`: what threads and the main program do to it.
-/

namespace ObjectKernel

open Function Instr

variable {i j : Instr} {o : ObjId} {w : World} {home : RuntimeId} {task : TaskId}

/-- An instruction that is left to the main program: it changes the started threads, which runtime is shared, the
count of runs of a barrier, or a file. -/
def Instr.isReserved : Instr → Bool
  | .register _ | .initGlobal _ | .closeGlobal | .countBarrier _ | .writeFile .. => true
  | _ => false

theorem Instr.ne_of_isReserved (hi : i.isReserved = false) (hj : j.isReserved) : i ≠ j := by
  rintro rfl
  rw [hj] at hi
  cases hi

/-- What is done to the record of a thread is nothing of that. -/
theorem Instr.isReserved_of_subject? (h : i.subject? = some o) : i.isReserved = false := by
  cases i with
  | register | initGlobal | closeGlobal | countBarrier | writeFile => cases h
  | _ => rfl

theorem Instr.ne_of_subject? (hi : i.subject? = some o) (hj : j.subject? = none) : i ≠ j := by
  rintro rfl
  rw [hj] at hi
  cases hi

/-- An instruction that changes no record of a thread, no variable and no buffer that there is, and is not left to
the main program. -/
def Instr.isQuiet : Instr → Bool
  | .append .. | .edit (.assign ..) => false
  | i => i.subject?.isNone && !i.isReserved

theorem Instr.subject?_of_isQuiet (h : i.isQuiet) : i.subject? = none := by
  cases i with
  | reserveStart | setState | recordUncaught | endThread | rename => cases h
  | _ => rfl

theorem Instr.isReserved_of_isQuiet (h : i.isQuiet) : i.isReserved = false := by
  cases i with
  | register | initGlobal | closeGlobal | countBarrier | writeFile => cases h
  | _ => rfl

theorem Instr.ne_of_isQuiet (hi : i.isQuiet) (hj : j.isQuiet = false) : i ≠ j := by
  rintro rfl
  rw [hi] at hj
  cases hj

/-- A buffer stays as it is unless something is appended to it. -/
theorem Instr.exec_buffer_of_ne (task : TaskId) {b buf} (hb : w.buffer? b = some (some home, buf))
    (hi : ∀ cs, i ≠ .append b cs) : (i.exec task w).2.buffer? b = some (some home, buf) := by
  have hpieces : i.pieces b = [] := by
    cases i with
    | append o cs =>
      refine if_neg ?_
      rintro rfl
      exact hi cs rfl
    | _ => rfl
  rw [exec_buffer task hb, hpieces]
  rfl

/-- The task to which an instruction of a task may bind a thread. -/
def Instr.binds (task : TaskId) : Instr → Option TaskId
  | .bindTask _ => some task
  | .adopt _ t => some t
  | _ => none

theorem Instr.binds_of_subject? (h : i.subject? = some o) (task : TaskId) : i.binds task = none := by
  cases i with
  | bindTask | adopt => cases h
  | _ => rfl

/-- The id of the main program has been handed out, and a runtime has bound no thread to it. -/
def World.Unbound (w : World) (home : RuntimeId) : Prop :=
  0 < w.tasks ∧ (w.registry home).bound? mainTask = none

theorem World.Unbound.exec (h : w.Unbound home) (hbinds : i.binds task ≠ some mainTask) :
    (i.exec task w).2.Unbound home := by
  refine ⟨h.1.trans_le (exec_tasks task w i), Option.eq_none_iff_forall_ne_some.mpr fun o ho => ?_⟩
  rcases exec_bound ho with hsome | ⟨rfl, rfl, -⟩ | ⟨rfl, -⟩
  · cases h.2.symm.trans hsome
  · exact hbinds rfl
  · exact hbinds rfl

/-- What the main program keeps account of: how many runs of the barrier of the shared runtime were counted, the
files, and whether its own id is that of no other task. -/
structure Ledger where
  barriers : Int32
  files : Files
  own : Prop

/-- An account is right. -/
def World.Books (w : World) (home : RuntimeId) (b : Ledger) : Prop :=
  w.Counted home b.barriers ∧ w.files = b.files ∧ (b.own → w.Unbound home)

/-- It stays so, except for what is left to the main program. -/
theorem World.Books.exec {b} (h : w.Books home b) (hi : i.isReserved = false)
    (hbinds : b.own → i.binds task ≠ some mainTask) : (i.exec task w).2.Books home b := by
  obtain ⟨hcounted, hfiles, hown⟩ := h
  refine ⟨exec_counted task (ne_of_isReserved hi rfl) hcounted, ?_, fun h => (hown h).exec (hbinds h)⟩
  rw [← hfiles]
  have heffect := i.effect task w
  generalize (i.exec task w).2 = v at heffect ⊢
  cases heffect with
  | writeFile => cases hi
  | _ => rfl

namespace Demo

open World Protocol

/-- What the program is run with: settings, numbers, and the shared runtime. -/
structure Plan where
  config : Config
  workers : Nat
  rounds : Nat
  home : RuntimeId

/-- What may become of the record of a thread: it stays as it is, or the thread is not over, and stays terminated if
it is. -/
def Becomes (t t' : Thread) : Prop :=
  t' = t ∨ t.ended = false ∧ (t.state = .terminated → t'.state = .terminated)

/-- A share of a thread: its record, the task that runs it, its variables, the line that it writes, how many
pieces it has added to the text, and what it has printed. -/
structure Share where
  thread : Thread
  task : TaskId
  scope : Option (ScopeId × Dictionary Name Value) := none
  line : Option (ObjId × List (List Rune)) := none
  count : Nat := 0
  shown : List Bytes := []

/-- The scope of the variables of a thread. -/
def Share.scopeId (s : Share) : Option ScopeId := s.scope.map Prod.fst

/-- The buffer with the line of a thread. -/
def Share.lineId (s : Share) : Option ObjId := s.line.map Prod.fst

/-- No two of the first `n` threads have the same. -/
def Apart (n : Nat) (f : Share → Option Nat) (s : Nat → Share) : Prop :=
  ∀ {p q k}, p < n → q < n → f (s p) = some k → f (s q) = some k → p = q

/-- They do not after one of them gets something that no other has. -/
theorem Apart.update {n f s} (h : Apart n f s) {q t}
    (hnew : ∀ {p k}, p < n → p ≠ q → f (s p) = some k → f t ≠ some k) : Apart n f (update s q t) := by
  intro p r k hp hr hpk hrk
  by_cases hpq : p = q <;> by_cases hrq : r = q
  · exact hpq.trans hrq.symm
  · subst hpq
    rw [update_self] at hpk
    rw [update_of_ne hrq] at hrk
    exact absurd hpk (hnew hr hrq hrk)
  · subst hrq
    rw [update_self] at hrk
    rw [update_of_ne hpq] at hpk
    exact absurd hrk (hnew hp hpq hpk)
  · rw [update_of_ne hpq] at hpk
    rw [update_of_ne hrq] at hrk
    exact h hp hr hpk hrk

/-- What the main program has to itself once there are other tasks: the global variables, the records of the
threads that it has not started, how many it has started, which of them are over and with which records, the
started threads of the shared runtime, which runtime that is, its account, and what it has printed; and whether it
knows that all threads that it has started have terminated. -/
structure Lead where
  globals : Dictionary Name Value
  held : Nat → Thread
  begun : Nat := 0
  joined : List (Nat × Thread) := []
  enrolled : List ObjId := []
  sharing : Option RuntimeId
  ledger : Ledger
  shown : List Bytes := []
  settled : Bool := false

/-- The part of a task: the main program alone in a world, the main program with others, or a thread. -/
inductive Part where
  | alone (u : World)
  | lead (m : Lead)
  | share (q : Nat) (s : Share)

/-- The task that runs a thread with a part. -/
def Part.task? : Part → Option TaskId
  | alone _ | lead _ => none
  | share _ s => some s.task

/-- What a task with a part has printed. -/
def Part.shown : Part → List Bytes
  | alone _ => []
  | lead m => m.shown
  | share _ s => s.shown

namespace Plan

variable {d : Plan} {v u : World} {o : ObjId} {t : Share} {m' : Lead} {q : Nat}

/-! ## The objects of the program -/

/-- The thread with a number: the workers come first, and then the greeter. -/
def thr (d : Plan) (q : Nat) : Nat := if q < d.workers then 2 * q + 1 else 2 * q + 2

/-- The object that a thread runs. -/
def self (_ : Plan) (q : Nat) : Nat := 2 * q + 2

/-- The work item of the greeter. -/
def greeting (d : Plan) : Nat := 2 * d.workers + 1

/-- There is room for everything. -/
def Roomy (d : Plan) : Prop := HasRoom d.config d.workers d.rounds

/-- The class of the workers. -/
def cls (d : Plan) : Class :=
  .extend
    { home := d.home
      name := "demo.Worker"
      methods :=
        [(Selector.run,
          { name := Builtin.signature Selector.run
            arity := 0
            code := .script d.home (workerBody d.rounds) })] }
    (Builtin.threadClass d.home)

theorem thr_inj {p} (hp : p ≤ d.workers) (hq : q ≤ d.workers) (h : d.thr p = d.thr q) : p = q := by
  unfold thr at h
  split at h <;> split at h <;> omega

/-- An object that wraps a thread goes on doing so. -/
theorem wrapper_later (hle : v ≤ u) {p} (ho : ∃ obj, v.object? o = some obj ∧ obj.payload = .extended p) :
    ∃ obj, u.object? o = some obj ∧ obj.payload = .extended p := by
  obtain ⟨obj, hobj, hpayload⟩ := ho
  obtain ⟨obj', hobj', hlasts⟩ := hle.objects hobj
  have hlast := hlasts.payload
  rw [hpayload] at hlast
  exact ⟨obj', hobj', hlast⟩

/-- What is made before the first start, and lasts. -/
structure Set (d : Plan) (v : World) : Prop where
  has : v.Has d.home
  config : v.config d.home = d.config
  room : Memory.hasRoom d.config.initialCapacity Memory.characterSize
  wrapper : ∀ q, q < d.workers → ∃ obj, v.object? (d.self q) = some obj ∧ obj.payload = .extended (d.thr q)
  worker : ∀ q, q < d.workers → v.classOf? (d.self q) = some d.cls
  greeter : v.classOf? (d.self d.workers) = some (Builtin.threadClass d.home)
  item : v.runnable? d.greeting = some (some (.script d.home greeterBody))
  itemClass : v.classOf? d.greeting = some (Builtin.runnableClass d.home)

theorem Set.later (h : d.Set v) (hle : v ≤ u) : d.Set u where
  has := h.has.later hle
  config := (config_later hle h.has).trans h.config
  room := h.room
  wrapper q hq := wrapper_later hle (h.wrapper q hq)
  worker q hq := classOf?_later hle (h.worker q hq)
  greeter := classOf?_later hle h.greeter
  item := runnable?_later hle h.item
  itemClass := classOf?_later hle h.itemClass

/-- The thread that an object of the program is or has. -/
theorem Set.header_self (h : d.Set v) {t} (ht : v.thread? (d.thr q) = some t) : v.header (d.self q) = d.thr q := by
  by_cases hlt : q < d.workers
  · obtain ⟨⟨cls, hash, payload⟩, hobj, rfl⟩ := h.wrapper q hlt
    unfold header
    rw [hobj]
  · have hthr : d.thr q = d.self q := if_neg hlt
    rw [hthr] at ht ⊢
    exact header_of_thread? ht

/-! ## How the parts fit together -/

/-- What a thread keeps of itself all its life. -/
structure Cast (d : Plan) (q : Nat) (t : Thread) : Prop where
  home : t.home = some d.home
  self : t.self = some (d.self q)
  target : q = d.workers → t.target = some d.greeting
  name : q < d.workers → t.name = "worker-" ++ Bytes.ofNat q
  adopted : t.adopted = false

theorem Cast.home_isSome {t} (h : d.Cast q t) : t.home.isSome := by
  rw [h.home]
  rfl

/-- A share as it should be. If there is room for everything then no worker fails, and a worker that is over
and has not failed has added all its pieces. -/
structure Proper (d : Plan) (q : Nat) (s : Share) : Prop where
  cast : d.Cast q s.thread
  started : s.thread.started = true
  count_le : s.count ≤ d.rounds
  idle : d.workers ≤ q → s.count = 0
  well : d.Roomy → q < d.workers → s.thread.uncaught = none
  settled : s.thread.ended → s.thread.state = .terminated
  done : s.thread.ended → s.thread.uncaught = none → q < d.workers → s.count = d.rounds

/-- What a share says of the world. -/
structure Holds (d : Plan) (q : Nat) (s : Share) (v : World) : Prop where
  thread : v.thread? (d.thr q) = some s.thread
  scope : ∀ {n x}, s.scope = some (n, x) → v.scene.scopes[n]? = some x
  line : ∀ {o xs}, s.line = some (o, xs) → ∃ b, v.buffer? o = some (some d.home, b) ∧ b.Fed d.config xs

/-- What the main program has to itself. -/
structure Leads (d : Plan) (m : Lead) (v : World) : Prop where
  globals : v.scene.globals = m.globals
  shared : m.globals.get? shared = some (.ofObject 0)
  sharing : v.globalRuntime = m.sharing
  started : v.startedThreads d.home = m.enrolled
  books : v.Books d.home m.ledger
  begun : m.begun ≤ d.workers + 1
  held : ∀ q, m.begun ≤ q → q ≤ d.workers → v.thread? (d.thr q) = some (m.held q) ∧ d.Cast q (m.held q)

/-- How many pieces each worker has added. -/
def counts (m : Lead) (s : Nat → Share) (q : Nat) : Nat := if q < m.begun then (s q).count else 0

/-- **The parts fit together** in a world, with the shared buffer fed with the pieces of `h`. -/
structure Concord (d : Plan) (m : Lead) (s : Nat → Share) (h : List (Nat × Nat)) (v : World) : Prop where
  set : d.Set v
  leads : d.Leads m v
  joined : ∀ p ∈ m.joined, p.1 < m.begun ∧ (s p.1).thread = p.2 ∧ p.2.ended
  settled : m.settled → ∀ q, q < m.begun → (s q).thread.state = .terminated
  tasks : m.ledger.own → ∀ q, q < m.begun → (s q).task ≠ mainTask
  holds : ∀ q, q < m.begun → d.Holds q (s q) v
  proper : ∀ q, q < m.begun → d.Proper q (s q)
  scopes : Apart m.begun Share.scopeId s
  lines : Apart m.begun Share.lineId s
  aside : ∀ q, q < m.begun → (s q).lineId ≠ some 0
  shuffle : Shuffle (counts m s) h
  text : ∃ b, v.buffer? 0 = some (some d.home, b) ∧ b.Fed d.config (entries h)

/-- The parts of the tasks, which are numbered as their threads are started. -/
def parts (m : Lead) (s : Nat → Share) : Nat → Option Part
  | 0 => some (.lead m)
  | q + 1 => if q < m.begun then some (.share q (s q)) else none

/-- The part of the main program when there is no other task. -/
def solo (u : World) : Nat → Option Part
  | 0 => some (.alone u)
  | _ + 1 => none

/-- **The agreement.** A thread that is done is over, and the main program ends as `E` says. -/
def pact (d : Plan) (E : Part → Outcome → Prop) : Protocol where
  Part := Part
  Joint P v := P = solo v ∨ ∃ m s h, P = parts m s ∧ d.Concord m s h v
  Ends a _ out := match a with
    | .share _ s => s.thread.ended
    | .alone _ | .lead _ => E a out
  shown := Part.shown

variable {E : Part → Outcome → Prop} {P : Nat → Option Part} {j q : Nat} {m : Lead} {s : Nat → Share}
  {h : List (Nat × Nat)} {id : TaskId} {i : Instr}

theorem joint_alone (hP : (d.pact E).Joint P v) (ha : P j = some (.alone u)) : u = v ∧ j = 0 ∧ P = solo v := by
  rcases hP with rfl | ⟨m, s, h, rfl, -⟩
  · cases j with
    | zero =>
      cases ha
      exact ⟨rfl, rfl, rfl⟩
    | succ j => cases ha
  · cases j with
    | zero => cases ha
    | succ j =>
      obtain ⟨-, ha⟩ := Option.ite_none_right_eq_some.mp ha
      cases ha

theorem joint_lead (hP : (d.pact E).Joint P v) (ha : P j = some (.lead m)) :
    j = 0 ∧ ∃ s h, P = parts m s ∧ d.Concord m s h v := by
  rcases hP with rfl | ⟨m', s, h, rfl, hc⟩
  · cases j <;> cases ha
  · cases j with
    | zero =>
      cases ha
      exact ⟨rfl, s, h, rfl, hc⟩
    | succ j =>
      obtain ⟨-, ha⟩ := Option.ite_none_right_eq_some.mp ha
      cases ha

theorem joint_share (hP : (d.pact E).Joint P v) (ha : P j = some (.share q t)) :
    j = q + 1 ∧ ∃ m s h, P = parts m s ∧ d.Concord m s h v ∧ q < m.begun ∧ s q = t := by
  rcases hP with rfl | ⟨m, s, h, rfl, hc⟩
  · cases j <;> cases ha
  · cases j with
    | zero => cases ha
    | succ j =>
      obtain ⟨hj, ha⟩ := Option.ite_none_right_eq_some.mp ha
      cases ha
      exact ⟨rfl, m, s, h, rfl, hc, hj, rfl⟩

theorem knows_alone (hk : (d.pact E).Knows (.alone u) v) : u = v := by
  obtain ⟨P, j, hP, ha⟩ := hk
  exact (joint_alone hP ha).1

theorem knows_lead (hk : (d.pact E).Knows (.lead m) v) : ∃ s h, d.Concord m s h v := by
  obtain ⟨P, j, hP, ha⟩ := hk
  obtain ⟨-, s, h, -, hc⟩ := joint_lead hP ha
  exact ⟨s, h, hc⟩

theorem knows_share (hk : (d.pact E).Knows (.share q t) v) : ∃ m s h, d.Concord m s h v ∧ q < m.begun ∧ s q = t := by
  obtain ⟨P, j, hP, ha⟩ := hk
  obtain ⟨-, m, s, h, -, hc, hq, hs⟩ := joint_share hP ha
  exact ⟨m, s, h, hc, hq, hs⟩

theorem update_parts_share (hq : q < m.begun) (t : Share) :
    update (parts m s) (q + 1) (some (.share q t)) = parts m (update s q t) := by
  funext k
  cases k with
  | zero => rfl
  | succ k =>
    by_cases hk : k = q
    · subst hk
      rw [update_self, parts, if_pos hq, update_self]
    · rw [update_of_ne (by omega), parts, parts, update_of_ne hk]

theorem update_parts_lead (hbegun : m'.begun = m.begun) : update (parts m s) 0 (some (.lead m')) = parts m' s := by
  funext k
  cases k with
  | zero => rfl
  | succ k =>
    rw [update_of_ne (Nat.succ_ne_zero k), parts, parts, hbegun]

theorem update_parts_start (hbegun : m'.begun = m.begun + 1) (t : Share) :
    update (update (parts m s) 0 (some (.lead m'))) (m.begun + 1)
      (some (.share m.begun t)) = parts m' (update s m.begun t) := by
  funext k
  cases k with
  | zero => rfl
  | succ k =>
    by_cases hk : k = m.begun
    · subst hk
      rw [update_self, parts, if_pos (by omega), update_self]
    · rw [update_of_ne (by omega), update_of_ne (Nat.succ_ne_zero k), parts, parts,
        update_of_ne hk]
      by_cases hlt : k < m.begun
      · rw [if_pos hlt, if_pos (by omega)]
      · rw [if_neg hlt, if_neg (by omega)]

theorem update_solo (u u' : World) : update (solo u) 0 (some (.alone u')) = solo u' := by
  funext k
  cases k <;> rfl

theorem update_solo_lead (u : World) (hbegun : m.begun = 0) (s : Nat → Share) :
    update (solo u) 0 (some (.lead m)) = parts m s := by
  funext k
  cases k with
  | zero => rfl
  | succ k =>
    rw [update_of_ne (Nat.succ_ne_zero k), solo, parts, hbegun, if_neg (Nat.not_lt_zero k)]

theorem lt_of_buffer? {p} (hb : v.buffer? o = some p) : o < v.objects.size := by
  obtain ⟨obj, hobj, -⟩ := buffer?_eq_some.mp hb
  exact (Array.getElem?_eq_some_iff.mp hobj).1

/-! ## What a thread does -/

/-- What a thread may change: its record, its variables, its line, and the shared buffer. -/
structure Own (d : Plan) (id : TaskId) (q : Nat) (t : Share) (i : Instr) : Prop where
  subject : ∀ o, i.subject? = some o → o = d.thr q
  assign : ∀ scope x y, i = .edit (.assign scope x y) →
    isGlobalName x = false ∧ scope.isSome ∧ t.scopeId = scope
  append : ∀ o cs, i = .append o cs → o = 0 ∨ t.lineId = some o
  modest : i.isReserved = false
  binds : i.binds id = none ∨ i.binds id = some t.task

/-- The main program keeps what it has to itself. -/
theorem Leads.kept (hl : d.Leads m v) (hs : v.Sound) (hhas : v.Has d.home)
    (hsubject : ∀ q, m.begun ≤ q → q ≤ d.workers → i.subject? ≠ some (d.thr q))
    (hassign : ∀ scope x y, i = .edit (.assign scope x y) → scope.isSome ∧ isGlobalName x = false)
    (hi : i.isReserved = false) (hbinds : m.ledger.own → i.binds id ≠ some mainTask) : d.Leads m (i.exec id v).2 where
  globals := (exec_globals id v hassign).trans hl.globals
  shared := hl.shared
  sharing := (exec_globalRuntime id v (fun _ => ne_of_isReserved hi rfl)
    (ne_of_isReserved hi rfl)).trans hl.sharing
  started := (exec_started id v (fun _ => ne_of_isReserved hi rfl) d.home hhas).2.trans hl.started
  books := hl.books.exec hi hbinds
  begun := hl.begun
  held := by
    intro q hq hle
    obtain ⟨ht, hcast⟩ := hl.held q hq hle
    exact ⟨exec_thread hs ht hcast.home_isSome (hsubject q hq hle) id, hcast⟩

/-- A share stays as it is unless something is done to what it has. -/
theorem Holds.kept (hh : d.Holds q t v) (hs : v.Sound) (hhome : t.thread.home.isSome)
    (hsubject : i.subject? ≠ some (d.thr q))
    (hassign : ∀ n x y, t.scopeId = some n → i = .edit (.assign (some n) x y) → isGlobalName x)
    (happend : ∀ o cs, t.lineId = some o → i ≠ .append o cs) : d.Holds q t (i.exec id v).2 where
  thread := exec_thread hs hh.thread hhome hsubject id
  scope := by
    intro n e hn
    exact exec_locals id (hh.scope hn) fun x y => hassign n x y (congrArg (Option.map Prod.fst) hn)
  line := by
    intro o xs ho
    obtain ⟨b, hb, hfed⟩ := hh.line ho
    exact ⟨b, exec_buffer_of_ne id hb fun cs => happend o cs (congrArg (Option.map Prod.fst) ho), hfed⟩

namespace Concord

/-- What a thread does leaves the shares of the others alone. -/
theorem holds_of_own (hc : d.Concord m s h v) (hs : v.Sound) (hq : q < m.begun) (hown : d.Own id q (s q) i) {p}
    (hp : p < m.begun) (hpq : p ≠ q) : d.Holds p (s p) (i.exec id v).2 := by
  have hbegun := hc.leads.begun
  refine (hc.holds p hp).kept hs (hc.proper p hp).cast.home_isSome (fun hsub => ?_) (fun n x y hn hi => ?_)
    fun o cs ho hi => ?_
  · exact hpq (thr_inj (by omega) (by omega) (hown.subject _ hsub))
  · obtain ⟨-, -, hqn⟩ := hown.assign _ x y hi
    exact absurd (hc.scopes hp hq hn hqn) hpq
  · rcases hown.append o cs hi with rfl | hqo
    · exact hc.aside p hp ho
    · exact hpq (hc.lines hp hq ho hqo)

theorem leads_of_own (hc : d.Concord m s h v) (hs : v.Sound) (hq : q < m.begun) (hown : d.Own id q (s q) i) :
    d.Leads m (i.exec id v).2 := by
  have hbegun := hc.leads.begun
  refine hc.leads.kept hs hc.set.has (fun p hp hle hsub => ?_) (fun scope x y hi => ?_) hown.modest
    fun h hmain => ?_
  · have heq := thr_inj hle (by omega) (hown.subject _ hsub)
    omega
  · obtain ⟨hx, hscope, -⟩ := hown.assign scope x y hi
    exact ⟨hscope, hx⟩
  · rcases hown.binds with hnone | hself
    · cases hnone.symm.trans hmain
    · exact hc.tasks h q hq (Option.some.inj (hself.symm.trans hmain))

/-- **What a thread does.** Its share changes, and the others stay. Its variables and its line are those that it
had, or new ones. -/
theorem act (hc : d.Concord m s h v) (hq : q < m.begun) (hs : v.Sound) (hnext : v.Next (i.exec id v).2)
    (hown : d.Own id q (s q) i) (hholds : d.Holds q t (i.exec id v).2) (hproper : d.Proper q t)
    (hscope : ∀ n, t.scopeId = some n → (s q).scopeId = some n ∨ v.scene.scopes.size ≤ n)
    (hline : ∀ o, t.lineId = some o → (s q).lineId = some o ∨ v.objects.size ≤ o)
    (hfinal : Becomes (s q).thread t.thread) (htask : t.task = (s q).task) {h'}
    (hshuffle : Shuffle (counts m (update s q t)) h')
    (htext : ∃ b, (i.exec id v).2.buffer? 0 = some (some d.home, b) ∧ b.Fed d.config (entries h')) :
    d.Concord m (update s q t) h' (i.exec id v).2 := by
  refine ⟨hc.set.later hnext.later, hc.leads_of_own hs hq hown, fun p hp => ?_, fun hm p hp => ?_,
    fun hm p hp => ?_, fun p hp => ?_, fun p hp => ?_,
    Apart.update hc.scopes fun {p n} hp hpq hpn hn => ?_, Apart.update hc.lines fun {p o} hp hpq hpo ho => ?_,
    fun p hp hpo => ?_, hshuffle, htext⟩
  · obtain ⟨hlt, hrecord, hover⟩ := hc.joined p hp
    refine ⟨hlt, ?_, hover⟩
    by_cases hpq : p.1 = q
    · subst hpq
      rw [update_self]
      rcases hfinal with hsame | ⟨hopen, -⟩
      · exact hsame.trans hrecord
      · rw [hrecord, hover] at hopen
        cases hopen
    · rwa [update_of_ne hpq]
  · have hstate := hc.settled hm p hp
    by_cases hpq : p = q
    · subst hpq
      rw [update_self]
      rcases hfinal with hsame | ⟨-, hkept⟩
      · rwa [hsame]
      · exact hkept hstate
    · rwa [update_of_ne hpq]
  · have hother := hc.tasks hm p hp
    by_cases hpq : p = q
    · subst hpq
      rwa [update_self, htask]
    · rwa [update_of_ne hpq]
  · by_cases hpq : p = q
    · subst hpq
      rwa [update_self]
    · rw [update_of_ne hpq]
      exact hc.holds_of_own hs hq hown hp hpq
  · by_cases hpq : p = q
    · subst hpq
      rwa [update_self]
    · rw [update_of_ne hpq]
      exact hc.proper p hp
  · -- A new scope belongs to nobody else.
    rcases hscope n hn with hold | hfresh
    · exact hpq (hc.scopes hp hq hpn hold)
    · obtain ⟨⟨k, x⟩, hx, rfl⟩ := Option.map_eq_some_iff.mp hpn
      have hsome := (hc.holds p hp).scope hx
      rw [Array.getElem?_eq_none hfresh] at hsome
      cases hsome
  · -- Nor does a new buffer.
    rcases hline o ho with hold | hfresh
    · exact hpq (hc.lines hp hq hpo hold)
    · obtain ⟨⟨k, x⟩, hx, rfl⟩ := Option.map_eq_some_iff.mp hpo
      obtain ⟨b, hb, -⟩ := (hc.holds p hp).line hx
      exact absurd (lt_of_buffer? hb) (Nat.not_lt_of_le hfresh)
  · by_cases hpq : p = q
    · subst hpq
      rw [update_self] at hpo
      rcases hline 0 hpo with hold | hfresh
      · exact hc.aside p hq hold
      · obtain ⟨b, hb, -⟩ := hc.text
        exact absurd (lt_of_buffer? hb) (Nat.not_lt_of_le hfresh)
    · rw [update_of_ne hpq] at hpo
      exact hc.aside p hp hpo

/-- The text stays as it is unless something is appended to it. -/
theorem text_of_ne (hc : d.Concord m s h v) (hi : ∀ cs, i ≠ .append 0 cs) :
    ∃ b, (i.exec id v).2.buffer? 0 = some (some d.home, b) ∧ b.Fed d.config (entries h) := by
  obtain ⟨b, hb, hfed⟩ := hc.text
  exact ⟨b, exec_buffer_of_ne id hb hi, hfed⟩

/-- A thread does something that leaves the text as it is. -/
theorem act_aside (hc : d.Concord m s h v) (hq : q < m.begun) (hs : v.Sound) (hnext : v.Next (i.exec id v).2)
    (hown : d.Own id q (s q) i) (happend : ∀ cs, i ≠ .append 0 cs) (hholds : d.Holds q t (i.exec id v).2)
    (hproper : d.Proper q t) (hscope : ∀ n, t.scopeId = some n → (s q).scopeId = some n ∨ v.scene.scopes.size ≤ n)
    (hline : ∀ o, t.lineId = some o → (s q).lineId = some o ∨ v.objects.size ≤ o)
    (hfinal : Becomes (s q).thread t.thread) (htask : t.task = (s q).task) (hcount : t.count = (s q).count) :
    d.Concord m (update s q t) h (i.exec id v).2 := by
  refine hc.act hq hs hnext hown hholds hproper hscope hline hfinal htask ?_ (hc.text_of_ne happend)
  have hcounts : counts m (update s q t) = counts m s := by
    funext p
    unfold counts
    by_cases hpq : p = q
    · subst hpq
      rw [update_self, hcount]
    · rw [update_of_ne hpq]
  rw [hcounts]
  exact hc.shuffle

/-! ## What the main program does -/

/-- **What the main program does.** The shares stay as they are. -/
theorem direct (hc : d.Concord m s h v) (hs : v.Sound) (hnext : v.Next (i.exec id v).2)
    (hsubject : ∀ q, q < m.begun → i.subject? ≠ some (d.thr q))
    (hassign : ∀ n x y, i = .edit (.assign (some n) x y) → isGlobalName x) (happend : ∀ o cs, i ≠ .append o cs)
    (hbegun : m'.begun = m.begun) (hjoined : m'.joined = m.joined) (hsettled : m'.settled = m.settled)
    (hown : m'.ledger.own = m.ledger.own) (hleads : d.Leads m' (i.exec id v).2) :
    d.Concord m' s h (i.exec id v).2 := by
  have hcounts : counts m' s = counts m s := by
    funext q
    rw [counts, counts, hbegun]
  refine ⟨hc.set.later hnext.later, hleads, ?_, ?_, ?_, ?_, ?_, ?_, ?_, ?_, ?_, hc.text_of_ne fun cs => happend 0 cs⟩
  · rw [hjoined, hbegun]
    exact hc.joined
  · rw [hsettled, hbegun]
    exact hc.settled
  · rw [hown, hbegun]
    exact hc.tasks
  · rw [hbegun]
    intro q hq
    exact (hc.holds q hq).kept hs (hc.proper q hq).cast.home_isSome (hsubject q hq) (fun n x y _ => hassign n x y)
      fun o cs _ => happend o cs
  · rw [hbegun]
    exact hc.proper
  · rw [hbegun]
    exact hc.scopes
  · rw [hbegun]
    exact hc.lines
  · rw [hbegun]
    exact hc.aside
  · rw [hcounts]
    exact hc.shuffle

/-- A quiet instruction changes nothing that was agreed on. -/
theorem quiet (hc : d.Concord m s h v) (hs : v.Sound) (hnext : v.Next (i.exec id v).2) (hi : i.isQuiet)
    (hbinds : m.ledger.own → i.binds id ≠ some mainTask) : d.Concord m s h (i.exec id v).2 := by
  have hsubject (o : ObjId) : i.subject? ≠ some o := by
    rw [subject?_of_isQuiet hi]
    nofun
  have hne {j : Instr} (hj : j.isQuiet = false) : i ≠ j := ne_of_isQuiet hi hj
  refine hc.direct hs hnext (fun q _ => hsubject _) (fun n x y h => absurd h (hne rfl)) (fun o cs => hne rfl)
    rfl rfl rfl rfl ?_
  exact hc.leads.kept hs hc.set.has (fun q _ _ => hsubject _) (fun scope x y h => absurd h (hne rfl))
    (isReserved_of_isQuiet hi) hbinds

end Concord

/-! ## What parts may do -/

/-- A task that has others beside it may perform a quiet instruction. -/
theorem acts_quiet {a} (ha : ∀ u, a ≠ .alone u) (hs : v.Sound) (hnext : v.Next (i.exec id v).2) (hi : i.isQuiet)
    (hprints : i.prints = []) (hbinds : i.binds id = none ∨ i.binds id = a.task?) : (d.pact E).Acts id a v i a := by
  refine ⟨?_, fun {P j} hP hj => ?_⟩
  · rw [hprints, List.append_nil]
  · have hsame : update P j (some a) = P := by rw [← hj, update_eq_self]
    rcases hP with rfl | ⟨m, s, h, rfl, hc⟩
    · cases j with
      | zero => exact absurd (Option.some.inj hj).symm (ha v)
      | succ j => cases hj
    · refine .inr ⟨m, s, h, hsame, hc.quiet hs hnext hi fun hown hmain => ?_⟩
      rcases hbinds with hnone | hself
      · cases hnone.symm.trans hmain
      · cases j with
        | zero =>
          cases hj
          cases hself.symm.trans hmain
        | succ j =>
          obtain ⟨hlt, hj⟩ := Option.ite_none_right_eq_some.mp hj
          cases hj
          exact hc.tasks hown j hlt (Option.some.inj (hself.symm.trans hmain))

theorem acts_alone (hprints : i.prints = []) : (d.pact E).Acts id (.alone v) v i (.alone (i.exec id v).2) := by
  refine ⟨?_, fun {P j} hP hj => ?_⟩
  · rw [hprints]
    rfl
  · obtain ⟨-, rfl, rfl⟩ := joint_alone hP hj
    exact .inl (update_solo v _)

/-- The main program comes to be one of several tasks. -/
theorem acts_found (hprints : i.prints = []) (hbegun : m.begun = 0) (hshown : m.shown = [])
    (hc : d.Concord m s h (i.exec id v).2) : (d.pact E).Acts id (.alone v) v i (.lead m) := by
  refine ⟨?_, fun {P j} hP hj => ?_⟩
  · rw [hprints]
    exact hshown
  · obtain ⟨-, rfl, rfl⟩ := joint_alone hP hj
    exact .inr ⟨m, s, h, update_solo_lead v hbegun s, hc⟩

theorem acts_lead (hbegun : m'.begun = m.begun) (hshown : m'.shown = m.shown ++ i.prints)
    (hact : ∀ s h, d.Concord m s h v → d.Concord m' s h (i.exec id v).2) :
    (d.pact E).Acts id (.lead m) v i (.lead m') := by
  refine ⟨hshown, fun {P j} hP hj => ?_⟩
  obtain ⟨rfl, s, h, rfl, hc⟩ := joint_lead hP hj
  exact .inr ⟨m', s, h, update_parts_lead hbegun, hact s h hc⟩

theorem acts_share {t' : Share} (hshown : t'.shown = t.shown ++ i.prints)
    (hact : ∀ m s h, d.Concord m s h v → q < m.begun → s q = t →
      ∃ h', d.Concord m (update s q t') h' (i.exec id v).2) : (d.pact E).Acts id (.share q t) v i (.share q t') := by
  refine ⟨hshown, fun {P j} hP hj => ?_⟩
  obtain ⟨rfl, m, s, h, rfl, hc, hq, hs⟩ := joint_share hP hj
  obtain ⟨h', hc'⟩ := hact m s h hc hq hs
  exact .inr ⟨m, _, h', update_parts_share hq t', hc'⟩

/-- The main program notes that a thread is over. -/
theorem shifts_lead {t} (hq : q < m.begun) (ht : v.thread? (d.thr q) = some t) (hover : t.ended) :
    (d.pact E).Shifts (.lead m) v (.lead { m with joined := (q, t) :: m.joined }) := by
  refine ⟨rfl, fun {P j} hP hj => ?_⟩
  obtain ⟨rfl, s, h, rfl, hc⟩ := joint_lead hP hj
  refine .inr ⟨_, s, h, update_parts_lead rfl, { hc with joined := ?_, leads := { hc.leads with } }⟩
  intro p hp
  rcases List.mem_cons.mp hp with rfl | hp
  · exact ⟨hq, Option.some.inj ((hc.holds q hq).thread.symm.trans ht), hover⟩
  · exact hc.joined p hp

/-- The main program may wait for the end of a thread that it has started. -/
theorem waits_lead (hq : q < m.begun) : (d.pact E).Waits (.lead m) (.ended (d.thr q)) := by
  intro P w j hP hj
  obtain ⟨rfl, s, h, rfl, hc⟩ := joint_lead hP hj
  refine ⟨rfl, fun hends => ?_⟩
  obtain ⟨_, hended⟩ := hends (q + 1) (.share q (s q)) (Nat.succ_ne_zero q) (if_pos hq)
  show w.hasEnded (d.thr q)
  unfold hasEnded
  rw [(hc.holds q hq).thread]
  exact hended

theorem parts_eq_none (m : Lead) (s : Nat → Share) (k : Nat) : parts m s k = none ↔ m.begun + 1 ≤ k := by
  cases k with
  | zero => exact ⟨by rintro ⟨⟩, fun h => absurd h (Nat.not_succ_le_zero _)⟩
  | succ k =>
    by_cases hk : k < m.begun
    · rw [parts, if_pos hk]
      exact ⟨by rintro ⟨⟩, fun h => by omega⟩
    · rw [parts, if_neg hk]
      exact ⟨fun _ => by omega, fun _ => rfl⟩

/-- It notes that all threads that it has started have terminated. -/
theorem shifts_settled (hall : ∀ q, q < m.begun → v.isTerminated (d.thr q)) :
    (d.pact E).Shifts (.lead m) v (.lead { m with settled := true }) := by
  refine ⟨rfl, fun {P j} hP hj => ?_⟩
  obtain ⟨rfl, s, h, rfl, hc⟩ := joint_lead hP hj
  refine .inr ⟨_, s, h, update_parts_lead rfl, { hc with settled := fun _ q hq => ?_, leads := { hc.leads with } }⟩
  have hstate := hall q hq
  unfold isTerminated at hstate
  rw [(hc.holds q hq).thread] at hstate
  exact eq_of_beq hstate

/-- The main program starts the next thread, which gets the share that was held for it. -/
theorem splits_lead (hle : m.begun ≤ d.workers) (hsettled : m.settled = false)
    (hproper : d.Proper m.begun { thread := m.held m.begun, task := v.tasks }) :
    (d.pact E).Splits (.lead m) v (.lead { m with begun := m.begun + 1 })
      (.share m.begun { thread := m.held m.begun, task := v.tasks }) := by
  refine ⟨rfl, fun {P j n} hP hj hn => ?_⟩
  obtain ⟨rfl, s, h, rfl, hc⟩ := joint_lead hP hj
  obtain rfl : n = m.begun + 1 := by
    have hiff (k : Nat) : m.begun + 1 ≤ k ↔ n ≤ k := (parts_eq_none m s k).symm.trans (hn k)
    exact Nat.le_antisymm ((hiff _).mp (Nat.le_refl _)) ((hiff _).mpr (Nat.le_refl _))
  refine .inr ⟨_, _, h, update_parts_start rfl _, ?_⟩
  have hle' : v ≤ { v with tasks := v.tasks + 1 } := le_of_same rfl rfl rfl
  have hlead := hc.leads
  -- What holds of the threads before holds still, and of the new one because it was held for it.
  have hall (M : Nat → Share → Prop) (hold : ∀ q, q < m.begun → M q (s q))
      (hnew : M m.begun { thread := m.held m.begun, task := v.tasks }) (q : Nat) (hq : q < m.begun + 1) :
      M q (update s m.begun { thread := m.held m.begun, task := v.tasks } q) := by
    by_cases heq : q = m.begun
    · subst heq
      rwa [update_self]
    · rw [update_of_ne heq]
      exact hold q (by omega)
  have hapart {f : Share → Option Nat} (hold : Apart m.begun f s)
      (hnew : f { thread := m.held m.begun, task := v.tasks } = none) :
      Apart (m.begun + 1) f (update s m.begun { thread := m.held m.begun, task := v.tasks }) := by
    intro p q k hp hq hpk hqk
    have hother {r : Nat} (hr : r < m.begun + 1)
        (hrk : f (update s m.begun { thread := m.held m.begun, task := v.tasks } r) = some k) :
        r < m.begun ∧ f (s r) = some k := by
      by_cases heq : r = m.begun
      · subst heq
        rw [update_self, hnew] at hrk
        cases hrk
      · rw [update_of_ne heq] at hrk
        exact ⟨by omega, hrk⟩
    obtain ⟨hp, hpk⟩ := hother hp hpk
    obtain ⟨hq, hqk⟩ := hother hq hqk
    exact hold hp hq hpk hqk
  refine ⟨hc.set.later hle', ?_, fun q hq => ?_, fun hm => ?_, fun hm => ?_, ?_, ?_, hapart hc.scopes rfl,
    hapart hc.lines rfl, ?_, ?_, hc.text⟩
  · obtain ⟨hcounted, hfiles, hown⟩ := hlead.books
    exact { hlead with
      books := ⟨hcounted, hfiles, fun h => ⟨Nat.succ_pos _, (hown h).2⟩⟩
      begun := Nat.succ_le_succ hle
      held := fun q hq => hlead.held q (Nat.le_of_succ_le hq) }
  · obtain ⟨hlt, hover⟩ := hc.joined q hq
    rw [update_of_ne (Nat.ne_of_lt hlt)]
    exact ⟨Nat.lt_succ_of_lt hlt, hover⟩
  · cases hsettled.symm.trans hm
  · exact hall (fun _ t => t.task ≠ mainTask) (hc.tasks hm) (hlead.books.2.2 hm).1.ne'
  · refine hall (fun q t => d.Holds q t _) (fun q hq => ?_)
      ⟨(hlead.held _ (Nat.le_refl _) hle).1, nofun, nofun⟩
    exact ⟨(hc.holds q hq).thread, (hc.holds q hq).scope, (hc.holds q hq).line⟩
  · exact hall d.Proper hc.proper hproper
  · exact hall (fun _ t => t.lineId ≠ some 0) hc.aside nofun
  · have hcounts : counts { m with begun := m.begun + 1 }
        (update s m.begun { thread := m.held m.begun, task := v.tasks }) = counts m s := by
      funext q
      unfold counts
      dsimp only
      by_cases heq : q = m.begun
      · subst heq
        rw [if_pos (Nat.lt_succ_self _), if_neg (Nat.lt_irrefl _), update_self]
      · rw [update_of_ne heq]
        by_cases hlt : q < m.begun
        · rw [if_pos hlt, if_pos (by omega)]
        · rw [if_neg hlt, if_neg (by omega)]
    rw [hcounts]
    exact hc.shuffle

end Plan

end Demo

end ObjectKernel
