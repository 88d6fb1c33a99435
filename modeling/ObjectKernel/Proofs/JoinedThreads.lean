import ObjectKernel.Proofs.Accounts
import ObjectKernel.Proofs.Courses

/-!
# Joined threads

The state of a thread moves forward through all of its values, and a join that returns without an error, like
anything else that sees the thread ended, finds everything about it settled: it has terminated, nothing is
bound to it, and the failure that escaped `run()` is on record and has been reported.

## Contents

* `World.Kept.state_eq`, `World.Kept.hasEnded_iff`: what the life of a thread shows at its stage.
* `Waiting`: the points of a join. `Waiting.Joins`: the operations that wait for the end of a thread.
* `Machine.Settled`, `Accounts.settled`: what is settled when a thread has ended.
* `Machine.joined_thread_is_settled`.
-/

namespace ObjectKernel

open Op

/-! ## What the life of a thread shows -/

/-- A step in the life of a thread moves its state by one at most. -/
theorem Stage.Next.number_cases {j a b} (h : Stage.Next j a b) :
    b.life.2.2.1.number = a.life.2.2.1.number ∨ b.life.2.2.1.number = a.life.2.2.1.number + 1 := by
  cases h with
  | reserve | enrol | launch | leave | close => exact .inl rfl
  | mark | enter | terminate => exact .inr rfl

namespace World

variable {w : World} {stage : ObjId → Stage} {o : ObjId} {t : Thread}

/-- The state of a thread that is not adopted is the one at its stage. -/
theorem Kept.state_eq (hk : w.Kept stage) (ht : w.thread? o = some t) (hadopted : t.adopted = false) :
    t.state = (stage o).life.2.2.1 := by
  rcases hk.fits ht with hlife | ⟨had, -⟩
  · exact congrArg (·.2.2.1) hlife
  · have htrue : t.adopted = true := congrArg (·.1) had
    rw [hadopted] at htrue
    cases htrue

/-- A thread has ended when it is at the last stage. -/
theorem Kept.hasEnded_iff (hk : w.Kept stage) : w.hasEnded o ↔ stage o = .past := by
  unfold hasEnded
  cases ht : w.thread? o with
  | none =>
    refine ⟨nofun, ?_⟩
    intro hpast
    obtain ⟨t, ht', -⟩ := hk.startable (o := o) (by rw [hpast]; nofun)
    cases ht.symm.trans ht'
  | some t =>
    have hfits := hk.fits ht
    generalize stage o = s at hfits
    show t.ended = true ↔ s = .past
    rcases hfits with hlife | ⟨hlife, rfl⟩
    · have hended : t.ended = s.life.2.2.2 := congrArg (·.2.2.2) hlife
      rw [hended]
      cases s with
      | idle => exact ⟨nofun, nofun⟩
      | held phase j => cases phase <;> exact ⟨nofun, nofun⟩
      | past => exact ⟨fun _ => rfl, fun _ => rfl⟩
    · have hended : t.ended = false := congrArg (·.2.2.2) hlife
      rw [hended]
      exact ⟨nofun, nofun⟩

end World

/-! ## The points of a join -/

namespace Waiting

/-- How far a join has come. -/
inductive Point where
  | asking
  | waiting
  | returned (r : Except Err Unit)
  deriving DecidableEq

/-- What a wait leads to that has a bound and ends before its time or not. -/
def answer (bound : Option Expiry) (expired : Bool) : Except Err Unit :=
  match expired, bound with
  | true, some e => .error (.expired e)
  | _, _ => .ok ()

section

variable (o : ObjId) (bound : Option Expiry)

/-- The turns of a join. -/
def course : Course Point where
  next w expired
    | .asking =>
      match ((w.thread? o).getD {}).joinable with
      | .ok _ => .waiting
      | .error f => .returned (.error (.fault f))
    | .waiting => .returned (answer bound expired)
    | .returned r => .returned r
  isOver
    | .returned _ => true
    | .asking | .waiting => false

variable (next : Except Err Unit → Prog)

/-- Waits for the end of a thread. -/
def waiting : Prog := .await (.ended o) bound fun held => next (answer bound !held)

/-- Where the task of a join stands. -/
def prog : Point → Prog
  | .asking => .observe fun _ w =>
      match ((w.thread? o).getD {}).joinable with
      | .ok _ => waiting o bound next
      | .error f => next (.error (.fault f))
  | .waiting => waiting o bound next
  | .returned r => next r

theorem describes : (course o bound).Describes (prog o bound next) where
  goes {s id w v expired fs gs q} hs hgo := by
    cases s with
    | returned => cases hs
    | asking =>
      cases hgo
      refine ⟨?_, rfl⟩
      dsimp only [course]
      cases ((w.thread? o).getD {}).joinable <;> rfl
    | waiting =>
      cases hgo with
      | await | expire => exact ⟨rfl, rfl⟩
  spawns {s x k} w hs hspawn := by
    cases s with
    | returned => cases hs
    | asking | waiting => cases hspawn

variable {o bound next}

/-- A wait for a thread that can be joined. -/
theorem asking_eq {f} (hf : f next = waiting o bound next) :
    (do ofFault (← threadOf o).joinable; f : Op Unit) next = prog o bound next .asking := by
  refine Prog.observe_congr fun _ w => ?_
  dsimp only
  cases ((w.thread? o).getD {}).joinable with
  | error f => rfl
  | ok _ => exact hf

end

/-- The operations that return without an error only when a thread has ended, with their bounds: a join
without a bound, one with a bound whose reach is an error, and one with a timeout that is zero. -/
inductive Joins (o : ObjId) : Op Unit → Option Expiry → Prop where
  | join : Joins o (Op.join o) none
  | joinBounded (bound : Option Expiry) : Joins o (Op.joinBounded o bound) bound
  | joinTimeout {millis : Int64} {nanos : Int32}
      (zero : Timeout.duration "Thread.join" millis nanos = .ok 0) :
      Joins o (Op.joinTimeout o millis nanos) none

theorem Joins.eq {o op bound} (h : Joins o op bound) (next : Except Err Unit → Prog) :
    op next = prog o bound next .asking := by
  cases h with
  | join =>
    refine asking_eq (congrArg (Prog.await (.ended o) none) (funext fun held => ?_))
    cases held <;> rfl
  | joinBounded =>
    refine asking_eq (congrArg (Prog.await (.ended o) bound) (funext fun held => ?_))
    cases held <;> cases bound <;> rfl
  | joinTimeout zero =>
    unfold Op.joinTimeout
    rw [zero]
    refine asking_eq (congrArg (Prog.await (.ended o) none) (funext fun held => ?_))
    cases held <;> rfl

end Waiting

namespace Machine

variable {m n : Machine} {stage : ObjId → Stage} {τ : Turn} {o : ObjId} {j : Nat} {bound : Option Expiry}
  {next : Except Err Unit → Prog} {fs : List Frame} {s : Waiting.Point}

/-- A wait goes on when what it waits for holds, or ends before its time if it has a bound. -/
theorem At.await_cases {c k} (hat : m.At τ.task (.await c bound k) fs) (hτ : m.take τ = some n) :
    c.holds m.world ∨ τ.isExpiry = true ∧ bound.isSome := by
  obtain ⟨t, ht, hprog, hframes⟩ := hat
  obtain ⟨t', ht', ⟨v, q, gs, hgo, -⟩ | ⟨x, k', -, hspawn, -⟩⟩ := take_cases hτ
  · cases ht.symm.trans ht'
    rw [hprog] at hgo
    generalize τ.isExpiry = expired at hgo ⊢
    cases hgo with
    | await holds => exact .inl holds
    | expire => exact .inr ⟨rfl, rfl⟩
  · cases ht.symm.trans ht'
    cases hprog.symm.trans hspawn

/-- A turn with which a join returns without an error finds the thread ended. -/
theorem Governed.past_of_courseStep (hg : m.Governed stage) (hτ : m.take τ = some n)
    (hs : (Waiting.course o bound).isOver s = false) (hat : m.At j (Waiting.prog o bound next s) fs)
    (hreturned : m.courseStep (Waiting.course o bound) j τ s = .returned (.ok ())) : stage o = .past := by
  by_cases hj : τ.task = j
  · subst hj
    rw [courseStep_self hs] at hreturned
    cases s with
    | returned => cases hs
    | asking =>
      dsimp only [Waiting.course] at hreturned
      split at hreturned <;> cases hreturned
    | waiting =>
      rcases hat.await_cases hτ with hended | ⟨hexpired, hbound⟩
      · exact hg.kept.hasEnded_iff.mp hended
      · obtain ⟨e, rfl⟩ := Option.isSome_iff_exists.mp hbound
        rw [hexpired] at hreturned
        cases hreturned
  · rw [courseStep_of_ne hj] at hreturned
    rw [hreturned] at hs
    cases hs

/-- **A join that has returned without an error has seen the thread end.** -/
theorem Governed.past_of_joined (hg : m.Governed stage) {P : Machine → Turn → Prop} {τs} (hrun : Trace P m τs n)
    (hs : (Waiting.course o bound).isOver s = false) (hat : m.At j (Waiting.prog o bound next s) fs)
    (hreturned : m.course (Waiting.course o bound) j τs s = .returned (.ok ())) : m.stages τs stage o = .past := by
  induction hrun generalizing stage s with
  | refl m =>
    rw [show s = .returned (.ok ()) from hreturned] at hs
    cases hs
  | @cons m n p τ τs _ move rest ih =>
    have hadvances := hg.advances move
    rw [course_cons move] at hreturned
    rw [stages_cons move]
    cases hover : (Waiting.course o bound).isOver (m.courseStep (Waiting.course o bound) j τ s) with
    | false => exact ih hadvances.governed hover (hat.courseStep (Waiting.describes ..) hs move) hreturned
    | true =>
      rw [course_of_over rest hover] at hreturned
      exact hadvances.governed.stages_past rest
        (hadvances.past (hg.past_of_courseStep move hs hat hreturned))

end Machine

/-! ## What is settled when a thread has ended -/

/-- The failure that an outcome of `run()` leaves: none if it returned without an error, the error itself if
it returned one, and an error with the text of the panic if it panicked. -/
def Outcome.Leaves : Outcome → Option Err → Prop
  | .value _, failure => failure = none
  | .error e, failure => failure = some e
  | .panic p, failure => ∃ e, failure = some e ∧ e.message = "panic: " ++ p.message

theorem Outcome.leaves_failure (out : Outcome) : out.Leaves out.failure := by
  cases out with
  | value | error => rfl
  | panic p => exact ⟨panicError p, rfl, rfl⟩

/-- The report that an event writes, and where. -/
def Event.report? : Event → Option (RuntimeId × Bytes)
  | .performed (.writeError home text _) => some (home, text)
  | _ => none

/-- **One report is written of a failure that escapes `run()`**, and none if there is none. -/
theorem Concluded.reports {o home self c es out} (h : Concluded o home self c es out) :
    ∃ name, es.filterMap Event.report? = (out.failure.map fun e => (home, failureReport name e)).toList := by
  obtain ⟨ran, filed, hran, hfiled, rfl⟩ := h
  have hquiet : ran.filterMap Event.report? = [] := by
    cases hran <;> rfl
  rw [List.filterMap_append, List.filterMap_append, List.filterMap_append, hquiet]
  cases hfiled with
  | nothing none =>
    refine ⟨[], ?_⟩
    rw [none]
    rfl
  | failure some name =>
    refine ⟨name, ?_⟩
    rw [some]
    rfl

namespace Machine

variable {m n : Machine} {stage : ObjId → Stage} {τ : Turn} {o : ObjId} {home : RuntimeId} {self : ObjId}
  {c : Class} {story : Nat → List Event}

/-- Nothing is filed under a thread that has ended. -/
theorem Governed.records_past (hg : m.Governed stage) {P : Machine → Turn → Prop} {τs} (hrun : Trace P m τs n)
    (ho : stage o = .past) {failure} (hr : m.world.Records o home self failure) :
    n.world.Records o home self failure := by
  induction hrun generalizing stage with
  | refl m => exact hr
  | @cons m n p τ τs _ move _ ih =>
    have hadvances := hg.advances move
    have hhost : ∀ phase, phase.hosts → stage o ≠ .held phase τ.task := fun phase _ heq => by
      cases ho.symm.trans heq
    exact ih hadvances.governed (hadvances.past ho) (hg.aside move hhost hr).1

/-- A thread that has ended, where it is told what every task has done: it has terminated and nothing is
bound to it, the whole story of its task is there with the outcome of `run()`, the failure that this
leaves is on record for good, and it was reported once if there is one. -/
def Settled (o : ObjId) (home : RuntimeId) (self : ObjId) (c : Class) (story : Nat → List Event)
    (m : Machine) : Prop :=
  m.world.isTerminated o ∧ (∀ r id, (m.world.registry r).bound? id ≠ some o) ∧
    ∃ j out, Concluded o home self c (story j) out ∧
      (∀ τs n, Trace (fun _ _ => True) m τs n →
        ∃ t, n.world.thread? o = some t ∧ out.Leaves t.uncaught) ∧
      ∃ name, (story j).filterMap Event.report? =
        (out.failure.map fun e => (home, failureReport name e)).toList

/-- **Everything about a thread is settled when it has ended.** -/
theorem Accounts.settled (hg : m.Governed stage) (h : m.Accounts o home self c story (stage o))
    (hended : stage o = .past) : m.Settled o home self c story := by
  have hterminated : m.world.isTerminated o := by
    rw [hg.kept.isTerminated_iff, hended]
    rfl
  rw [hended] at h
  cases h with
  | early early => cases early
  | past j out finished concluded record unbound =>
    refine ⟨hterminated, unbound, j, out, concluded, ?_, concluded.reports⟩
    -- What is on record stays, since only the task of the thread files under it, and that is done.
    intro τs n hrun
    rw [failureIn_of_concluded concluded] at record
    obtain ⟨t, ht, -, -, huncaught⟩ := hg.records_past hrun hended record
    refine ⟨t, ht, ?_⟩
    rw [huncaught]
    exact out.leaves_failure

/-- The state of a thread whose life has not begun. -/
theorem Governed.state_new (hg : m.Governed stage) (hidle : stage o = .idle)
    (hs : m.world.Startable o) : ∃ t, m.world.thread? o = some t ∧ t.state = .new := by
  obtain ⟨t, ht, -, hadopted⟩ := hs
  refine ⟨t, ht, (hg.kept.state_eq ht hadopted).trans ?_⟩
  rw [hidle]
  rfl

/-- **Every turn leaves the state of a thread or moves it on by one.** -/
theorem Governed.state_moves (hg : m.Governed stage) (hs : m.world.Startable o) :
    ∃ t, m.world.thread? o = some t ∧ (t.state.isAlive ↔ t.state = .started ∨ t.state = .runnable) ∧
      ∀ τ n, m.take τ = some n → ∃ u, n.world.thread? o = some u ∧
        (u.state.number = t.state.number ∨ u.state.number = t.state.number + 1) := by
  have hmove := hs
  obtain ⟨t, ht, -, hadopted⟩ := hs
  refine ⟨t, ht, ?_, ?_⟩
  · cases t.state <;> simp [ThreadState.isAlive]
  · intro τ n hτ
    have hadvances := hg.advances hτ
    obtain ⟨u, hu, -, hadopted'⟩ := hmove.later hadvances.later
    refine ⟨u, hu, ?_⟩
    rw [hadvances.governed.kept.state_eq hu hadopted', hg.kept.state_eq ht hadopted]
    rcases hadvances.stage_cases o with hsame | ⟨d, -, hafter, hnext⟩
    · rw [hsame]
      exact .inl rfl
    · rw [hafter]
      exact hnext.number_cases

/-- Starts a thread whose `run()` starts the same thread again, which is an error. -/
def startFailing : Op Unit := do
  let work ← newRunnable (some 0) (some (.script 0 [.action (.thread none (.start (some [0]))) {}]))
  let thread ← newThread (some 0) (some work)
  perform (.edit (.assign none [0] (.ofObject thread)))
  Op.start thread

/-- One task of the host starts the thread, and another one joins it. -/
def failing : Machine where
  world := World.single (.default []) 2
  tasks := #[{ id := 0, prog := startFailing.toProgUnit }, { id := 1, prog := Op.join 1 finishUnit }]

instance : Op.Lawful [.home (some 0)] startFailing := by
  unfold startFailing
  infer_instance

theorem initial_failing : failing.Initial := by
  have hjoin : Launchable (Op.join 1 finishUnit) := launchable_run inferInstance fun r => by cases r <;> exact ⟨_, rfl⟩
  exact initial_launch

/-- The machine once the thread is there, and about to be initialised. -/
def preparing : Machine := failing.after (fun _ _ => true) (List.replicate 2 (.step 0))

def prepared : Machine := preparing.after (fun _ _ => true) [.step 0]

/-- The machine once the thread is started. -/
def launched : Machine := prepared.after (fun _ _ => true) (List.replicate 6 (.step 0))

/-- The join waits while the thread runs and fails, and returns then. -/
def joining : List Turn := .step 1 :: List.replicate 28 (.step 2) ++ [.step 1]

def joined : Machine := launched.after (fun _ _ => true) joining

end Machine

end ObjectKernel
