import ObjectKernel.Proofs.BufferHistory

/-!
# What is on record about a thread

A thread that was initialised keeps its home and its outermost object, and it keeps the first failure that
was filed under it. This is shown for every instruction, whoever performs it, and so is that nothing is
on record about a thread that was not initialised.

## Contents

* `World.initThread_thread`, `World.thread?_adopt`: what an initialisation and an adoption do to threads.
* `World.Records`: what is on record about a thread. `Instr.exec_records`: what an instruction does to it.
* `Instr.Works`, `Sits.works`: what a task may do to threads. `Reachable.unfiled`: what it does not do.
* `World.records_initThread`: what is on record about a thread from its initialisation on.
-/

namespace ObjectKernel

open Function

namespace World

variable {w v u : World} {t : Thread} {home : RuntimeId} {target : Option ObjId}

/-! ## Changes of threads -/

/-- There are the same threads, each as it was. -/
def SameThreads (w v : World) : Prop := ∀ o, v.thread? o = w.thread? o

theorem sameThreads_of_objects (h : v.objects = w.objects) : w.SameThreads v :=
  fun o => thread?_congr (object?_congr h o)

/-- A thread whose object has no class was not initialised, and its life has not begun. -/
theorem unstarted_of_unbound (hs : w.Sound) {q} (hq : w.classOf? q = none) (ht : w.thread? (w.header q) = some t) :
    t.home = none ∧ t.Unstarted := by
  obtain ⟨obj, hobj, hpayload⟩ := thread?_eq_some.mp ht
  have hnone : t.home = none := home_none_of_unbound hs hq hobj hpayload
  exact ⟨hnone, (hs.object hobj).idle t hpayload hnone⟩

/-- What the initialisation of an object does to threads: it changes the one that the object is or has as
its part, which was not initialised before. -/
theorem initThread_thread (hs : w.Sound) {p c} (hv : w.initThread home p c target = .ok v) : ∃ q id name, p = some q ∧
      (∀ o, v.thread? o = if w.header q = o then (w.thread? o).map fun t =>
        { t with home := some home, self := some q, target, id, name, ended := false }
        else w.thread? o) ∧
      ∀ t, w.thread? (w.header q) = some t → t.home = none ∧ t.Unstarted := by
  obtain ⟨q, d, rfl, rfl, hn, rfl⟩ := initThread_eq hv
  refine ⟨q, (w.registry home).nextId.1, (w.registry home).nextId.2.nextName.1, rfl, fun o => ?_,
    fun t => unstarted_of_unbound hs hn⟩
  rw [thread?_modifyThread, ← thread?_bindClass w q d o]
  rfl

/-- An object that was initialised as an instance of a class has that class. -/
theorem classOf?_initThread (hle : w ≤ v) {p c} (ht : w.thread? (w.header p) = some t)
    (hv : w.initThread home (some p) (some c) target = .ok v) : v.classOf? p = some c := by
  obtain ⟨_, _, hp, hc, -, rfl⟩ := initThread_eq hv
  cases hp
  cases hc
  obtain ⟨obj, hobj, hpayload⟩ := thread?_eq_some.mp ht
  have hown : ∃ obj', w.object? p = some obj' := by
    cases hnone : w.object? p with
    | some obj' => exact ⟨obj', rfl⟩
    | none =>
      rw [header_of_none hnone, hnone] at hobj
      cases hobj
  obtain ⟨obj', hobj'⟩ := hown
  have hbound : ((w.bindClass p c).modifyRegistry home fun _ =>
      (w.registry home).nextId.2.nextName.2).object? (w.header p) =
        some { obj with cls := some c, hash := w.constructed + 1 } := by
    refine (object?_modifyObject ..).trans ?_
    rw [if_pos rfl, hobj]
    rfl
  unfold classOf?
  rw [header_later hle hobj']
  unfold modifyThread
  rw [object?_modifyObject, if_pos rfl, hbound]
  dsimp only [Option.map_some, Option.bind_some]
  rw [hpayload]

/-- What the adoption of a task that has no thread does to threads: it makes one. -/
theorem thread?_adopt {task} (hb : (w.registry home).bound? task = none) (o : ObjId) :
    (w.adopt home task).2.thread? o =
      if w.objects.size = o then some { w.adoptee home task with self := some w.objects.size }
      else w.thread? o := by
  rw [adopt_of_unbound hb, thread?_eq, thread?_eq, content?_modifyRegistry, content?_create]
  split <;> rfl

/-! ## Records -/

/-- What is on record about a thread: its home, its outermost object, and the failure filed under it. -/
def Records (w : World) (o : ObjId) (home : RuntimeId) (self : ObjId) (failure : Option Err) : Prop :=
  ∃ t, w.thread? o = some t ∧ t.home = some home ∧ t.self = some self ∧ t.uncaught = failure

variable {o self : ObjId} {home : RuntimeId} {failure : Option Err}

theorem Records.inHome (h : w.Records o home self failure) : ∃ t, w.thread? o = some t ∧ t.home = some home := by
  obtain ⟨t, ht, hhome, -⟩ := h
  exact ⟨t, ht, hhome⟩

theorem Records.congr (h : w.Records o home self failure) (ho : v.thread? o = w.thread? o) :
    v.Records o home self failure := by
  obtain ⟨t, ht, hrest⟩ := h
  exact ⟨t, ho.trans ht, hrest⟩

end World

open World

variable {w : World} {o self : ObjId} {i : Instr} {fs : List Frame} {home : RuntimeId} {failure : Option Err}

/-- The failure that an instruction files under a thread. -/
def Instr.files (o : ObjId) : Instr → Option Err
  | .recordUncaught p e => if p = o then some e else none
  | _ => none

theorem World.Records.recordUncaught (h : w.Records o home self failure) (p : ObjId) (e : Err) :
    (w.recordUncaught p e).2.Records o home self (failure.or ((Instr.recordUncaught p e).files o)) := by
  obtain ⟨t, ht, hhome, hself, huncaught⟩ := h
  simp only [Instr.files]
  by_cases hp : p = o
  · rw [if_pos hp, ← huncaught]
    refine ⟨{ t with uncaught := t.uncaught.or (some e) }, ?_, hhome, hself, rfl⟩
    refine (thread?_modifyThread ..).trans ?_
    rw [if_pos hp, ht]
    rfl
  · rw [if_neg hp, Option.or_none]
    refine ⟨t, (thread?_modifyThread ..).trans ?_, hhome, hself, huncaught⟩
    rw [if_neg hp]
    exact ht

/-- **What an instruction does to the record of a thread**: it files a failure, and the first one stays. -/
theorem Instr.exec_records (hs : w.Sound) (h : w.Records o home self failure) (task : TaskId) (i : Instr) :
    (i.exec task w).2.Records o home self (failure.or (i.files o)) := by
  by_cases hfiles : ∃ p e, i = .recordUncaught p e
  · obtain ⟨p, e, rfl⟩ := hfiles
    exact h.recordUncaught p e
  · have hnone : i.files o = none := by
      cases i with
      | recordUncaught p e => exact absurd ⟨p, e, rfl⟩ hfiles
      | _ => rfl
    rw [hnone, Option.or_none]
    obtain ⟨t, ht, hhome, hself, huncaught⟩ := h
    rcases (i.effect task w).thread_of_some ht with hsame | ⟨f, hf, hrevised⟩
    · exact ⟨t, hsame, hhome, hself, huncaught⟩
    · cases hf with
      | reshapes reshapes =>
        cases reshapes with
        | recordUncaught p e => exact absurd ⟨_, _, rfl⟩ hfiles
        | _ => exact ⟨_, hrevised, hhome, hself, huncaught⟩
      | initThread unbound =>
        -- The object that is initialised had no home.
        rw [(unstarted_of_unbound hs unbound ht).1] at hhome
        cases hhome

/-! ## What tasks do to threads -/

/-- What a task with threads in hand may do in a world: what is allowed to anybody, what the `run()` of a
thread may do for that thread, and one by one what moves a thread through its life. -/
inductive Instr.Works (hand : ObjId → Option Phase) (w : World) : Instr → Prop where
  | allowed {own : Option ObjId} {i : Instr} (allowed : i.Allowed own w)
      (inside : ∀ x, own = some x → hand x = some .inside) : Works hand w i
  | reserve {o : ObjId} (startable : w.Startable o) : Works hand w (.reserveStart o)
  | mark {o : ObjId} (phase : hand o = some .marking) : Works hand w (.setState o .started)
  | enrol {o : ObjId} (phase : hand o = some .enrolling) : Works hand w (.register o)
  | bind {o : ObjId} (phase : hand o = some .entering) : Works hand w (.bindTask o)
  | enter {o : ObjId} (phase : hand o = some .entering) : Works hand w (.setState o .runnable)
  | record {o : ObjId} {e : Err} (phase : hand o = some .leaving) : Works hand w (.recordUncaught o e)
  | unbind {o : ObjId} (phase : hand o = some .leaving) : Works hand w (.unbindTask o)
  | terminate {o : ObjId} (phase : hand o = some .leaving) : Works hand w (.setState o .terminated)
  | close {o : ObjId} (phase : hand o = some .closing) : Works hand w (.endThread o)

theorem Sits.works {hand k} (h : Sits w hand (.perform i k) fs) : i.Works hand w := by
  cases h with
  | free lawful frames =>
    cases lawful with
    | perform allowed next => exact .allowed allowed fun x hx => by rw [hx, inHand, if_pos rfl]
    | start startable => exact .reserve startable
  | starting other point =>
    cases point with
    | marking => exact .mark (update_self ..)
    | enrolling => exact .enrol (update_self ..)
  | hosting point =>
    cases point with
    | binding => exact .bind (update_self ..)
    | beginning => exact .enter (update_self ..)
    | recording => exact .record (update_self ..)
    | writing home text =>
      have hallowed : (Instr.writeError home text true).Allowed none w := trivial
      exact .allowed hallowed fun x hx => by cases hx
    | unbinding => exact .unbind (update_self ..)
    | terminating => exact .terminate (update_self ..)
    | closing => exact .close (update_self ..)

/-- Whether a thread at a phase is in the hands of its own task. -/
def Phase.hosts : Phase → Bool
  | marking | enrolling | launching => false
  | entering | inside | leaving | closing => true

/-- The thread whose own task alone performs an instruction. -/
def Instr.hosts? : Instr → Option ObjId
  | .bindTask o | .unbindTask o | .recordUncaught o _ | .endThread o => some o
  | _ => none

/-- **Only the task of a thread binds, files, unbinds and ends it.** -/
theorem Machine.Governed.hosts {m : Machine} {stage} (h : m.Governed stage) {j k} (hat : m.At j (.perform i k) fs)
    (hi : i.hosts? = some o) : ∃ phase, phase.hosts ∧ stage o = .held phase j := by
  obtain ⟨t, ht, hp, -⟩ := hat
  have hsits := h.task ht
  rw [hp] at hsits
  cases hsits.works with
  | allowed allowed inside =>
    cases i with
    | recordUncaught x e =>
      cases hi
      exact ⟨.inside, rfl, Stage.eq_held (inside o allowed)⟩
    | bindTask | unbindTask | endThread => exact allowed.elim
    | _ => cases hi
  | reserve | mark | enrol | enter | terminate => cases hi
  | bind phase =>
    cases hi
    exact ⟨.entering, rfl, Stage.eq_held phase⟩
  | record phase =>
    cases hi
    exact ⟨.leaving, rfl, Stage.eq_held phase⟩
  | unbind phase =>
    cases hi
    exact ⟨.leaving, rfl, Stage.eq_held phase⟩
  | close phase =>
    cases hi
    exact ⟨.closing, rfl, Stage.eq_held phase⟩

/-! ## Threads that were not initialised -/

/-- Nothing is filed under a thread that was not initialised. -/
def World.Unfiled (w : World) : Prop :=
  ∀ ⦃o : ObjId⦄ ⦃t : Thread⦄, w.thread? o = some t → t.home = none → t.uncaught = none

namespace World.Unfiled

variable {w v : World}

theorem same (h : w.Unfiled) (hv : w.SameThreads v) : v.Unfiled := by
  intro o t ht
  rw [hv o] at ht
  exact h ht

/-- What a task does leaves threads alone that were not initialised, as far as failures go. -/
theorem exec (h : w.Unfiled) {hand} (hheld : ∀ {x phase}, hand x = some phase → w.Startable x) (hi : i.Works hand w)
    (task : TaskId) : (i.exec task w).2.Unfiled := by
  intro o t ht hn
  have heffect := i.effect task w
  cases hold : w.thread? o with
  | none =>
    obtain ⟨-, hnew⟩ := heffect.thread_of_none hold ht
    cases hnew with
    | allocate =>
      cases hi with
      | allowed allowed =>
        cases allowed
        rfl
    | create =>
      cases hi with
      | allowed allowed =>
        obtain ⟨⟨code, hcode, -⟩, -⟩ := allowed
        cases hcode
    | adopt => cases hn
  | some a =>
    rcases heffect.thread_of_some hold with hsame | ⟨f, hf, hrevised⟩
    · cases hsame.symm.trans ht
      exact h hold hn
    · cases hrevised.symm.trans ht
      cases hf with
      | initThread => cases hn
      | reshapes reshapes =>
        cases reshapes with
        | recordUncaught p e =>
          have hstartable : w.Startable o := by
            cases hi with
            | allowed allowed inside => exact hheld (inside o allowed)
            | record phase => exact hheld phase
          obtain ⟨t', ht', hhome, -⟩ := hstartable
          cases hold.symm.trans ht'
          rw [hn] at hhome
          cases hhome
        | _ =>
          show a.uncaught = none
          exact h hold hn

end World.Unfiled

namespace Machine

variable {m : Machine}

theorem Run.trace {n} (h : Run m n) : ∃ τs, Trace (fun _ _ => True) m τs n := by
  induction h with
  | refl => exact ⟨[], .refl m⟩
  | tail _ move ih =>
    obtain ⟨τs, hτs⟩ := ih
    obtain ⟨τ, hτ⟩ := move_iff.mp move
    exact ⟨τs ++ [τ], hτs.append (.cons trivial hτ (.refl _))⟩

/-- **What tasks keep, from one instruction to the next, holds in every world that can be reached.** -/
theorem Reachable.invariant {I : World → Prop} (h : m.Reachable) (fresh : ∀ w : World, w.Fresh → I w)
    (launch : ∀ {w : World}, I w → I { w with tasks := w.tasks + 1 })
    (exec : ∀ {m : Machine} {j : Nat} {i : Instr} {k : i.Answer → Prog} {fs : List Frame} (task : TaskId),
      m.Reachable → m.At j (.perform i k) fs → m.world ≤ (i.exec task m.world).2 → I m.world →
        I (i.exec task m.world).2) : I m.world := by
  obtain ⟨m₀, h₀, hrun⟩ := h
  obtain ⟨τs, htrace⟩ := hrun.trace
  exact history_trace (f := fun _ _ => ([] : List Unit)) (I := fun w _ => I w)
    (fun task hm hat hle h => exec task hm hat hle h) launch h₀.reachable htrace [] (fresh _ h₀.fresh)

/-- **Nothing is filed under a thread before it is initialised.** -/
theorem Reachable.unfiled (h : m.Reachable) : m.world.Unfiled := by
  refine h.invariant (fun w hw o t ht => ?_) (fun h => h.same (sameThreads_of_objects rfl)) ?_
  · cases (hw.thread? o).symm.trans ht
  · intro m j i k fs task hm hat _ h
    obtain ⟨stage, hg⟩ := hm.governed
    obtain ⟨t, ht, hp, -⟩ := hat
    have hsits := hg.task ht
    rw [hp] at hsits
    refine h.exec (fun {x phase} hx => ?_) hsits.works task
    apply hg.kept.startable
    rw [Stage.eq_held hx]
    nofun

end Machine

/-- **What is on record about a thread once it is initialised**: its home, its outermost object, and no
failure. Its life has not begun. -/
theorem World.records_initThread {v} (hs : w.Sound) (hu : w.Unfiled) {c target}
    (hv : w.initThread home (some self) c target = .ok v) (hthread : (w.thread? (w.header self)).isSome) :
    v.Records (w.header self) home self none ∧ v.Startable (w.header self) := by
  obtain ⟨q, id, name, hq, hafter, hbefore⟩ := initThread_thread hs hv
  cases hq
  obtain ⟨t, ht⟩ := Option.isSome_iff_exists.mp hthread
  obtain ⟨hnone, hlife⟩ := hbefore t ht
  have ht' := hafter (w.header self)
  rw [if_pos rfl, ht] at ht'
  have huncaught : t.uncaught = none := hu ht hnone
  have hadopted : t.adopted = false := congrArg Prod.fst hlife
  exact ⟨⟨_, ht', rfl, rfl, huncaught⟩, _, ht', rfl, hadopted⟩

end ObjectKernel
