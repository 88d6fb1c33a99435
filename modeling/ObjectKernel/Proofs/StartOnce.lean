import Mathlib.Data.List.Nodup
import ObjectKernel.Proofs.Starts

/-!
# A thread starts once

However the turns of tasks fall that start a thread, one start takes effect, what is done to the thread is
done once and in one order, it is registered once, its task begins `run()` once, and it ends once.

## Contents

* `Stage.deeds`, `Governed.deeds_trace`: what is done to a thread in a run is what its stage says.
* `World.Kept.registered`, `Accounts.dispatches`, `Governed.endThread_ok`: its registration, its `run()`
  and its end.
* `Machine.thread_starts_once`.
-/

namespace ObjectKernel

open Op

variable {s : Stage} {w : World} {k : Unit → Prog} {fs : List Frame}

/-! ## The order of what is done to a thread -/

/-- What has been done to a thread at a stage. -/
def Stage.deeds : Stage → List Deed
  | .idle => []
  | .held .marking _ => [.reserve]
  | .held .enrolling _ => [.reserve, .mark]
  | .held .launching _ => [.reserve, .mark, .enrol]
  | .held .entering _ => [.reserve, .mark, .enrol, .launch]
  | .held .inside _ => [.reserve, .mark, .enrol, .launch, .enter]
  | .held .leaving _ => [.reserve, .mark, .enrol, .launch, .enter, .leave]
  | .held .closing _ => [.reserve, .mark, .enrol, .launch, .enter, .leave, .terminate]
  | .past => [.reserve, .mark, .enrol, .launch, .enter, .leave, .terminate, .close]

theorem Stage.deeds_next {j size} {d : Deed} (h : Stage.Next j s (d.stage j size)) :
    s.deeds ++ [d] = (d.stage j size).deeds := by
  cases d <;> cases h <;> rfl

theorem Stage.nodup_deeds (s : Stage) : s.deeds.Nodup := by
  cases s with
  | idle | past => decide
  | held phase j => cases phase <;> simp [Stage.deeds]

theorem Stage.count_enter_deeds (h : s.isTerminated) : s.deeds.count .enter = 1 := by
  cases s with
  | idle => cases h
  | held phase j =>
    cases phase with
    | closing => rfl
    | marking | enrolling | launching | entering | inside | leaving => cases h
  | past => rfl

namespace Machine

variable {m n : Machine} {stage : ObjId → Stage} {τ : Turn} {o : ObjId} {j : Nat}

/-- What a turn does to a thread. -/
def deeds (o : ObjId) (m : Machine) (τ : Turn) : List Deed :=
  match m.deed? τ with
  | some (x, d) => if x = o then [d] else []
  | none => []

theorem Governed.deeds_take (hg : m.Governed stage) (hτ : m.take τ = some n) (o : ObjId) :
    (stage o).deeds ++ m.deeds o τ = (Stage.after stage τ.task m.tasks.size (m.deed? τ) o).deeds := by
  have hadvances := hg.advances hτ
  unfold deeds
  cases hdeed : m.deed? τ with
  | none => exact List.append_nil _
  | some x =>
    obtain ⟨x, d⟩ := x
    dsimp only
    by_cases hx : x = o
    · subst hx
      rw [if_pos rfl, after_self]
      exact Stage.deeds_next (hadvances.next hdeed)
    · rw [if_neg hx, List.append_nil]
      exact congrArg Stage.deeds (Function.update_of_ne (Ne.symm hx) ..).symm

/-- **What is done to a thread in a run is what its stage says**, each thing once and in the same order. -/
theorem Governed.deeds_trace (hg : m.Governed stage) {P : Machine → Turn → Prop} {τs} (hrun : Trace P m τs n)
    (o : ObjId) : (stage o).deeds ++ m.record (deeds o) τs = (m.stages τs stage o).deeds := by
  induction hrun generalizing stage with
  | refl m => exact List.append_nil _
  | cons _ move _ ih =>
    rw [record_cons _ move, stages_cons move, ← List.append_assoc, hg.deeds_take move]
    exact ih (hg.advances move).governed

end Machine

/-! ## Registration, `run()` and the end -/

namespace World

variable {w : World} {stage : ObjId → Stage} {o : ObjId}

/-- A thread is registered once at most. -/
theorem Kept.count_le (hk : w.Kept stage) (r : RuntimeId) :
    (w.startedThreads r).count o ≤ 1 := List.nodup_iff_count_le_one.mp (hk.nodup r) o

/-- A thread whose stage says so is registered in its home, once. -/
theorem Kept.count_eq (hk : w.Kept stage) {home} (hhome : ∃ t, w.thread? o = some t ∧ t.home = some home)
    (ho : (stage o).enrolled) : (w.startedThreads home).count o = 1 := by
  have hmem : o ∈ w.startedThreads home := (hk.started home o).mpr ⟨ho, hhome⟩
  exact Nat.le_antisymm (hk.count_le home) (List.count_pos_iff.mpr hmem)

/-- A thread that is registered is a started one, and not adopted. -/
theorem Kept.registered (hk : w.Kept stage) {r x} (hx : x ∈ w.startedThreads r) :
    ∃ t, w.thread? x = some t ∧ t.adopted = false ∧ t.started = true := by
  obtain ⟨henrolled, t, ht, -⟩ := (hk.started r x).mp hx
  have hlife := (hk.fits ht).life_eq (World.ne_idle_of_enrolled henrolled)
  generalize stage x = s at henrolled hlife
  have hshown : s.life.1 = false ∧ s.life.2.1 = true := by
    cases s with
    | idle => cases henrolled
    | held phase j => cases phase <;> exact ⟨rfl, rfl⟩
    | past => exact ⟨rfl, rfl⟩
  exact ⟨t, ht, (congrArg (·.1) hlife).trans hshown.1, (congrArg (·.2.1) hlife).trans hshown.2⟩

end World

/-- Code within `run()` marks threads as started only. -/
theorem Apart.eq_started {x s} (h : Apart w (.perform (.setState x s) k) fs) : s = .started := by
  cases h with
  | free lawful =>
    cases lawful with
    | perform allowed => exact allowed.elim
  | starting point =>
    cases point with
    | marking => rfl

/-- The task of a thread calls `run()` on its outermost object as soon as it has marked it as running. -/
theorem Hosted.dispatches {o home self c es} (h : Hosted o home self c w es (.perform (.setState o .runnable) k) fs) :
    k () = dispatch (some home) (some self) Selector.run [] (afterRun o) ∧ fs = [.guard (Run.leaving o)] := by
  generalize hp : Prog.perform (.setState o .runnable) k = p at h
  cases h with
  | beginning inHome onSelf =>
    cases hp
    rw [body_eq, inHome, onSelf]
    exact ⟨rfl, rfl⟩
  | running found apart =>
    subst hp
    cases apart.eq_started
  | entering =>
    rw [Run.program_eq] at hp
    cases hp
  | looking =>
    rw [dispatch_eq] at hp
    cases hp
  | binding | hosting | calling | lacking | filing | reporting | writing | settled | panicking
  | unbinding | terminating | closing => cases hp

namespace Machine

variable {m n : Machine} {stage : ObjId → Stage} {τ : Turn} {o : ObjId} {j : Nat}

/-- **The turn with which the task of a thread enters `run()`** leads to the call of `run()` on the
outermost object of the thread. -/
theorem Accounts.dispatches {home self c story} (hg : m.Governed stage)
    (h : m.Accounts o home self c story (stage o)) (hdeed : m.deed? τ = some (o, .enter)) (hτ : m.take τ = some n) :
    n.At τ.task (dispatch (some home) (some self) Selector.run [] (afterRun o)) [.guard (Run.leaving o)] := by
  have hheld : stage o = .held .entering τ.task := by
    have hnext := (hg.advances hτ).next hdeed
    generalize stage o = s at hnext
    cases hnext
    rfl
  rw [hheld] at h
  cases h with
  | early early => cases early
  | hosted hosts task point shows =>
    rw [deed?_eq task] at hdeed
    obtain ⟨k, hprog⟩ := Prog.deed?_cases hdeed
    rw [hprog] at point
    obtain ⟨hk, hframes⟩ := point.dispatches
    obtain ⟨t, ht, ⟨v, q, gs, hgo, rfl⟩ | ⟨x, k', -, hspawn, -⟩⟩ := take_cases hτ
    · cases task.symm.trans ht
      rw [hprog, hframes] at hgo
      generalize τ.isExpiry = expired at hgo
      cases hgo
      exact ⟨_, task_put_self ht .., hk, rfl⟩
    · cases task.symm.trans ht
      cases hprog.symm.trans hspawn

/-- **Whoever ends a thread ends one that has not ended.** -/
theorem Governed.endThread_ok (hg : m.Governed stage) {k} (hat : m.At j (.perform (.endThread o) k) fs) :
    ∃ v, m.world.endThread o = .ok v := by
  obtain ⟨t, ht, hprog, -⟩ := hat
  have hsits := hg.task ht
  rw [hprog] at hsits
  cases hsits.works with
  | allowed allowed => exact allowed.elim
  | close phase =>
    obtain ⟨v, hv, -⟩ := hg.kept.endThread hg.sound (Stage.eq_held phase)
    exact ⟨v, hv⟩

/-- **A thread starts exactly once.** A task of a machine that can be reached initialises a thread, and any
turns of any tasks follow, among them any number of starts. Then one start at most has returned without
an error, and if there are any and all have returned then one has; the others were refused. The thread
is registered once at most, and once from when a start has returned without an error. Its task enters
`run()` once at most, and once if it has terminated, and it is ended once at most. -/
theorem thread_starts_once {m m₁ n : Machine} (hm : m.Reachable) {i : Nat} {home : RuntimeId}
    {self o : ObjId} (hinit : m.Initialises i home self o) (hstep : m.take (.step i) = some m₁)
    {τs : List Turn} (hrun : Trace (fun _ _ => True) m₁ τs n) :
    (m₁.starts o τs).count .started ≤ 1 ∧
    (m₁.starts o τs ≠ [] → (∀ s ∈ m₁.starts o τs, s.answer?.isSome) →
      (m₁.starts o τs).count .started = 1) ∧
    (∀ s ∈ m₁.starts o τs, s ≠ .started → ∀ r, s.answer? = some r →
      ∃ e : Err, r = .error e ∧ e.kind? = some .illegalState) ∧
    -- A call of `start()`, by selector or not, is one of the starts, and its task goes on with what that
    -- start returns.
    (∀ j r x args fs p, n.At j (Activation.code (.builtin r .threadStart) (some x) args).program fs →
      n.world.header x = o → n.take (.step j) = some p → p.At j (Op.start o finishUnit) fs) ∧
    (∀ j next fs p, n.At j (Op.start o next) fs → n.take (.step j) = some p →
      p.At j (Starting.reserving o next) fs) ∧
    (∀ j next fs p τs' q, n.At j (Starting.reserving o next) fs → n.take (.step j) = some p →
      Trace (fun _ _ => True) p τs' q → ∃ s,
        (m₁.starts o (τs ++ .step j :: τs'))[(m₁.starts o τs).length]? = some s ∧
        p.Comes j (Starting.prog o next s) fs τs') ∧
    (∀ r, (n.world.startedThreads r).count o ≤ 1) ∧
    (.started ∈ m₁.starts o τs → (n.world.startedThreads home).count o = 1) ∧
    (∀ r, ∀ x ∈ n.world.startedThreads r,
      ∃ t, n.world.thread? x = some t ∧ t.adopted = false ∧ t.started = true) ∧
    (m₁.record (deeds o) τs).count .enter ≤ 1 ∧
    (n.world.isTerminated o → (m₁.record (deeds o) τs).count .enter = 1) ∧
    (∀ j p, n.deed? (.step j) = some (o, .enter) → n.take (.step j) = some p →
      p.At j (dispatch (some home) (some self) Selector.run [] (afterRun o)) [.guard (Run.leaving o)]) ∧
    (m₁.record (deeds o) τs).count .close ≤ 1 ∧
    ∀ j k fs, n.At j (.perform (.endThread o) k) fs → ∃ v, n.world.endThread o = .ok v := by
  obtain ⟨stage, c, hg, hidle, hgn, hstartable, -, haccounts⟩ := accounts_trace hm hinit hstep hrun
  have hdeeds : m₁.record (deeds o) τs = (m₁.stages τs stage o).deeds := by
    have htrace := hg.deeds_trace hrun o
    rw [hidle] at htrace
    exact htrace
  have honce (d : Deed) : (m₁.record (deeds o) τs).count d ≤ 1 := by
    rw [hdeeds]
    exact List.nodup_iff_count_le_one.mp (Stage.nodup_deeds _) d
  refine ⟨hg.count_started_le hidle hrun, hg.count_started_eq hidle hrun,
    fun s _ hs r hr => Starting.Point.illegalState_of_answer hs hr,
    fun j r x args fs p hat hx hτ => hat.start_of_builtin hx hstartable hτ,
    fun j next fs p hat hτ => hat.reserving hstartable hτ,
    fun j next fs p τs' q hat hτ hrest => hat.listed hrun hτ hrest,
    hgn.kept.count_le, ?_, fun r x hx => hgn.kept.registered hx, honce .enter, ?_,
    fun j p hdeed hτ => haccounts.dispatches hgn hdeed hτ, honce .close,
    fun j k fs hat => hgn.endThread_ok hat⟩
  · -- A start that has succeeded has registered the thread.
    intro hstarted
    obtain ⟨j, henrolled⟩ := hg.shows_of_granted hrun hstarted rfl
    exact hgn.kept.count_eq haccounts.inHome henrolled
  · -- The stages at which a thread has terminated come after `run()` was entered.
    intro hterminated
    rw [hgn.kept.isTerminated_iff] at hterminated
    rw [hdeeds]
    exact Stage.count_enter_deeds hterminated

/-! ### Two tasks that start the same thread -/

/-- Makes a thread and starts it. -/
def startNew : Op Unit := do
  Op.start (← newThread (some 0) none)

/-- One task of the host makes a thread and starts it, and another one starts the same thread. -/
def racing : Machine where
  world := World.single (.default []) 2
  tasks := #[{ id := 0, prog := startNew.toProgUnit }, { id := 1, prog := (Op.start 0).toProgUnit }]

instance : Op.Lawful [.home (some 0)] startNew := by
  unfold startNew
  infer_instance

theorem initial_racing : racing.Initial := initial_launch

/-- The machine once the thread is there, and about to be initialised. -/
def initialising : Machine := racing.after (fun _ _ => true) [.step 0]

def initialised : Machine := initialising.after (fun _ _ => true) [.step 0]

/-- Both tasks look at the thread before one of them gets the reservation, and then it runs. -/
def race : List Turn :=
  [.step 1, .step 0, .step 0, .step 1, .step 0, .step 1] ++ List.replicate 2 (.step 0) ++
    List.replicate 13 (.step 2)

def raced : Machine := initialised.after (fun _ _ => true) race

theorem thread_starts_once_race : initialising.Reachable ∧ initialising.Initialises 0 0 0 0 ∧
    initialising.take (.step 0) = some initialised ∧
    Trace (fun _ _ => True) initialised race raced ∧ (initialised.starts 0 race).length = 2 ∧
    (initialised.starts 0 race).count .started = 1 ∧
    (raced.world.startedThreads 0).count 0 = 1 ∧ raced.world.isTerminated 0 ∧
    (initialised.record (deeds 0) race).count .enter = 1 := by
  have hfirst : Trace (fun _ _ => True) racing [.step 0] initialising :=
    follow_trace (fun _ => trivial) (follow_eq_after (by decide +kernel))
  have hreach : initialising.Reachable := initial_racing.reachable.run hfirst.run
  have hinit : initialising.Initialises 0 0 0 0 := ⟨_, _, _, _, _, ⟨_, rfl, rfl, rfl⟩, rfl, rfl, rfl⟩
  have hstep : initialising.take (.step 0) = some initialised := rfl
  have hrun : Trace (fun _ _ => True) initialised race raced :=
    follow_trace (fun _ => trivial) (follow_eq_after (by decide +kernel))
  have hlength : (initialised.starts 0 race).length = 2 := by decide +kernel
  have hanswered : ∀ s ∈ initialised.starts 0 race, s.answer?.isSome := by decide +kernel
  have hterminated : raced.world.isTerminated 0 := by decide +kernel
  have hne : initialised.starts 0 race ≠ [] := List.ne_nil_of_length_eq_add_one hlength
  obtain ⟨-, hall, -, -, -, -, -, hregistered, -, -, henter, -⟩ :=
    thread_starts_once hreach hinit hstep hrun
  have hcount := hall hne hanswered
  have hstarted : .started ∈ initialised.starts 0 race := by
    apply List.count_pos_iff.mp
    rw [hcount]
    exact Nat.zero_lt_one
  exact ⟨hreach, hinit, hstep, hrun, hlength, hcount, hregistered hstarted, hterminated,
    henter hterminated⟩

end Machine

end ObjectKernel
