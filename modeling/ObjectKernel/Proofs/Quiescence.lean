import ObjectKernel.Proofs.Lifecycle

/-!
# Quiescence behind the shutdown barrier

The barrier looks at the live threads in one step and waits for them one after the other, while those
threads start others. It is safe because a thread is registered before its own task exists, and by a task
that is still in the `run()` of a registered thread: once nobody but the caller lives, nobody is left to
register anybody.

## Contents

* `World.Quiet`, `Machine.Disciplined`: quiescence, and the runs in which it lasts (`quiet_take`).
* `Joining`: the points that the barrier passes. `Joins`: a machine in which a task is at one of them.
* `joinAll_quiescent`: what a barrier that returns has established.
-/

namespace ObjectKernel

open Op

/-! ## Quiescence lasts -/

/-- Every registered thread of a runtime but a given one has terminated. -/
def World.Quiet (w : World) (home : RuntimeId) (self : Option ObjId) : Prop :=
  ∀ x ∈ w.startedThreads home, some x ≠ self → w.isTerminated x

/-- The thread that the next step of a program registers. -/
def Prog.registers? : Prog → Option ObjId
  | .perform (.register o) _ => some o
  | _ => none

namespace Machine

/-- A turn in which threads of a runtime are started only from the `run()` of other registered threads
of that runtime than a given one. Of the steps of a start it is the registration that counts. -/
def Disciplined (home : RuntimeId) (self : Option ObjId) (m : Machine) (τ : Turn) : Prop :=
  ∀ t ∈ m.tasks[τ.task]?, ∀ o ∈ t.prog.registers?, (m.world.thread? o).bind Thread.home = some home →
    ∃ x ∈ t.running?, x ∈ m.world.startedThreads home ∧ some x ≠ self

instance (home : RuntimeId) (self : Option ObjId) (m : Machine) (τ : Turn) : Decidable (m.Disciplined home self τ) :=
  inferInstanceAs (Decidable (∀ t ∈ m.tasks[τ.task]?, ∀ o ∈ t.prog.registers?, _ = some home →
    ∃ x ∈ t.running?, x ∈ m.world.startedThreads home ∧ some x ≠ self))

variable {m n : Machine} {home : RuntimeId} {self : Option ObjId}

/-- **Quiescence lasts**: whoever could register another thread would have to live. -/
theorem quiet_take (hm : m.Reachable) {τ} (hd : m.Disciplined home self τ) (hτ : m.take τ = some n)
    (hq : m.world.Quiet home self) : n.world.Quiet home self := by
  intro x hx hself
  rcases hm.started_take hτ hx with hold | ⟨t, k, ht, hp, u, hu, hhome⟩
  · exact hm.terminated_take hτ (hq x hold hself)
  · have hreg : x ∈ t.prog.registers? := by
      rw [hp]
      rfl
    have hbind : (m.world.thread? x).bind Thread.home = some home := by
      rw [hu]
      exact hhome
    obtain ⟨y, hruns, hy, hyself⟩ := hd t ht x hreg hbind
    exact absurd (hq y hy hyself) (hm.not_terminated_of_register ht hp hruns)

theorem quiet_trace (hm : m.Reachable) {τs} (h : Trace (Disciplined home self) m τs n)
    (hq : m.world.Quiet home self) : n.world.Quiet home self := by
  induction h with
  | refl m => exact hq
  | cons meets move _ ih => exact ih (hm.take move) (quiet_take hm meets move hq)

end Machine

/-! ## The points of the barrier -/

namespace Joining

variable (home : RuntimeId) (self : Option ObjId) (bound : Option Expiry) {w : World}

/-- What a pass goes on with when the next one is over. -/
def again : Except Err Value → Prog
  | .ok _ => .finish (.value .null)
  | .error e => .finish (.error e)

/-- The barrier gives up because of a thread. -/
def interrupted (o : ObjId) (e : Err) : Prog :=
  .observe fun _ w => .finish (.error (.barrierInterrupted ((w.thread? o).getD {}).name e))

/-- What follows the wait for a thread. -/
def awaited (o : ObjId) (rest : Prog) : Bool → Prog
  | true => rest
  | false =>
    match bound with
    | some e => interrupted o (.expired e)
    | none => rest

/-- Waiting for threads in turn, and then another pass. -/
def passing : List ObjId → Prog
  | [] => .call (.joinAll home self bound) again
  | o :: rest => .observe fun _ w =>
    match ((w.thread? o).getD {}).joinable with
    | .ok _ => .await (.ended o) bound (awaited bound o (passing rest))
    | .error f => interrupted o (.fault f)

/-- The beginning of a pass. -/
def looking : Prog := .observe fun _ w =>
  if (w.pendingThreads home self).isEmpty then .finish (.value .null)
  else passing home self bound (w.pendingThreads home self)

theorem passing_eq (os : List ObjId) : (do
    joinPending bound os
    let _ ← call (.joinAll home self bound) : Op Unit) finishUnit = passing home self bound os := by
  induction os with
  | nil =>
    refine congrArg (Prog.call _) (funext fun r => ?_)
    cases r <;> rfl
  | cons o rest ih =>
    refine Prog.observe_congr fun _ w => ?_
    dsimp only
    cases ((w.thread? o).getD {}).joinable with
    | error f => rfl
    | ok a =>
      refine congrArg (Prog.await (.ended o) bound) (funext fun b => ?_)
      cases b with
      | true => exact ih
      | false =>
        cases bound with
        | none => exact ih
        | some e => rfl

/-- **The program of the barrier passes these points.** -/
theorem program_eq : (Activation.joinAll home self bound).program = looking home self bound := by
  refine (toProgUnit_eq _).trans (Prog.observe_congr fun _ w => ?_)
  dsimp only
  cases (w.pendingThreads home self).isEmpty with
  | true => rfl
  | false => exact passing_eq home self bound _

/-- Where a task in the barrier can stand in a world. The last points of a barrier that gives up need an
expired bound, the one of a barrier that succeeds needs quiescence. -/
inductive Point (w : World) (expired : Prop) : Prog → Prop where
  | looking : Point w expired (looking home self bound)
  | calling : Point w expired (passing home self bound [])
  | passing {o : ObjId} {os : List ObjId} (registered : ∀ x ∈ o :: os, x ∈ w.startedThreads home) :
      Point w expired (passing home self bound (o :: os))
  | awaiting (o : ObjId) {os : List ObjId} (registered : ∀ o ∈ os, o ∈ w.startedThreads home) :
      Point w expired (.await (.ended o) bound (awaited bound o (passing home self bound os)))
  | interrupted (o : ObjId) {e : Expiry} (bounded : bound = some e) (hx : expired) :
      Point w expired (interrupted o (.expired e))
  | failed (name : Bytes) {e : Expiry} (bounded : bound = some e) (hx : expired) :
      Point w expired (.finish (.error (.barrierInterrupted name (.expired e))))
  | done (quiet : w.Quiet home self) : Point w expired (.finish (.value .null))

variable {home self bound}

theorem mem_started_of_pending {o} (h : o ∈ w.pendingThreads home self) :
    o ∈ w.startedThreads home := (List.mem_filter.mp (List.mem_filter.mp h).1).1

theorem quiet_of_pending (h : (w.pendingThreads home self).isEmpty) : w.Quiet home self := by
  intro x hx hself
  have hnot : x ∉ w.pendingThreads home self := by
    rw [List.isEmpty_iff.mp h]
    exact List.not_mem_nil
  by_contra hlive
  refine hnot (List.mem_filter.mpr ⟨List.mem_filter.mpr ⟨hx, ?_⟩, decide_eq_true hself⟩)
  rw [Bool.not_eq_true] at hlive
  rw [hlive]
  rfl

end Joining

section

variable {home : RuntimeId} {self : Option ObjId} {bound : Option Expiry} {w v : World} {expired expired' : Prop}
  {p : Prog}

open Joining

theorem Joining.point_passing {os} (registered : ∀ o ∈ os, o ∈ w.startedThreads home) :
    Point home self bound w expired (passing home self bound os) := by
  cases os with
  | nil => exact .calling
  | cons o rest => exact .passing registered

theorem Joining.Point.mono (hx : expired → expired') (h : Point home self bound w expired p) :
    Point home self bound w expired' p := by
  cases h with
  | looking => exact .looking
  | calling => exact .calling
  | passing registered => exact .passing registered
  | awaiting o registered => exact .awaiting o registered
  | interrupted o bounded h => exact .interrupted o bounded (hx h)
  | failed name bounded h => exact .failed name bounded (hx h)
  | done quiet => exact .done quiet

/-- Others may go on as long as registered threads stay registered and quiescence lasts. -/
theorem Joining.Point.later (hreg : ∀ o ∈ w.startedThreads home, o ∈ v.startedThreads home)
    (hq : w.Quiet home self → v.Quiet home self) (h : Point home self bound w expired p) :
    Point home self bound v expired p := by
  cases h with
  | looking => exact .looking
  | calling => exact .calling
  | passing registered => exact .passing fun o ho => hreg o (registered o ho)
  | awaiting o registered => exact .awaiting o fun o ho => hreg o (registered o ho)
  | interrupted o bounded h => exact .interrupted o bounded h
  | failed name bounded h => exact .failed name bounded h
  | done quiet => exact .done (hq quiet)

/-- A turn of the barrier leads from point to point, as long as registered threads can be joined. Above
the frames of its caller are only those of earlier passes. -/
theorem Joining.Point.goes {id e q gs fs fs'} (hp : Point home self bound w expired p)
    (hgs : ∀ g ∈ gs, g = .caller again)
    (hjoin : ∀ o ∈ w.startedThreads home, ∃ t, w.thread? o = some t ∧ t.joinable = .ok ())
    (hnot : gs = [] → ∀ out, p ≠ .finish out) (hgo : Goes id w e p (gs ++ fs) v q fs') :
    v = w ∧ ∃ gs', fs' = gs' ++ fs ∧ (∀ g ∈ gs', g = .caller again) ∧
      Point home self bound w (expired ∨ e = true) q := by
  cases hp with
  | looking =>
    cases hgo
    refine ⟨rfl, gs, rfl, hgs, ?_⟩
    dsimp only
    split
    · exact .done (quiet_of_pending ‹_›)
    · exact point_passing fun o => mem_started_of_pending
  | calling =>
    cases hgo
    refine ⟨rfl, .caller again :: gs, rfl, List.forall_mem_cons.mpr ⟨rfl, hgs⟩, ?_⟩
    rw [program_eq]
    exact .looking
  | @passing o rest registered =>
    cases hgo
    refine ⟨rfl, gs, rfl, hgs, ?_⟩
    obtain ⟨t, ht, hok⟩ := hjoin o (registered o List.mem_cons_self)
    dsimp only
    rw [ht, Option.getD_some, hok]
    exact .awaiting o fun x hx => registered x (List.mem_cons_of_mem o hx)
  | awaiting o registered =>
    cases hgo with
    | await => exact ⟨rfl, gs, rfl, hgs, point_passing registered⟩
    | expire => exact ⟨rfl, gs, rfl, hgs, .interrupted o rfl (.inr rfl)⟩
  | interrupted o bounded hx =>
    cases hgo
    exact ⟨rfl, gs, rfl, hgs, .failed _ bounded (.inl hx)⟩
  | failed name bounded hx =>
    cases gs with
    | nil => exact absurd rfl (hnot rfl _)
    | cons g gs =>
      obtain ⟨rfl, hrest⟩ := List.forall_mem_cons.mp hgs
      cases hgo
      exact ⟨rfl, gs, rfl, hrest, .failed name bounded (.inl hx)⟩
  | done quiet =>
    cases gs with
    | nil => exact absurd rfl (hnot rfl _)
    | cons g gs =>
      obtain ⟨rfl, hrest⟩ := List.forall_mem_cons.mp hgs
      cases hgo
      exact ⟨rfl, gs, rfl, hrest, .done quiet⟩

end

namespace Machine

variable {m n : Machine} {home : RuntimeId} {self : Option ObjId} {bound : Option Expiry} {i : Nat}
  {fs : List Frame} {expired : Prop} {τ : Turn}

/-- A task is in a barrier that was called with given frames. -/
def Joins (home : RuntimeId) (self : Option ObjId) (bound : Option Expiry) (i : Nat)
    (fs : List Frame) (expired : Prop) (m : Machine) : Prop :=
  ∃ p gs, m.At i p (gs ++ fs) ∧ (∀ g ∈ gs, g = .caller Joining.again) ∧
    Joining.Point home self bound m.world expired p

/-- A turn keeps a task in its barrier until that returns. -/
theorem Joins.take (hm : m.Reachable) (hd : m.Disciplined home self τ) (hu : m.Unreturned i fs τ)
    (hτ : m.take τ = some n) (h : m.Joins home self bound i fs expired) :
    n.Joins home self bound i fs (expired ∨ τ = .expire i) := by
  obtain ⟨p, gs, ⟨t, ht, rfl, hf⟩, hgs, hp⟩ := h
  by_cases hi : τ.task = i
  · subst hi
    obtain ⟨t', ht', hcases⟩ := take_cases hτ
    cases ht.symm.trans ht'
    rcases hcases with ⟨v, q, fs', hgo, rfl⟩ | ⟨o, k, -, hspawn, rfl⟩
    · rw [hf] at hgo
      have hnot : gs = [] → ∀ out, t.prog ≠ .finish out := fun hnil out hfin =>
        hu rfl out ⟨t, ht, hfin, by rw [hf, hnil, List.nil_append]⟩
      obtain ⟨rfl, gs', rfl, hgs', hq⟩ := hp.goes hgs (fun o => hm.joinable) hnot hgo
      refine ⟨q, gs', ⟨_, task_put_self ht .., rfl, rfl⟩, hgs', hq.mono (Or.imp_right fun he => ?_)⟩
      cases τ with
      | step j => cases he
      | expire j => rfl
    · rw [hspawn] at hp
      cases hp
  · have hpoint := hp.later (v := n.world) (fun o => hm.started_mono hτ) (quiet_take hm hd hτ)
    exact ⟨t.prog, gs, ⟨t, task_of_ne hτ hi ht, rfl, hf⟩, hgs, hpoint.mono .inl⟩

theorem Joins.mono {expired' : Prop} (hx : expired → expired') (h : m.Joins home self bound i fs expired) :
    m.Joins home self bound i fs expired' := by
  obtain ⟨p, gs, hat, hgs, hp⟩ := h
  exact ⟨p, gs, hat, hgs, hp.mono hx⟩

theorem Joins.trace (hm : m.Reachable) {τs}
    (h : Trace (fun m τ => m.Disciplined home self τ ∧ m.Unreturned i fs τ) m τs n)
    (hj : m.Joins home self bound i fs expired) : n.Joins home self bound i fs (expired ∨ .expire i ∈ τs) := by
  induction h generalizing expired with
  | refl m => exact hj.mono .inl
  | cons meets move _ ih =>
    refine (ih (hm.take move) (hj.take hm meets.1 meets.2 move)).mono ?_
    rintro ((hx | rfl) | hx)
    · exact .inl hx
    · exact .inr List.mem_cons_self
    · exact .inr (List.mem_cons_of_mem _ hx)

/-- **A shutdown barrier that succeeds has established quiescence for good, and one that fails has reached
its bound.** A task of a machine that can be reached calls the barrier, and other tasks run meanwhile in
any order, where threads of the runtime are started only from the `run()` of registered ones other than
the caller's. When the call returns with a value, every registered thread but the caller's has terminated,
at that moment and in whatever comes later. When it returns with an error, a wait of its has ended before
its time. It does not panic. -/
theorem joinAll_quiescent (hm : m.Reachable)
    (hcall : m.At i (Activation.joinAll home self bound).program fs) {τs : List Turn}
    (hrun : Trace (fun m τ => m.Disciplined home self τ ∧ m.Unreturned i fs τ) m τs n) {out : Outcome}
    (hreturn : n.At i (.finish out) fs) :
    match out with
    | .value _ => ∀ τs' n', Trace (Disciplined home self) n τs' n' →
        ∀ x ∈ n'.world.startedThreads home, some x ≠ self → n'.world.isTerminated x
    | .error e => ∃ name expiry, bound = some expiry ∧
        e = .barrierInterrupted name (.expired expiry) ∧ .expire i ∈ τs
    | .panic _ => False := by
  have hstart : m.Joins home self bound i fs False :=
    ⟨_, [], hcall, fun _ h => (nomatch h), Joining.program_eq home self bound ▸ .looking⟩
  obtain ⟨p, gs, hat, -, hp⟩ := hstart.trace hm hrun
  obtain ⟨rfl, -⟩ := at_unique hat hreturn
  cases hp with
  | done quiet => exact fun _ _ h => quiet_trace (hm.run hrun.run) h quiet
  | failed name bounded hx => exact ⟨name, _, bounded, rfl, hx.resolve_left id⟩

/-! ### A thread that is started while the barrier waits -/

/-- Starts a thread whose `run()` starts another one. -/
def startNested : Op Unit := do
  let child ← newThread (some 0) none
  perform (.edit (.assign none [0] (.ofObject child)))
  let work ← newRunnable (some 0) (some (.script 0 [.action (.thread none (.start (some [0]))) {}]))
  Op.start (← newThread (some 0) (some work))

/-- One task of the host starts threads, and another one is at the beginning of a barrier. -/
def nested : Machine where
  world := World.single (.default []) 2
  tasks := #[{ id := 0, prog := startNested.toProgUnit },
    { id := 1, prog := (Activation.joinAll 0 none none).program }]

theorem initial_nested : nested.Initial := by
  have hlaw : Lawful [.home (some 0)] startNested := by
    unfold startNested
    infer_instance
  refine initial_single ?_
  rintro t (_ | ⟨_, _ | ⟨_, ⟨⟩⟩⟩)
  · exact ⟨rfl, lawful_toProgUnit hlaw (World.fresh_single ..).sound (World.assumes_single _ _)⟩
  · exact ⟨rfl, lawful_activation (a := .joinAll 0 none none) (World.fresh_single ..).sound trivial⟩

/-- A check that a turn is disciplined and comes before the return of a task without frames. -/
def permits (home : RuntimeId) (self : Option ObjId) (i : Nat) (m : Machine) (τ : Turn) : Bool :=
  decide (m.Disciplined home self τ) && decide (m.outcome? i = none)

theorem of_permits (h : m.permits home self i τ) : m.Disciplined home self τ ∧ m.Unreturned i [] τ := by
  obtain ⟨hd, ho⟩ := Bool.and_eq_true_iff.mp h
  refine ⟨of_decide_eq_true hd, fun _ out hat => ?_⟩
  cases (of_decide_eq_true ho).symm.trans (outcome?_eq_some.mpr hat)

/-- The machine once both threads are made and the first one is started. -/
def calling : Machine := nested.after (fun _ _ => true) (List.replicate 11 (.step 0))

/-- The barrier waits for the first thread, which starts the second one and ends; it looks again, waits
for the second one, and returns. -/
def during : List Turn :=
  List.replicate 2 (.step 1) ++ List.replicate 28 (.step 2) ++ List.replicate 4 (.step 1) ++
    List.replicate 13 (.step 3) ++ List.replicate 5 (.step 1)

def returned : Machine := calling.after (permits 0 none 1) during

theorem joinAll_quiescent_nested : calling.Reachable ∧
    calling.At 1 (Activation.joinAll 0 none none).program [] ∧
    Trace (fun m τ => m.Disciplined 0 none τ ∧ m.Unreturned 1 [] τ) calling during returned ∧
    returned.At 1 (.finish (.value .null)) [] ∧
    calling.world.startedThreads 0 = [2] ∧ returned.world.startedThreads 0 = [2, 0] ∧
    ∀ x ∈ returned.world.startedThreads 0, some x ≠ none → returned.world.isTerminated x := by
  have hfirst : Trace (fun _ _ => True) nested _ calling :=
    follow_trace (fun _ => trivial) (follow_eq_after (by decide +kernel))
  have hreach : calling.Reachable := initial_nested.reachable.run hfirst.run
  have hat : calling.At 1 (Activation.joinAll 0 none none).program [] := ⟨_, rfl, rfl, rfl⟩
  have hrun : Trace (fun m τ => m.Disciplined 0 none τ ∧ m.Unreturned 1 [] τ) calling during returned :=
    follow_trace of_permits (follow_eq_after (by decide +kernel))
  have hreturn : returned.At 1 (.finish (.value .null)) [] := outcome?_eq_some.mp (by decide +kernel)
  exact ⟨hreach, hat, hrun, hreturn, by decide +kernel, by decide +kernel,
    joinAll_quiescent hreach hat hrun hreturn [] returned (.refl _)⟩

end Machine

end ObjectKernel
