import Mathlib.Algebra.Group.Nat.Defs
import Mathlib.Data.List.Forall2
import ObjectKernel.Proofs.BarrierCounts
import ObjectKernel.Proofs.BarrierCourse

/-!
# The accounts of a barrier

Whatever comes of a call of the shutdown barrier, it is counted once, and if a place for reports is
configured then a report is taken and written there. What the call returns tells both failures apart.

## Contents

* `Machine.InBarrier`: a task in a barrier. `Passes.interrupted`, `Passes.counted`, `Passes.counting`,
  `Passes.concluded`: what a call of the barrier does.
* `Machine.Reports`: taking and writing a report. `Machine.barrier_run`: a call from its beginning to its
  return.
* `BarrierCall`, `Machine.Barriers`: calls one after another. `Machine.barriers_accounted`.
-/

namespace ObjectKernel

open Barrier

variable {w : World} {k : Nat} {home : RuntimeId}

/-! ## A task in a barrier -/

/-- How many runs a barrier is still to count. -/
def Barrier.Point.owed : Point → Int32
  | .choosing _ | .reporting .. | .writing .. | .returned _ => 0
  | _ => 1

/-- Whether a barrier has not finished waiting. -/
def Barrier.Point.isEarly : Point → Bool
  | .counting _ | .choosing _ | .reporting .. | .writing .. | .returned _ => false
  | _ => true

theorem Barrier.Point.early_next {bound : Option Expiry} {id : TaskId} {s : Point} (h : s.isEarly) (w : World)
    (expired : Bool) : ((course home bound id).next w expired s).isEarly ∨
      ∃ r, (course home bound id).next w expired s = .counting r := by
  cases s with
  | entering | asking | calling | failing => exact .inl rfl
  | looking self depth =>
    left
    dsimp only [course]
    split <;> rfl
  | passing self depth os =>
    left
    cases os with
    | nil => rfl
    | cons o os =>
      dsimp only [course]
      split <;> rfl
  | awaiting self depth o os =>
    left
    dsimp only [course]
    split <;> rfl
  | joined self depth r =>
    cases depth with
    | zero => exact .inr ⟨r, rfl⟩
    | succ => exact .inl rfl
  | counting | choosing | reporting | writing | returned => cases h

namespace Machine

/-- A task is in a barrier at a point of its course. -/
structure InBarrier (home : RuntimeId) (bound : Option Expiry) (id : TaskId)
    (next : Except Err Unit → Prog) (i : Nat) (fs : List Frame) (s : Point) (m : Machine) : Prop where
  stands : m.tasks[i]? = some ⟨id, prog home bound id next s, above home next s ++ fs⟩
  proper : s.Proper bound (m.world.startedThreads home)

variable {m n p : Machine} {home : RuntimeId} {bound : Option Expiry} {id : TaskId} {next : Except Err Unit → Prog}
  {i : Nat} {fs : List Frame} {s t : Point} {τs τs' : List Turn} {P : Machine → Turn → Prop} {τ : Turn}
  {path : Bytes} {r joined : Except Err Unit}

/-- A turn keeps a task in its barrier, and interrupts it just if it ends a wait of the task before its
time. -/
theorem InBarrier.take (hm : m.Reachable) (h : m.InBarrier home bound id next i fs s)
    (going : (Barrier.course home bound id).isOver s = false) (hτ : m.take τ = some n) :
    n.InBarrier home bound id next i fs (m.courseStep (Barrier.course home bound id) i τ s) ∧
      ((m.courseStep (Barrier.course home bound id) i τ s).Interrupted ↔ s.Interrupted ∨ τ = .expire i) := by
  have hmono : ∀ o ∈ m.world.startedThreads home, o ∈ n.world.startedThreads home :=
    fun o => hm.started_mono hτ
  by_cases hi : τ.task = i
  · subst hi
    rw [courseStep_self going]
    obtain ⟨hgo, hat⟩ := guided_take (guides home bound id next) going h.stands hτ
    obtain ⟨hproper, hinterrupted⟩ := h.proper.next (fun o => hm.joinable) going hgo
    refine ⟨⟨hat, hproper.mono hmono⟩, hinterrupted.trans (or_congr_right ?_)⟩
    cases τ <;> simp [Turn.isExpiry, Turn.task]
  · rw [courseStep_of_ne hi]
    refine ⟨⟨task_of_ne hτ hi h.stands, h.proper.mono hmono⟩, ?_⟩
    have hne : τ ≠ .expire i := by
      rintro rfl
      exact hi rfl
    simp [hne]

/-- **A barrier is interrupted just if a wait of its task ends before its time.** -/
theorem Passes.interrupted (hm : m.Reachable)
    (h : Passes (Barrier.course home bound id) i P s m τs t n) (hin : m.InBarrier home bound id next i fs s) :
    t.Interrupted ↔ s.Interrupted ∨ .expire i ∈ τs := by
  induction h with
  | finished => simp
  | @cons s t m n p τ τs going _ move _ ih =>
    obtain ⟨hnext, hinterrupted⟩ := hin.take hm going move
    rw [ih (hm.take move) hnext, hinterrupted, or_assoc, List.mem_cons, eq_comm]

theorem InBarrier.counts (h : m.InBarrier home bound id next i fs s) (hi : τ.task = i) (hcounts : m.Counts home τ) :
    (∃ r, s = .counting r) ∨ (Barrier.course home bound id).isOver s := by
  subst hi
  obtain ⟨k, gs, hat⟩ := hcounts
  obtain ⟨hprog, -⟩ := at_unique ⟨_, h.stands, rfl, rfl⟩ hat
  cases s with
  | counting r => exact .inl ⟨r, rfl⟩
  | returned => exact .inr rfl
  | passing self depth os => cases os <;> cases hprog
  | joined self depth r => cases r <;> cases hprog
  | entering | asking | calling | looking | awaiting | failing | choosing | reporting | writing =>
    cases hprog

theorem owed_next (hs : ∀ r, s ≠ .counting r) (w : World) (expired : Bool) :
    ((Barrier.course home bound id).next w expired s).owed = s.owed := by
  cases s with
  | counting r => exact absurd rfl (hs r)
  | entering | asking | calling | failing | reporting | writing | returned => rfl
  | looking | awaiting | choosing =>
    dsimp only [Barrier.course]
    split <;> rfl
  | passing self depth os =>
    cases os with
    | nil => rfl
    | cons =>
      dsimp only [Barrier.course]
      split <;> rfl
  | joined self depth r => cases depth <;> rfl

/-- **A barrier is counted once**, if nobody else counts one meanwhile. -/
theorem Passes.counted (hm : m.Reachable) (hothers : ∀ {m τ}, P m τ → τ.task ≠ i → ¬ m.Counts home τ)
    (h : Passes (Barrier.course home bound id) i P s m τs t n) (hin : m.InBarrier home bound id next i fs s) {k}
    (hk : m.world.Counted home k) : n.world.Counted home (k + s.owed) := by
  induction h generalizing k with
  | @finished s m hover =>
    cases s with
    | returned =>
      simpa [Point.owed] using hk
    | _ => cases hover
  | @cons s t m n p τ τs going meets move _ ih =>
    obtain ⟨hnext, -⟩ := hin.take hm going move
    by_cases hi : τ.task = i
    · rw [← hi, courseStep_self going] at hnext ih
      by_cases hs : ∃ r, s = .counting r
      · -- The turn that counts: nothing is owed any more.
        obtain ⟨r, rfl⟩ := hs
        subst hi
        obtain ⟨hgo, -⟩ := guided_take (guides home bound id next) going hin.stands move
        have hworld : n.world = m.world.countBarrier home := hgo.performs.2
        have hcounted := ih (hm.take move) hnext (hworld ▸ hk.countBarrier)
        simpa [Barrier.course, Point.owed] using hcounted
      · have hnot : ¬ m.Counts home τ := by
          intro hcounts
          rcases hin.counts hi hcounts with hr | hover
          · exact hs hr
          · rw [going] at hover
            cases hover
        have hcounted := ih (hm.take move) hnext (counted_take move hnot hk)
        rwa [owed_next (fun r hr => hs ⟨r, hr⟩)] at hcounted
    · rw [courseStep_of_ne hi] at hnext ih
      exact ih (hm.take move) hnext (counted_take move (hothers meets hi) hk)

/-- A barrier finishes waiting and is about to be counted. -/
theorem Passes.counting (hm : m.Reachable) (h : Passes (Barrier.course home bound id) i P s m τs t n)
    (hearly : s.isEarly) (hin : m.InBarrier home bound id next i fs s) :
    ∃ τs₁ τs₂ q joined, τs = τs₁ ++ τs₂ ∧ Trace P m τs₁ q ∧
      q.InBarrier home bound id next i fs (.counting joined) ∧
      Passes (Barrier.course home bound id) i P (.counting joined) q τs₂ t n := by
  induction h with
  | @finished s m hover =>
    cases s with
    | returned => cases hearly
    | _ => cases hover
  | @cons s t m n p τ τs going meets move rest ih =>
    obtain ⟨hnext, -⟩ := hin.take hm going move
    by_cases hi : τ.task = i
    · rw [← hi, courseStep_self going] at hnext ih rest
      rcases Point.early_next hearly m.world τ.isExpiry with hagain | ⟨r, hr⟩
      · obtain ⟨τs₁, τs₂, q, joined, rfl, htrace, hrest⟩ := ih (hm.take move) hagain (hi ▸ hnext)
        exact ⟨τ :: τs₁, τs₂, q, joined, rfl, .cons meets move htrace, hi ▸ hrest⟩
      · rw [hr] at hnext rest
        exact ⟨[τ], τs, n, r, rfl, .cons meets move (.refl n), hi ▸ hnext, hi ▸ rest⟩
    · rw [courseStep_of_ne hi] at hnext ih
      obtain ⟨τs₁, τs₂, q, joined, rfl, htrace, hrest⟩ := ih (hm.take move) hearly hnext
      exact ⟨τ :: τs₁, τs₂, q, joined, rfl, .cons meets move htrace, hrest⟩

/-! ## Reports -/

/-- A task takes a report on a runtime in the course of a run, in a world `taken`, and with the last turn of
the run, in a world `written`, it writes that report to a place, or tries to. -/
def Reports (home : RuntimeId) (path : Bytes) (i : Nat) (fs : List Frame) (m : Machine) (τs : List Turn)
    (n : Machine) (taken written : World) : Prop :=
  ∃ τs₁ τs₂ p p' q k k', τs = τs₁ ++ .step i :: (τs₂ ++ [.step i]) ∧
    Trace (fun _ _ => True) m τs₁ p ∧ p.world = taken ∧ p.At i (.perform (.takeReport home) k) fs ∧
    p.take (.step i) = some p' ∧ Trace (fun _ _ => True) p' τs₂ q ∧ q.world = written ∧
    q.At i (.perform (.writeFile path (taken.takeReport home).1.encode) k') fs ∧
    q.take (.step i) = some n

theorem Reports.prepend {taken written} (hfirst : Trace P m τs' p) (h : Reports home path i fs p τs n taken written) :
    Reports home path i fs m (τs' ++ τs) n taken written := by
  obtain ⟨τs₁, τs₂, q, q', u, k, k', rfl, hbefore, hrest⟩ := h
  refine ⟨τs' ++ τs₁, τs₂, q, q', u, k, k', ?_, (hfirst.imp fun _ => trivial).append hbefore, hrest⟩
  rw [List.append_assoc]

/-- How a barrier ends that has finished waiting: it returns what came of that, or it reports first and
returns what came of both. If nobody else counts a run then the report is taken with the count that the
barrier leaves. -/
inductive Concludes (home : RuntimeId) (path : Bytes) (P : Machine → Turn → Prop) (i : Nat)
    (fs : List Frame) (m : Machine) (τs : List Turn) (n : Machine) (joined : Except Err Unit) :
    Except Err Unit → Prop where
  | unreported (nowhere : path = []) : Concludes home path P i fs m τs n joined joined
  | reported {taken written : World} (somewhere : path ≠ [])
      (reports : Reports home path i fs m τs n taken written) (has : taken.Has home)
      (counted : (∀ {m τ}, P m τ → τ.task ≠ i → ¬ m.Counts home τ) →
        ∀ {k}, n.world.Counted home k → taken.Counted home k)
      (after : n.world =
        (written.attempt (written.writeFile path (taken.takeReport home).1.encode)).2) :
      Concludes home path P i fs m τs n joined (combine joined
        (writing path (written.attempt (written.writeFile path (taken.takeReport home).1.encode)).1))

theorem Concludes.prepend (hfirst : Trace P m τs' p) (h : Concludes home path P i fs p τs n joined r) :
    Concludes home path P i fs m (τs' ++ τs) n joined r := by
  cases h with
  | unreported nowhere => exact .unreported nowhere
  | reported somewhere reports has counted after =>
    exact .reported somewhere (reports.prepend hfirst) has counted after

theorem Concludes.eq_joined (hpath : path = []) (h : Concludes home path P i fs m τs n joined r) : r = joined := by
  cases h with
  | unreported => rfl
  | reported somewhere => exact absurd hpath somewhere

/-- What a barrier returns that is to report: success if both the waiting and the writing succeed. -/
theorem Concludes.reports (hpath : path ≠ []) (h : Concludes home path P i fs m τs n joined r) :
    ∃ taken written, Reports home path i fs m τs n taken written ∧ taken.Has home ∧
      ((∀ {m τ}, P m τ → τ.task ≠ i → ¬ m.Counts home τ) →
        ∀ {k}, n.world.Counted home k → taken.Counted home k) ∧
      n.world = (written.attempt (written.writeFile path (taken.takeReport home).1.encode)).2 ∧
      (r = .ok () ↔ joined = .ok () ∧
        ∃ files, written.files.write path (taken.takeReport home).1.encode = .ok files) := by
  cases h with
  | unreported nowhere => exact absurd nowhere hpath
  | @reported taken written somewhere reports has counted after =>
    refine ⟨taken, written, reports, has, counted, after, ?_⟩
    rw [combine_eq_ok, writing_eq_ok]
    refine and_congr_right fun _ => ?_
    unfold World.writeFile
    cases written.files.write path (taken.takeReport home).1.encode with
    | error e => exact ⟨nofun, nofun⟩
    | ok files => exact ⟨fun _ => ⟨files, rfl⟩, fun _ => rfl⟩

/-- What a barrier does with a report that it has taken. -/
theorem Passes.written {report}
    (h : Passes (Barrier.course home bound id) i P (.writing joined path report) m τs (.returned r) n)
    (hat : m.tasks[i]? = some ⟨id, writer next joined path report, fs⟩) :
    ∃ τs₁ q, τs = τs₁ ++ [.step i] ∧ Trace (fun m τ => P m τ ∧ τ.task ≠ i) m τs₁ q ∧
      q.At i (writer next joined path report) fs ∧ q.take (.step i) = some n ∧
      n.world = (q.world.attempt (q.world.writeFile path report.encode)).2 ∧
      r = combine joined (writing path (q.world.attempt (q.world.writeFile path report.encode)).1) ∧
      n.At i (next r) fs := by
  obtain ⟨τs₁, τ, τs₂, q, q', rfl, hothers, -, rfl, hτ, hat', hgo, hnext, hrest⟩ :=
    h.guided (guides home bound id next) rfl hat
  obtain ⟨rfl, hr, rfl⟩ := hrest.of_over rfl
  obtain ⟨hstep, hworld⟩ := hgo.performs
  cases hr
  rw [hstep] at hτ ⊢
  exact ⟨τs₁, q, rfl, hothers, ⟨_, hat', rfl, rfl⟩, hτ, hworld, rfl, _, hnext, rfl, rfl⟩

/-- A turn of a task that performs another instruction counts no run. -/
theorem not_counts {instr : Instr} {k} (hat : m.At τ.task (.perform instr k) fs) (hne : instr ≠ .countBarrier home) :
    ¬ m.Counts home τ := by
  rintro ⟨k', gs, hcounts⟩
  obtain ⟨hprog, -⟩ := at_unique hat hcounts
  cases hprog
  exact hne rfl

/-- **A barrier that is to report takes a report and writes it**, or tries to, in its last turn. -/
theorem Passes.reported (hpath : path ≠ [])
    (h : Passes (Barrier.course home bound id) i P (.reporting joined path) m τs (.returned r) n) (hm : m.Reachable)
    (hhas : m.world.Has home) (hat : m.tasks[i]? = some ⟨id, reporter home next joined path, fs⟩) :
    n.At i (next r) fs ∧ Concludes home path P i fs m τs n joined r := by
  obtain ⟨τs₁, τ, τs₂, q, q', rfl, hothers, -, rfl, hτ, hat', hgo, hnext, hrest⟩ :=
    h.guided (guides home bound id next) rfl hat
  obtain ⟨hstep, -⟩ := hgo.performs
  obtain ⟨τs₃, u, rfl, hthen, hwrites, hlast, hworld, rfl, hend⟩ := hrest.written hnext
  have htakes : q.At τ.task (.perform (.takeReport home) (writer next joined path)) fs :=
    ⟨_, hat', rfl, rfl⟩
  have htaken : q.world.Has home := hhas.later (hm.le hothers.run)
  rw [hstep] at hτ ⊢
  refine ⟨hend, .reported hpath ⟨τs₁, τs₃, q, q', u, _, _, rfl, hothers.imp fun _ => trivial, rfl, htakes,
    hτ, hthen.imp fun _ => trivial, rfl, hwrites, hlast⟩ htaken (fun hsole k hk => ?_) hworld⟩
  -- Nobody counts a run from the taking of the report to its writing.
  have htrace : Trace (fun m τ => ¬ m.Counts home τ) q (.step τ.task :: (τs₃ ++ [.step τ.task])) n := by
    refine .cons (not_counts (τ := .step τ.task) htakes nofun) hτ ?_
    refine (hthen.imp fun hturn => hsole hturn.1 hturn.2).append ?_
    exact .cons (not_counts (τ := .step τ.task) hwrites nofun) hlast (.refl n)
  exact (counted_trace htrace htaken).mp hk

/-- A barrier looks where a report is to go, and reports there if it is to go anywhere. -/
theorem Passes.chosen (h : Passes (Barrier.course home bound id) i P (.choosing joined) m τs (.returned r) n)
    (hm : m.Reachable) (hhas : m.world.Has home) (hat : m.tasks[i]? = some ⟨id, chooser home next joined, fs⟩) :
    n.At i (next r) fs ∧ Concludes home (m.world.config home).reportPath P i fs m τs n joined r := by
  obtain ⟨τs₁, τ, τs₂, q, q', rfl, hothers, hmeets, -, hτ, -, -, hnext, hrest⟩ :=
    h.guided (guides home bound id next) rfl hat
  have hfirst : Trace P m (τs₁ ++ [τ]) q' := (hothers.imp And.left).append (.cons hmeets hτ (.refl q'))
  have hconfig : q.world.config home = m.world.config home :=
    World.config_later (hm.le hothers.run) hhas
  by_cases hpath : (m.world.config home).reportPath = []
  · have hpoint : (Barrier.course home bound id).next q.world τ.isExpiry (.choosing joined) =
        .returned joined := by
      dsimp only [Barrier.course]
      rw [hconfig, if_pos hpath]
    rw [hpoint] at hnext hrest
    obtain ⟨rfl, hr, rfl⟩ := hrest.of_over rfl
    cases hr
    exact ⟨⟨_, hnext, rfl, rfl⟩, .unreported hpath⟩
  · have hpoint : (Barrier.course home bound id).next q.world τ.isExpiry (.choosing joined) =
        .reporting joined (m.world.config home).reportPath := by
      dsimp only [Barrier.course]
      rw [hconfig, if_neg hpath]
    rw [hpoint] at hnext hrest
    obtain ⟨hend, hconcludes⟩ :=
      hrest.reported hpath (hm.run hfirst.run) (hhas.later (hm.le hfirst.run)) hnext
    refine ⟨hend, ?_⟩
    have hwhole := hconcludes.prepend hfirst
    rwa [List.append_assoc] at hwhole

/-- A barrier that has finished waiting is counted, and then it concludes. -/
theorem Passes.concluded (h : Passes (Barrier.course home bound id) i P (.counting joined) m τs (.returned r) n)
    (hm : m.Reachable) (hhas : m.world.Has home) (hat : m.tasks[i]? = some ⟨id, counter home next joined, fs⟩) :
    n.At i (next r) fs ∧ Concludes home (m.world.config home).reportPath P i fs m τs n joined r := by
  obtain ⟨τs₁, τ, τs₂, q, q', rfl, hothers, hmeets, -, hτ, -, -, hnext, hrest⟩ :=
    h.guided (guides home bound id next) rfl hat
  have hfirst : Trace P m (τs₁ ++ [τ]) q' := (hothers.imp And.left).append (.cons hmeets hτ (.refl q'))
  obtain ⟨hend, hconcludes⟩ :=
    hrest.chosen (hm.run hfirst.run) (hhas.later (hm.le hfirst.run)) hnext
  rw [World.config_later (hm.le hfirst.run) hhas] at hconcludes
  refine ⟨hend, ?_⟩
  have hwhole := hconcludes.prepend hfirst
  rwa [List.append_assoc] at hwhole

/-- **What a call of the barrier does, from its beginning to its return.** -/
theorem barrier_run (hm : m.Reachable) (hhas : m.world.Has home)
    (hcall : m.tasks[i]? = some ⟨id, Op.barrierBounded home bound next, fs⟩)
    (h : Passes (Barrier.course home bound id) i P .entering m τs (.returned r) n) :
    n.At i (next r) fs ∧ (∀ e, Wraps e r ↔ bound = some e ∧ .expire i ∈ τs) ∧
      ∃ joined, (joined = .ok () ↔ .expire i ∉ τs) ∧
        Concludes home (m.world.config home).reportPath P i fs m τs n joined r := by
  rw [barrierBounded_eq home bound id next] at hcall
  have hin : m.InBarrier home bound id next i fs .entering := ⟨hcall, trivial⟩
  have hinterrupted : (∃ e, Wraps e r) ↔ .expire i ∈ τs :=
    (h.interrupted hm hin).trans (or_iff_right not_false)
  obtain ⟨τs₁, τs₂, q, joined, rfl, htrace, hin', hrest⟩ := h.counting hm rfl hin
  obtain ⟨hend, hconcludes⟩ :=
    hrest.concluded (hm.run htrace.run) (hhas.later (hm.le htrace.run)) hin'.stands
  rw [World.config_later (hm.le htrace.run) hhas] at hconcludes
  have hwaited : Waited bound joined := hin'.proper
  have hwraps (e : Expiry) : Wraps e r ↔ Wraps e joined := by
    cases hconcludes with
    | unreported => exact Iff.rfl
    | reported => exact hwaited.wraps_combine ..
  have hjoined : joined ≠ .ok () ↔ .expire i ∈ τs₁ ++ τs₂ := by
    rw [← hinterrupted, ← hwaited.wraps_any]
    exact (exists_congr hwraps).symm
  refine ⟨hend, fun e => ?_, joined, ?_, hconcludes.prepend htrace⟩
  · rw [hwraps, hwaited.wraps_iff, hjoined, and_comm]
  · rw [← hjoined, ne_eq, not_not]

end Machine

/-! ## Calls one after another -/

/-- A call of a barrier: the task that makes it, what that goes on with, and the run from its beginning to
its return. -/
structure BarrierCall where
  task : Nat
  id : TaskId
  bound : Option Expiry
  next : Except Err Unit → Prog
  frames : List Frame
  before : Machine
  turns : List Turn
  result : Except Err Unit
  after : Machine

/-- A task calls the barrier of a runtime, and it returns. Nobody else counts a run of it meanwhile. -/
structure BarrierCall.Made (home : RuntimeId) (c : BarrierCall) : Prop where
  calls : c.before.tasks[c.task]? = some ⟨c.id, Op.barrierBounded home c.bound c.next, c.frames⟩
  passes : Machine.Passes (Barrier.course home c.bound c.id) c.task
    (fun m τ => τ.task ≠ c.task → ¬ m.Counts home τ) .entering c.before c.turns (.returned c.result)
    c.after

/-- A run with calls of the barrier of a runtime one after another. -/
inductive Machine.Barriers (home : RuntimeId) : Machine → List BarrierCall → Machine → Prop where
  | none (m : Machine) : Barriers home m [] m
  | between {m n p : Machine} {τ : Turn} {cs : List BarrierCall} (uncounted : ¬ m.Counts home τ)
      (move : m.take τ = some n) (rest : Barriers home n cs p) : Barriers home m cs p
  | call {c : BarrierCall} {cs : List BarrierCall} {p : Machine} (made : c.Made home)
      (rest : Barriers home c.after cs p) : Barriers home c.before (c :: cs) p

/-- An entry of a report shows what a thread is like in a world. -/
def ThreadRecord.Shows (w : World) (o : ObjId) (r : ThreadRecord) : Prop :=
  ∃ t, w.thread? o = some t ∧ r.id = t.id ∧ r.name = t.name ∧ r.state = t.state.name ∧
    r.uncaught = (t.uncaught.map Err.message).getD []

/-- A report gives account of a runtime in a world: it tells how many runs its barrier has had, and it has an
entry for each of its started threads, in start order. -/
structure Report.Accounts (w : World) (home : RuntimeId) (runs : Nat) (r : Report) : Prop where
  barriers : runs < 2 ^ 31 → r.barriers.toInt = runs
  threads : ∃ records, r.threads = some records ∧
    List.Forall₂ (ThreadRecord.Shows w) (w.startedThreads home) records

/-- A call of a barrier that comes after others is accounted for. -/
structure BarrierCall.Accounted (home : RuntimeId) (earlier : Nat) (c : BarrierCall) : Prop where
  /-- The task goes on with the result. -/
  goesOn : c.after.At c.task (c.next c.result) c.frames
  /-- The call is counted once. -/
  counted : c.before.world.Counted home (Int32.ofNat earlier) ∧
    c.after.world.Counted home (Int32.ofNat (earlier + 1))
  /-- Its result wraps the expiry of its bound just if one of its waits has ended before its time. -/
  wraps : ∀ e, Barrier.Wraps e c.result ↔ c.bound = some e ∧ .expire c.task ∈ c.turns
  /-- Without a place for reports its result depends on the waiting alone. -/
  unreported : (c.before.world.config home).reportPath = [] →
    (c.result = .ok () ↔ .expire c.task ∉ c.turns)
  /-- With one it takes a report that gives account of this run as well, and writes it there or tries to. -/
  reported : (c.before.world.config home).reportPath ≠ [] → ∃ taken written,
    Machine.Reports home (c.before.world.config home).reportPath c.task c.frames c.before c.turns c.after
      taken written ∧
    (taken.takeReport home).1.Accounts taken home (earlier + 1) ∧
    (c.result = .ok () ↔ .expire c.task ∉ c.turns ∧
      ∃ files, written.files.write (c.before.world.config home).reportPath
        (taken.takeReport home).1.encode = .ok files)

theorem World.threadRecords_shows (h : ∀ o ∈ w.startedThreads home, ∃ t, w.thread? o = some t) :
    List.Forall₂ (ThreadRecord.Shows w) (w.startedThreads home) (w.threadRecords home) := by
  unfold World.threadRecords
  generalize w.startedThreads home = os at h ⊢
  induction os with
  | nil => exact .nil
  | cons o os ih =>
    obtain ⟨t, ht⟩ := h o List.mem_cons_self
    rw [List.filterMap_cons, ht]
    refine .cons ⟨t, ht, rfl, rfl, rfl, ?_⟩ (ih fun x hx => h x (List.mem_cons_of_mem o hx))
    dsimp only [Thread.record]
    cases t.uncaught <;> rfl

theorem Int32.toInt_toInt64_ofNat (h : k < 2 ^ 31) : ((Int32.ofNat k).toInt64).toInt = k := by
  rw [Int32.toInt_toInt64, Int32.toInt_ofNat_of_lt h]

theorem World.takeReport_eq {rt} (h : w.runtime? home = some rt) : (w.takeReport home).1 =
      { session := rt.session
        startedAt := rt.startedAt
        finishedAt := w.now.1
        threads := some (w.threadRecords home)
        barriers := rt.barriers.toInt64 } := by
  have hrt : w.now.2.runtime? home = some rt := h
  simp only [takeReport, hrt]
  rfl

/-- **A report gives account of its runtime.** -/
theorem World.accounts_takeReport (hthreads : ∀ o ∈ w.startedThreads home, ∃ t, w.thread? o = some t)
    (hk : w.Counted home (Int32.ofNat k)) : (w.takeReport home).1.Accounts w home k := by
  obtain ⟨rt, hrt, hbarriers⟩ := hk
  rw [takeReport_eq hrt]
  refine ⟨fun hlt => ?_, _, rfl, World.threadRecords_shows hthreads⟩
  rw [hbarriers]
  exact Int32.toInt_toInt64_ofNat hlt

namespace Machine

variable {m n : Machine} {home : RuntimeId} {cs : List BarrierCall} {k : Nat} {τs : List Turn}

/-- A call is accounted for when as many runs have been counted before it as there were calls. -/
theorem accounted_of_made {c : BarrierCall} (hc : c.Made home) (hm : c.before.Reachable)
    (hk : c.before.world.Counted home (Int32.ofNat k)) : c.Accounted home k := by
  have hhas : c.before.world.Has home := hk.has
  obtain ⟨hend, hwraps, joined, hjoined, hconcludes⟩ := barrier_run hm hhas hc.calls hc.passes
  have hin : c.before.InBarrier home c.bound c.id c.next c.task c.frames .entering :=
    ⟨barrierBounded_eq home c.bound c.id c.next ▸ hc.calls, trivial⟩
  have hafter : c.after.world.Counted home (Int32.ofNat (k + 1)) := by
    have hcounted := hc.passes.counted hm (fun h => h) hin hk
    rwa [Int32.ofNat_add]
  refine ⟨hend, ⟨hk, hafter⟩, hwraps, fun hpath => ?_, fun hpath => ?_⟩
  · rw [hconcludes.eq_joined hpath, hjoined]
  · obtain ⟨taken, written, hreports, htaken, hcounted, -, hresult⟩ := hconcludes.reports hpath
    rw [hjoined] at hresult
    refine ⟨taken, written, hreports, ?_, hresult⟩
    refine World.accounts_takeReport ?_ (hcounted (fun h => h) hafter)
    -- The registered threads of a machine that can be reached are threads.
    obtain ⟨τs₁, τs₂, p, p', q, k₁, k₂, -, hbefore, rfl, -⟩ := hreports
    intro o ho
    obtain ⟨t, ht, -⟩ := (hm.run hbefore.run).joinable ho
    exact ⟨t, ht⟩

/-- Calls of a barrier one after another are accounted for, from a count on. -/
theorem Barriers.accounted (h : m.Barriers home cs n) (hm : m.Reachable) (hk : m.world.Counted home (Int32.ofNat k)) :
    n.world.Counted home (Int32.ofNat (k + cs.length)) ∧
      ∀ (j : Nat) (c : BarrierCall), cs[j]? = some c → c.Accounted home (k + j) := by
  induction h generalizing k with
  | none => exact ⟨hk, nofun⟩
  | between uncounted move _ ih => exact ih (hm.take move) (counted_take move uncounted hk)
  | @call c cs p made rest ih =>
    have hc := accounted_of_made made hm hk
    obtain ⟨hend, hcalls⟩ := ih (hm.run made.passes.trace.run) hc.counted.2
    refine ⟨?_, fun j d hd => ?_⟩
    · rw [List.length_cons, ← Nat.add_assoc, Nat.add_right_comm]
      exact hend
    · cases j with
      | zero =>
        cases hd
        exact hc
      | succ j =>
        have hd' := hcalls j d hd
        rwa [Nat.add_right_comm, Nat.add_assoc] at hd'

/-- Starts a thread that does nothing. -/
def startIdle : Op Unit := do Op.start (← Op.newThread (some 0) none)

/-- A machine with one runtime and two tasks of the host. -/
def pair (c : Config) (first second : Op Unit) : Machine where
  world := World.single c 2
  tasks := #[{ id := 0, prog := first Op.finishUnit }, { id := 1, prog := second Op.finishUnit }]

theorem initial_pair (c : Config) {first second} (hfirst : Op.Lawful [.home (some 0)] first)
    (hsecond : Op.Lawful [.home (some 0)] second) : (pair c first second).Initial := by
  have hlaunch {x : Op Unit} (hx : Op.Lawful [.home (some 0)] x) : Launchable (x Op.finishUnit) :=
    launchable_run hx fun r => by cases r <;> exact ⟨_, rfl⟩
  have hfirst := hlaunch hfirst
  have hsecond := hlaunch hsecond
  exact initial_launch

/-- One task of the host starts a thread, and another one calls the barrier twice, the first time with a
context that is cancelled. -/
def twice : Machine := pair { reportPath := "/report" } startIdle do
  let _ ← Op.result (Op.barrierBounded 0 (some .cancelled))
  Op.barrierBounded 0 none

theorem initial_twice : twice.Initial := by
  have hstart : Op.Lawful [.home (some 0)] startIdle := by
    unfold startIdle
    infer_instance
  exact initial_pair _ hstart inferInstance

/-- A check that a turn counts no run of a barrier. -/
def uncounted (m : Machine) (τ : Turn) : Bool :=
  match m.tasks[τ.task]? with
  | some ⟨_, .perform (.countBarrier _) _, _⟩ => false
  | _ => true

theorem not_counts_of_uncounted {τ} (h : m.uncounted τ) : ¬ m.Counts home τ := by
  rintro ⟨k, fs, ⟨id, prog, frames⟩, ht, rfl, rfl⟩
  unfold uncounted at h
  rw [ht] at h
  cases h

theorem Barriers.after (h : Trace (fun m τ => ¬ m.Counts home τ) m τs n) {p} (rest : n.Barriers home cs p) :
    m.Barriers home cs p := by
  induction h with
  | refl => exact rest
  | cons hnot move _ ih => exact .between hnot move (ih rest)

/-- A check that nobody but the second task counts a run of a barrier. -/
def sole (m : Machine) (τ : Turn) : Bool := τ.task == 1 || m.uncounted τ

/-- The call that the second task makes of the barrier in a machine, along given turns. -/
def callAlong (m : Machine) (bound : Option Expiry) (next : Except Err Unit → Prog) (τs : List Turn)
    (r : Except Err Unit) : BarrierCall where
  task := 1
  id := 1
  bound := bound
  next := next
  frames := []
  before := m
  turns := τs
  result := r
  after := ((pass? sole (Barrier.course 0 bound 1) 1 .entering m τs).getD (.entering, m)).2

theorem made_callAlong {bound next r} (hat : m.tasks[1]? = some ⟨1, Op.barrierBounded 0 bound next, []⟩)
    (hr : (pass? sole (Barrier.course 0 bound 1) 1 .entering m τs).map Prod.fst = some (.returned r)) :
    (m.callAlong bound next τs r).Made 0 := by
  obtain ⟨⟨s, p⟩, hpass, rfl⟩ := Option.map_eq_some_iff.mp hr
  refine ⟨hat, ?_⟩
  have hafter : (m.callAlong bound next τs r).after = p := by
    unfold callAlong
    rw [hpass]
    rfl
  rw [hafter]
  refine passes_of_pass? (fun {m τ} hsole hne => ?_) hpass
  rcases Bool.or_eq_true_iff.mp hsole with hown | hnot
  · exact absurd (beq_iff_eq.mp hown) hne
  · exact not_counts_of_uncounted hnot

/-- The machine with the thread started. -/
def started : Machine := twice.after (fun _ _ => true) (List.replicate 7 (.step 0))

/-- The first call: the barrier waits for the thread until that wait ends before its time. -/
def firstCall : BarrierCall := started.callAlong (some .cancelled)
  (fun _ => Op.barrierBounded 0 none Op.finishUnit)
  (List.replicate 5 (.step 1) ++ .expire 1 :: List.replicate 6 (.step 1))
  (.error (.barrierInterrupted "Thread-0" (.expired .cancelled)))

/-- The machine once the thread has ended. -/
def afterwards : Machine := firstCall.after.after uncounted (List.replicate 13 (.step 2))

/-- The second call: there is nothing to wait for. -/
def secondCall : BarrierCall := afterwards.callAlong none Op.finishUnit (List.replicate 9 (.step 1)) (.ok ())

end Machine

end ObjectKernel
