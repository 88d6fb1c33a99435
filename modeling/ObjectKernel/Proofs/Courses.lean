import ObjectKernel.Proofs.Lives
import ObjectKernel.Proofs.Turns

/-!
# Courses

Some operations lead their task through a few points, with one turn from each point to the next, and
return. How far such an operation has come in a run can be told from the turns alone, whatever its task
goes on with when the operation is over.

## Contents

* `Course`: points and the turns between them. `Course.Describes`: the programs at the points.
* `Machine.course`: the point that a task has come to. `Machine.comes_of_course`: it has come there.
* `Op.onThread_eq`: operations on threads that are called by selector.
-/

namespace ObjectKernel

/-- Points that an operation passes, with the one that a turn leads to: it depends on the world at that
turn, and on whether the turn ends a wait before its time. -/
structure Course (σ : Type) where
  next : World → Bool → σ → σ
  isOver : σ → Bool

/-- A task stands at these programs at the points of a course. -/
structure Course.Describes {σ : Type} (c : Course σ) (prog : σ → Prog) : Prop where
  goes : ∀ {s : σ} {id : TaskId} {w v : World} {expired : Bool} {fs gs : List Frame} {q : Prog},
    c.isOver s = false → Goes id w expired (prog s) fs v q gs →
      q = prog (c.next w expired s) ∧ gs = fs
  spawns : ∀ {s : σ} {o : ObjId} {k : Prog} (w : World), c.isOver s = false →
    prog s = .spawn o k → k = prog (c.next w false s)

namespace Machine

variable {σ : Type} {c : Course σ} {j : Nat} {m n : Machine} {τ : Turn} {s : σ} {P : Machine → Turn → Prop}
  {τs : List Turn} {fs : List Frame} {p : Prog}

/-- The point that a turn leads a task to. -/
def courseStep (c : Course σ) (j : Nat) (m : Machine) (τ : Turn) (s : σ) : σ :=
  if τ.task = j ∧ c.isOver s = false then c.next m.world τ.isExpiry s else s

/-- The point that a task comes to in a run, from a given one. -/
def course (c : Course σ) (j : Nat) : Machine → List Turn → σ → σ
  | _, [], s => s
  | m, τ :: τs, s =>
    match m.take τ with
    | some n => n.course c j τs (m.courseStep c j τ s)
    | none => s

theorem course_cons (h : m.take τ = some n) (τs : List Turn) (s : σ) :
    m.course c j (τ :: τs) s = n.course c j τs (m.courseStep c j τ s) := by
  rw [course, h]

theorem courseStep_self (h : c.isOver s = false) :
    m.courseStep c τ.task τ s = c.next m.world τ.isExpiry s := if_pos ⟨rfl, h⟩

theorem courseStep_of_ne (h : τ.task ≠ j) : m.courseStep c j τ s = s := if_neg fun h' => h h'.1

theorem courseStep_of_over (h : c.isOver s = true) : m.courseStep c j τ s = s := by
  refine if_neg fun h' => ?_
  rw [h] at h'
  cases h'.2

/-- What every turn from point to point keeps, a run keeps. -/
theorem course_induction {I : σ → Prop} (hnext : ∀ w expired s, I s → I (c.next w expired s))
    (m : Machine) (τs : List Turn) (h : I s) : I (m.course c j τs s) := by
  induction τs generalizing m s with
  | nil => exact h
  | cons τ τs ih =>
    unfold course
    split
    · apply ih
      unfold courseStep
      split
      · exact hnext _ _ s h
      · exact h
    · exact h

theorem course_of_over (hrun : Trace P m τs n) (h : c.isOver s = true) : m.course c j τs s = s := by
  induction hrun with
  | refl m => rfl
  | cons _ move _ ih => rw [course_cons move, courseStep_of_over h, ih]

/-- A turn of a task leads it to the next point of its course. -/
theorem At.courseStep {prog} (hc : c.Describes prog) (hs : c.isOver s = false) (hat : m.At j (prog s) fs)
    (hτ : m.take τ = some n) : n.At j (prog (m.courseStep c j τ s)) fs := by
  obtain ⟨t, ht, hprog, hframes⟩ := hat
  by_cases hj : τ.task = j
  · subst hj
    rw [courseStep_self hs]
    obtain ⟨t', ht', ⟨v, q, gs, hgo, rfl⟩ | ⟨o, k, hturn, hspawn, rfl⟩⟩ := take_cases hτ
    · cases ht.symm.trans ht'
      rw [hprog, hframes] at hgo
      obtain ⟨rfl, rfl⟩ := hc.goes hs hgo
      exact ⟨_, task_put_self ht .., rfl, rfl⟩
    · cases ht.symm.trans ht'
      refine ⟨_, task_fork_self ht .., ?_, hframes⟩
      rw [hturn]
      exact hc.spawns m.world hs (hprog.symm.trans hspawn)
  · rw [courseStep_of_ne hj]
    exact ⟨t, task_of_ne hτ hj ht, hprog, hframes⟩

/-- A task comes to a program with frames in the course of a run. -/
def Comes (j : Nat) (p : Prog) (fs : List Frame) (m : Machine) (τs : List Turn) : Prop :=
  ∃ τs₁ τs₂ n, τs = τs₁ ++ τs₂ ∧ Trace (fun _ _ => True) m τs₁ n ∧ n.At j p fs

theorem At.comes (h : m.At j p fs) (τs : List Turn) : m.Comes j p fs τs := ⟨[], τs, m, rfl, .refl m, h⟩

theorem Comes.cons (hτ : m.take τ = some n) (h : n.Comes j p fs τs) : m.Comes j p fs (τ :: τs) := by
  obtain ⟨τs₁, τs₂, n', rfl, htrace, hat⟩ := h
  exact ⟨τ :: τs₁, τs₂, n', rfl, .cons trivial hτ htrace, hat⟩

/-- **A task comes to the point that its course says**, with the frames it had. -/
theorem comes_of_course {prog} (hc : c.Describes prog) (hrun : Trace P m τs n) (hat : m.At j (prog s) fs) :
    m.Comes j (prog (m.course c j τs s)) fs τs := by
  induction hrun generalizing s with
  | refl m => exact hat.comes []
  | cons meets move rest ih =>
    cases hs : c.isOver s with
    | true =>
      rw [course_of_over (.cons meets move rest) hs]
      exact hat.comes _
    | false =>
      rw [course_cons move]
      exact .cons move (ih (hat.courseStep hc hs move))

end Machine

/-- A built-in method that does something to the thread that its receiver is, or has as its part, looks for
it first. -/
theorem Op.onThread_eq (f : ObjId → Op Unit) (x : ObjId) :
    (do f (← needThread (some x)); return Value.null : Op Value).toProg = .observe fun _ w =>
      if (w.thread? (w.header x)).isSome then f (w.header x) finishUnit
      else .finish (.panic (.defect (.notThread (w.shapeOf x)))) := by
  refine Prog.observe_congr fun _ w => ?_
  dsimp only
  cases w.thread? (w.header x) with
  | none => rfl
  | some t =>
    refine congrArg (f (w.header x)) (funext fun r => ?_)
    cases r <;> rfl

end ObjectKernel
