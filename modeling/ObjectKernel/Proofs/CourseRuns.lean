import ObjectKernel.Proofs.Courses

/-!
# Runs to the end of a course

An operation that calls leads its task through points with frames of their own, above those that the task
had when the operation began. A run to the end of such a course is taken apart turn by turn: what other
tasks do, the turn of the task itself, and the run to the end from the next point.

## Contents

* `Course.Guides`: the programs and the frames at the points of a course. `Goes.performs`: turns that
  perform an instruction.
* `Machine.Passes`: the runs to the end of a course. `Passes.turn`, `Passes.guided`: their first turns.
  `Machine.pass?`: the run along given turns.
-/

namespace ObjectKernel

/-- A task with a number stands at these programs at the points of a course, with these frames above those
that it had when the course began. It starts no other task. -/
structure Course.Guides {σ : Type} (c : Course σ) (id : TaskId) (prog : σ → Prog)
    (above : σ → List Frame) : Prop where
  goes : ∀ {s : σ} {w v : World} {expired : Bool} {fs gs : List Frame} {q : Prog},
    c.isOver s = false → Goes id w expired (prog s) (above s ++ fs) v q gs →
      q = prog (c.next w expired s) ∧ gs = above (c.next w expired s) ++ fs
  spawnless : ∀ {s : σ}, c.isOver s = false → ∀ o k, prog s ≠ .spawn o k

/-- A turn that performs an instruction is a step, to the world that the instruction makes. -/
theorem Goes.performs {id w v} {τ : Turn} {i : Instr} {k fs gs q}
    (h : Goes id w τ.isExpiry (.perform i k) fs v q gs) : τ = .step τ.task ∧ v = (i.exec id w).2 := by
  cases τ with
  | step j =>
    cases h
    exact ⟨rfl, rfl⟩
  | expire j => cases h

namespace Machine

variable {σ : Type} {c : Course σ} {i : Nat} {P : Machine → Turn → Prop} {m n : Machine} {τs : List Turn} {s t : σ}
  {id : TaskId} {fs : List Frame}

/-- A run that leads a task from a point of its course to the end of the course, and no further. -/
inductive Passes (c : Course σ) (i : Nat) (P : Machine → Turn → Prop) :
    σ → Machine → List Turn → σ → Machine → Prop where
  | finished {s : σ} {m : Machine} (hover : c.isOver s = true) : Passes c i P s m [] s m
  | cons {s t : σ} {m n p : Machine} {τ : Turn} {τs : List Turn} (going : c.isOver s = false)
      (meets : P m τ) (move : m.take τ = some n)
      (rest : Passes c i P (m.courseStep c i τ s) n τs t p) : Passes c i P s m (τ :: τs) t p

theorem Passes.trace (h : Passes c i P s m τs t n) : Trace P m τs n := by
  induction h with
  | finished => exact .refl _
  | cons _ meets move _ ih => exact .cons meets move ih

theorem Passes.of_over (h : Passes c i P s m τs t n) (hover : c.isOver s = true) : τs = [] ∧ s = t ∧ m = n := by
  cases h with
  | finished => exact ⟨rfl, rfl, rfl⟩
  | cons going =>
    rw [hover] at going
    cases going

/-- Where a run along given turns leads to the end of a course, if each of them can be taken before that and
passes a check. -/
def pass? (check : Machine → Turn → Bool) (c : Course σ) (i : Nat) :
    σ → Machine → List Turn → Option (σ × Machine)
  | s, m, [] => if c.isOver s then some (s, m) else none
  | s, m, τ :: τs =>
    if !c.isOver s && check m τ then
      (m.take τ).bind fun n => pass? check c i (m.courseStep c i τ s) n τs
    else none

theorem passes_of_pass? {check} (hP : ∀ {m τ}, check m τ → P m τ) (h : pass? check c i s m τs = some (t, n)) :
    Passes c i P s m τs t n := by
  induction τs generalizing s m with
  | nil =>
    obtain ⟨hover, h⟩ := Option.ite_none_right_eq_some.mp h
    cases h
    exact .finished hover
  | cons τ τs ih =>
    obtain ⟨hcheck, h⟩ := Option.ite_none_right_eq_some.mp h
    obtain ⟨n, hn, h⟩ := Option.bind_eq_some_iff.mp h
    obtain ⟨hgoing, hmeets⟩ := Bool.and_eq_true_iff.mp hcheck
    exact .cons (Bool.not_eq_eq_eq_not.mp hgoing) (hP hmeets) hn (ih h)

/-- A task stays where it stands while only others have turns. -/
theorem Trace.task_of_ne (h : Trace (fun _ τ => τ.task ≠ i) m τs n) {x} (hx : m.tasks[i]? = some x) :
    n.tasks[i]? = some x := by
  induction h with
  | refl => exact hx
  | cons meets move _ ih => exact ih (Machine.task_of_ne move meets hx)

/-- **The first turn of a course**: after turns of other tasks only, the task has one that leads it to the
next point, from where the run goes on to the end. -/
theorem Passes.turn (h : Passes c i P s m τs t n) (going : c.isOver s = false) :
    ∃ τs₁ τ τs₂ q q', τs = τs₁ ++ τ :: τs₂ ∧ Trace (fun m τ => P m τ ∧ τ.task ≠ i) m τs₁ q ∧
      P q τ ∧ τ.task = i ∧ q.take τ = some q' ∧ Passes c i P (c.next q.world τ.isExpiry s) q' τs₂ t n := by
  induction h with
  | finished hover =>
    rw [going] at hover
    cases hover
  | @cons s t m n p τ τs _ meets move rest ih =>
    by_cases hi : τ.task = i
    · subst hi
      rw [courseStep_self going] at rest
      exact ⟨[], τ, τs, m, n, rfl, .refl m, meets, rfl, move, rest⟩
    · rw [courseStep_of_ne hi] at ih
      obtain ⟨τs₁, τ', τs₂, q, q', rfl, hothers, hrest⟩ := ih going
      exact ⟨τ :: τs₁, τ', τs₂, q, q', rfl, .cons ⟨meets, hi⟩ move hothers, hrest⟩

/-- A turn of a task leads it to the next point of its course. -/
theorem guided_take {prog above} (hc : c.Guides id prog above) {τ : Turn} (going : c.isOver s = false)
    (hat : m.tasks[τ.task]? = some ⟨id, prog s, above s ++ fs⟩) (hτ : m.take τ = some n) :
    Goes id m.world τ.isExpiry (prog s) (above s ++ fs) n.world
        (prog (c.next m.world τ.isExpiry s)) (above (c.next m.world τ.isExpiry s) ++ fs) ∧ n.tasks[τ.task]? = some
        ⟨id, prog (c.next m.world τ.isExpiry s), above (c.next m.world τ.isExpiry s) ++ fs⟩ := by
  obtain ⟨x, hx, ⟨v, q, gs, hgo, rfl⟩ | ⟨o, k, -, hspawn, -⟩⟩ := take_cases hτ
  · cases hat.symm.trans hx
    obtain ⟨rfl, rfl⟩ := hc.goes going hgo
    exact ⟨hgo, task_put_self hat ..⟩
  · cases hat.symm.trans hx
    exact absurd hspawn (hc.spawnless going o k)

/-- The first turn of a course whose programs are known. -/
theorem Passes.guided {prog above} (hc : c.Guides id prog above) (h : Passes c i P s m τs t n)
    (going : c.isOver s = false) (hat : m.tasks[i]? = some ⟨id, prog s, above s ++ fs⟩) :
    ∃ τs₁ τ τs₂ q q', τs = τs₁ ++ τ :: τs₂ ∧ Trace (fun m τ => P m τ ∧ τ.task ≠ i) m τs₁ q ∧
      P q τ ∧ τ.task = i ∧ q.take τ = some q' ∧ q.tasks[i]? = some ⟨id, prog s, above s ++ fs⟩ ∧
      Goes id q.world τ.isExpiry (prog s) (above s ++ fs) q'.world
        (prog (c.next q.world τ.isExpiry s)) (above (c.next q.world τ.isExpiry s) ++ fs) ∧ q'.tasks[i]? = some
        ⟨id, prog (c.next q.world τ.isExpiry s), above (c.next q.world τ.isExpiry s) ++ fs⟩ ∧
      Passes c i P (c.next q.world τ.isExpiry s) q' τs₂ t n := by
  obtain ⟨τs₁, τ, τs₂, q, q', rfl, hothers, hmeets, rfl, hτ, hrest⟩ := h.turn going
  have hat' := (hothers.imp And.right).task_of_ne hat
  obtain ⟨hgo, hnext⟩ := guided_take hc going hat' hτ
  exact ⟨τs₁, τ, τs₂, q, q', rfl, hothers, hmeets, rfl, hτ, hat', hgo, hnext, hrest⟩

end Machine

end ObjectKernel
