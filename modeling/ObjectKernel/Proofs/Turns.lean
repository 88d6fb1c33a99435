import ObjectKernel.Machine

/-!
# Turns

A move of a machine is a turn of one of its tasks: a step, or the end of a bounded wait before its
condition holds. This module says once what a turn can do, so that what holds in every run is shown by
cases on the program of the task whose turn it is.

## Contents

* `Turn`, `Machine.take`: the moves, with their tasks.
* `Goes`: what a turn does to a task and to the world. `Machine.take_cases`: every turn does that, or
  starts another task.
* `Machine.At`, `Machine.Unreturned`: where tasks stand, and how long a call lasts.
* `Machine.Trace`: runs in which every turn meets a condition, with their turns. `Machine.follow`: the
  run along given turns.
-/

namespace ObjectKernel

/-- A turn of the task at a place. -/
inductive Turn where
  | step (i : Nat)
  | expire (i : Nat)
  deriving DecidableEq, Repr

/-- The place of the task whose turn it is. -/
def Turn.task : Turn → Nat
  | step i | expire i => i

/-- Whether a wait ends before its condition holds. -/
def Turn.isExpiry : Turn → Bool
  | step _ => false
  | expire _ => true

/-- What a turn of a task does, apart from starting another one: from a program and frames in a world to
a world, a program and frames. The mark says that a wait ended before its condition held. -/
inductive Goes (id : TaskId) (w : World) :
    Bool → Prog → List Frame → World → Prog → List Frame → Prop where
  | resume (o : Outcome) (f : Frame) (fs : List Frame) :
      Goes id w false (.finish o) (f :: fs) w (f.resume o) fs
  | observe (f : TaskId → World → Prog) (fs : List Frame) :
      Goes id w false (.observe f) fs w (f id w) fs
  | perform (i : Instr) (k : i.Answer → Prog) (fs : List Frame) :
      Goes id w false (.perform i k) fs (i.exec id w).2 (k (i.exec id w).1) fs
  | await {c : Condition} (holds : c.holds w) (bound : Option Expiry) (k : Bool → Prog)
      (fs : List Frame) : Goes id w false (.await c bound k) fs w (k true) fs
  | expire (c : Condition) (e : Expiry) (k : Bool → Prog) (fs : List Frame) :
      Goes id w true (.await c (some e) k) fs w (k false) fs
  | call (a : Activation) (k : Except Err Value → Prog) (fs : List Frame) :
      Goes id w false (.call a k) fs w a.program (.caller k :: fs)
  | guard (body : Prog) (k : Outcome → Prog) (fs : List Frame) :
      Goes id w false (.guard body k) fs w body (.guard k :: fs)
  | pause (k : Prog) (fs : List Frame) : Goes id w false (.pause k) fs w k fs

/-- A program that has not ended keeps its frames, and may put others on top. -/
theorem Goes.frames {id w v expired p q fs fs'} (h : Goes id w expired p fs v q fs') (hp : ∀ o, p ≠ .finish o) :
    ∃ gs, fs' = gs ++ fs := by
  cases h with
  | resume o => exact absurd rfl (hp o)
  | call a k => exact ⟨[.caller k], rfl⟩
  | guard body k => exact ⟨[.guard k], rfl⟩
  | observe | perform | await | expire | pause => exact ⟨[], rfl⟩

namespace Machine

variable {m n p : Machine} {τ : Turn} {P : Machine → Turn → Prop} {τs : List Turn} {check : Machine → Turn → Bool}
  {i j : Nat} {fs gs : List Frame} {t : Task}

/-- The machine after a turn; none when the task cannot take it. -/
def take (m : Machine) : Turn → Option Machine
  | .step i => m.step i
  | .expire i => m.expire i

theorem move_iff : Move m n ↔ ∃ τ, m.take τ = some n := by
  constructor
  · rintro (⟨i, h⟩ | ⟨i, h⟩)
    · exact ⟨.step i, h⟩
    · exact ⟨.expire i, h⟩
  · rintro ⟨⟨i⟩ | ⟨i⟩, h⟩
    · exact .step i h
    · exact .expire i h

/-- The machine after a task went on in a world. -/
def put (m : Machine) (i : Nat) (t : Task) (v : World) (p : Prog) (fs : List Frame) : Machine :=
  { world := v, tasks := m.tasks.setIfInBounds i { t with prog := p, frames := fs } }

/-- The machine after a task started another one. -/
def fork (m : Machine) (i : Nat) (t : Task) (o : ObjId) (k : Prog) : Machine :=
  { world := { m.world with tasks := m.world.tasks + 1 }
    tasks := (m.tasks.setIfInBounds i { t with prog := k }).push
      { id := m.world.tasks, prog := (Activation.thread o).program } }

/-- **What a turn does**: the task goes on, or it starts the task of a thread. -/
theorem take_cases (h : m.take τ = some n) : ∃ t, m.tasks[τ.task]? = some t ∧
      ((∃ v p fs, Goes t.id m.world τ.isExpiry t.prog t.frames v p fs ∧ n = m.put τ.task t v p fs) ∨
        ∃ o k, τ = .step τ.task ∧ t.prog = .spawn o k ∧ n = m.fork τ.task t o k) := by
  cases τ with
  | step i =>
    obtain ⟨t, ht, h⟩ := Option.bind_eq_some_iff.mp h
    refine ⟨t, ht, ?_⟩
    obtain ⟨id, prog, frames⟩ := t
    cases prog with
    | finish o =>
      cases frames with
      | nil => cases h
      | cons f fs =>
        cases h
        exact .inl ⟨_, _, _, .resume o f fs, rfl⟩
    | observe f =>
      cases h
      exact .inl ⟨_, _, _, .observe f frames, rfl⟩
    | perform instr k =>
      cases h
      exact .inl ⟨_, _, _, .perform instr k frames, rfl⟩
    | await c bound k =>
      obtain ⟨hc, h⟩ := Option.ite_none_right_eq_some.mp h
      cases h
      exact .inl ⟨_, _, _, .await hc bound k frames, rfl⟩
    | call a k =>
      cases h
      exact .inl ⟨_, _, _, .call a k frames, rfl⟩
    | guard body k =>
      cases h
      exact .inl ⟨_, _, _, .guard body k frames, rfl⟩
    | spawn o k =>
      cases h
      exact .inr ⟨o, k, rfl, rfl, rfl⟩
    | pause k =>
      cases h
      exact .inl ⟨_, _, _, .pause k frames, rfl⟩
  | expire i =>
    obtain ⟨t, ht, h⟩ := Option.bind_eq_some_iff.mp h
    refine ⟨t, ht, ?_⟩
    obtain ⟨id, prog, frames⟩ := t
    cases prog with
    | await c bound k =>
      cases bound with
      | none => cases h
      | some e =>
        cases h
        exact .inl ⟨_, _, _, .expire c e k frames, rfl⟩
    | finish | observe | perform | call | guard | spawn | pause => cases h

/-! ## Runs with their turns -/

/-- A run in which every turn meets a condition on the machine before it. -/
inductive Trace (P : Machine → Turn → Prop) : Machine → List Turn → Machine → Prop where
  | refl (m : Machine) : Trace P m [] m
  | cons {m n p : Machine} {τ : Turn} {τs : List Turn} (meets : P m τ) (move : m.take τ = some n)
      (rest : Trace P n τs p) : Trace P m (τ :: τs) p

theorem Run.trans (h : Run m n) (h' : Run n p) : Run m p := by
  induction h' with
  | refl => exact h
  | tail _ move ih => exact .tail ih move

theorem Run.take (h : m.take τ = some n) : Run m n :=
  .tail (.refl m) (move_iff.mpr ⟨τ, h⟩)

theorem Trace.run (h : Trace P m τs n) : Run m n := by
  induction h with
  | refl m => exact .refl m
  | cons _ move _ ih => exact (Run.take move).trans ih

theorem Trace.append {τs'} (h : Trace P m τs n) (h' : Trace P n τs' p) : Trace P m (τs ++ τs') p := by
  induction h with
  | refl => exact h'
  | cons meets move _ ih => exact .cons meets move (ih h')

theorem Trace.imp {Q : Machine → Turn → Prop} (hPQ : ∀ {m τ}, P m τ → Q m τ) (h : Trace P m τs n) :
    Trace Q m τs n := by
  induction h with
  | refl m => exact .refl m
  | cons meets move _ ih => exact .cons (hPQ meets) move ih

/-- The run along given turns, as far as each of them can be taken and passes a check. -/
def follow (check : Machine → Turn → Bool) : Machine → List Turn → Option Machine
  | m, [] => some m
  | m, τ :: τs => if check m τ then (m.take τ).bind (follow check · τs) else none

theorem follow_trace (hP : ∀ {m τ}, check m τ → P m τ) (h : m.follow check τs = some n) : Trace P m τs n := by
  induction τs generalizing m with
  | nil =>
    cases h
    exact .refl _
  | cons τ τs ih =>
    obtain ⟨hc, h⟩ := Option.ite_none_right_eq_some.mp h
    obtain ⟨p, hp, h⟩ := Option.bind_eq_some_iff.mp h
    exact .cons (hP hc) hp (ih h)

/-- Where a run along given turns leads. -/
def after (check : Machine → Turn → Bool) (m : Machine) (τs : List Turn) : Machine :=
  (m.follow check τs).getD m

theorem follow_eq_after (h : (m.follow check τs).isSome) : m.follow check τs = some (m.after check τs) := by
  obtain ⟨n, hn⟩ := Option.isSome_iff_exists.mp h
  rw [after, hn, Option.getD_some]

/-! ## Where tasks stand -/

/-- A task stands at a program with frames. -/
def At (m : Machine) (i : Nat) (p : Prog) (fs : List Frame) : Prop :=
  ∃ t, m.tasks[i]? = some t ∧ t.prog = p ∧ t.frames = fs

/-- A turn before the return of a call with given frames. -/
def Unreturned (i : Nat) (fs : List Frame) (m : Machine) (τ : Turn) : Prop :=
  τ.task = i → ∀ out, ¬ m.At i (.finish out) fs

theorem at_unique {p q} (h : m.At i p fs) (h' : m.At i q gs) : p = q ∧ fs = gs := by
  obtain ⟨t, ht, rfl, rfl⟩ := h
  obtain ⟨t', ht', rfl, rfl⟩ := h'
  cases ht.symm.trans ht'
  exact ⟨rfl, rfl⟩

/-- How a task without frames ended. -/
def outcome? (m : Machine) (i : Nat) : Option Outcome :=
  match m.tasks[i]? with
  | some ⟨_, .finish out, []⟩ => some out
  | _ => none

theorem outcome?_eq_some {out : Outcome} : m.outcome? i = some out ↔ m.At i (.finish out) [] := by
  unfold outcome?
  constructor
  · intro h
    split at h
    · cases h
      exact ⟨_, ‹_›, rfl, rfl⟩
    · cases h
  · rintro ⟨⟨id, p, fs⟩, ht, rfl, rfl⟩
    rw [ht]

/-- A check that a task has not returned. -/
def going (i : Nat) (m : Machine) (_ : Turn) : Bool := m.outcome? i = none

theorem unreturned_of_going (h : going i m τ) : m.Unreturned i [] τ := by
  intro _ out hat
  cases (of_decide_eq_true h).symm.trans (outcome?_eq_some.mpr hat)

theorem lt_of_task (h : m.tasks[i]? = some t) : i < m.tasks.size := (Array.getElem?_eq_some_iff.mp h).1

theorem task_put_self (h : m.tasks[i]? = some t) (v : World) (p : Prog) (fs : List Frame) :
    (m.put i t v p fs).tasks[i]? = some { t with prog := p, frames := fs } :=
  Array.getElem?_setIfInBounds_self_of_lt (lt_of_task h)

theorem task_put_of_ne (h : j ≠ i) (m : Machine) (t : Task) (v : World) (p : Prog) (fs : List Frame) :
    (m.put i t v p fs).tasks[j]? = m.tasks[j]? :=
  Array.getElem?_setIfInBounds_ne (Ne.symm h)

theorem task_fork_self (h : m.tasks[i]? = some t) (o : ObjId) (k : Prog) :
    (m.fork i t o k).tasks[i]? = some { t with prog := k } := by
  refine Array.getElem?_push.trans ?_
  rw [Array.size_setIfInBounds, if_neg (Nat.ne_of_lt (lt_of_task h))]
  exact Array.getElem?_setIfInBounds_self_of_lt (lt_of_task h)

theorem task_fork_last (m : Machine) (i : Nat) (t : Task) (o : ObjId) (k : Prog) :
    (m.fork i t o k).tasks[m.tasks.size]? = some { id := m.world.tasks, prog := (Activation.thread o).program } := by
  refine Array.getElem?_push.trans (if_pos ?_)
  rw [Array.size_setIfInBounds]

theorem task_fork_of_ne (h : j ≠ i) (hj : j ≠ m.tasks.size) (t : Task) (o : ObjId) (k : Prog) :
    (m.fork i t o k).tasks[j]? = m.tasks[j]? := by
  refine Array.getElem?_push.trans ?_
  rw [Array.size_setIfInBounds, if_neg hj]
  exact Array.getElem?_setIfInBounds_ne (Ne.symm h)

/-- A turn of a task that stands at a program: it goes on, or it starts another task. -/
theorem goes_of_take (hτ : m.take τ = some n) {p} (hat : m.At τ.task p gs) :
    (∃ id q gs', Goes id m.world τ.isExpiry p gs n.world q gs' ∧ n.At τ.task q gs') ∨
      ∃ o k, p = .spawn o k ∧ n.At τ.task k gs := by
  obtain ⟨t, ht, rfl, rfl⟩ := hat
  obtain ⟨t', ht', hcases⟩ := take_cases hτ
  cases ht.symm.trans ht'
  rcases hcases with ⟨v, q, gs', hgo, rfl⟩ | ⟨o, k, -, hspawn, rfl⟩
  · exact .inl ⟨_, q, gs', hgo, _, task_put_self ht .., rfl, rfl⟩
  · exact .inr ⟨o, k, hspawn, _, task_fork_self ht .., rfl, rfl⟩

/-- A task that looks at the world can do so, and changes nothing. -/
theorem take_observe {f} (h : m.At i (.observe f) fs) :
    ∃ id n, m.take (.step i) = some n ∧ n.world = m.world ∧ n.At i (f id m.world) fs := by
  obtain ⟨⟨id, prog, frames⟩, ht, rfl, rfl⟩ := h
  refine ⟨id, m.put i ⟨id, _, frames⟩ m.world (f id m.world) frames, ?_, rfl, _, task_put_self ht _ _ _,
    rfl, rfl⟩
  show m.step i = _
  unfold step
  rw [ht]
  rfl

/-- A task that performs an instruction can do so. -/
theorem take_perform {i : Instr} {k} (h : m.At j (.perform i k) fs) :
    ∃ id n, m.take (.step j) = some n ∧ n.world = (i.exec id m.world).2 ∧ n.At j (k (i.exec id m.world).1) fs := by
  obtain ⟨⟨id, prog, frames⟩, ht, rfl, rfl⟩ := h
  refine ⟨id, m.put j ⟨id, _, frames⟩ (i.exec id m.world).2 (k (i.exec id m.world).1) frames, ?_, rfl,
    _, task_put_self ht _ _ _, rfl, rfl⟩
  show m.step j = _
  unfold step
  rw [ht]
  rfl

/-- A task stays where it stands while others have their turns. -/
theorem task_of_ne (hτ : m.take τ = some n) (hi : τ.task ≠ i) (ht : m.tasks[i]? = some t) : n.tasks[i]? = some t := by
  obtain ⟨t', ht', ⟨v, q, fs', -, rfl⟩ | ⟨o, k, -, -, rfl⟩⟩ := take_cases hτ
  · rw [task_put_of_ne (Ne.symm hi)]
    exact ht
  · rw [task_fork_of_ne (Ne.symm hi) (Nat.ne_of_lt (lt_of_task ht))]
    exact ht

end Machine

end ObjectKernel
