import ObjectKernel.Proofs.Bindings
import ObjectKernel.Proofs.NewTexts

/-!
# What a thread was given

A thread is given its home, its outermost object and its work item in one go, and only while it has no class. So once it
has a class it keeps what it was given. A thread that was bound to a class by itself was given nothing, and gets nothing
any more.

## Contents

* `Thread.grant`: what a thread is given. `World.KeepsGrants`, `Instr.exec_keepsGrants`: no instruction changes it once
  the thread has a class.
* `World.Faced`, `Machine.Reachable.faced`: an initialised thread is or is the part of its outermost object.
* `World.Follows`: one world comes after another and keeps what threads were given. `Machine.Reachable.follows`: so it is
  along every run.
-/

namespace ObjectKernel

/-- What a thread is given when it is initialised. -/
def Thread.grant (t : Thread) : Option RuntimeId × Option ObjId × Option ObjId := (t.home, t.self, t.target)

namespace World

variable {w v u : World} {o : ObjId} {t : Thread}

/-- Threads that have a class keep what they were given. -/
def KeepsGrants (w v : World) : Prop :=
  ∀ ⦃o t⦄, w.thread? o = some t → (w.classOf? o).isSome → ∃ u, v.thread? o = some u ∧ u.grant = t.grant

/-- The thread that an object is or has as its part. -/
theorem thread?_header_later (hv : w ≤ v) (ht : w.thread? (w.header o) = some t) :
    v.header o = w.header o ∧ ∃ u, v.thread? (w.header o) = some u ∧ t.Lasts u := by
  refine ⟨?_, thread?_later hv ht⟩
  cases hobj : w.object? o with
  | some obj => exact header_later hv hobj
  | none =>
    obtain ⟨obj, hobj', -⟩ := thread?_eq_some.mp ht
    rw [header_of_none hobj, hobj] at hobj'
    cases hobj'

/-- A thread has the class of any object that has it as its part. -/
theorem classOf?_of_header {q} (ht : w.thread? o = some t) (hq : w.header q = o) : w.classOf? o = w.classOf? q := by
  unfold classOf?
  rw [header_of_thread? ht, hq]

end World

open World

/-- **No instruction changes what a thread with a class was given.** -/
theorem Instr.exec_keepsGrants (task : TaskId) (w : World) (i : Instr) : w.KeepsGrants (i.exec task w).2 := by
  intro o t ht hcls
  rcases (i.effect task w).thread_of_some ht with hsame | ⟨f, hf, hrevised⟩
  · exact ⟨t, hsame, rfl⟩
  · refine ⟨f t, hrevised, ?_⟩
    cases hf with
    | reshapes reshapes => cases reshapes <;> rfl
    | initThread unbound =>
      -- What is initialised has no class.
      rw [classOf?_of_header ht rfl, unbound] at hcls
      cases hcls

/-! ## Outermost objects -/

namespace World

variable {w v : World}

/-- Threads with a home had before what they were given, or they were given an object that they are or are the part of. -/
def Grants (w v : World) : Prop :=
  ∀ ⦃o u⦄, v.thread? o = some u → u.home.isSome →
    (∃ t, w.thread? o = some t ∧ t.grant = u.grant) ∨ ∃ q, u.self = some q ∧ v.header q = o

/-- Every thread with a home is its outermost object or the part of it. -/
def Faced (w : World) : Prop :=
  ∀ ⦃o t⦄, w.thread? o = some t → t.home.isSome → ∃ q, t.self = some q ∧ w.header q = o

theorem Faced.grants (h : w.Faced) (hle : w ≤ v) (hv : w.Grants v) : v.Faced := by
  intro o u hu hhome
  rcases hv hu hhome with ⟨t, ht, hgrant⟩ | hnew
  · have hsame : t.home = u.home := congrArg Prod.fst hgrant
    obtain ⟨q, hq, rfl⟩ := h ht (by rw [hsame]; exact hhome)
    refine ⟨q, ?_, (thread?_header_later hle ht).1⟩
    exact (congrArg (fun g => g.2.1) hgrant).symm.trans hq
  · exact hnew

end World

/-- **An instruction gives a thread nothing but an outermost object that it is the part of.** -/
theorem Instr.exec_grants {w hand} {i : Instr} (hi : i.Works hand w) (task : TaskId) (hle : w ≤ (i.exec task w).2) :
    w.Grants (i.exec task w).2 := by
  intro o u hu hhome
  have heffect := i.effect task w
  cases ht : w.thread? o with
  | none =>
    right
    obtain ⟨rfl, hnew⟩ := heffect.thread_of_none ht hu
    cases hnew with
    | allocate =>
      cases hi with
      | allowed allowed =>
        cases allowed
        cases hhome
    | create =>
      cases hi with
      | allowed allowed =>
        obtain ⟨⟨code, hcode, -⟩, -⟩ := allowed
        cases hcode
    | adopt => exact ⟨_, rfl, header_of_thread? hu⟩
  | some t =>
    rcases heffect.thread_of_some ht with hsame | ⟨f, hf, hrevised⟩
    · cases hsame.symm.trans hu
      exact .inl ⟨_, rfl, rfl⟩
    · cases hrevised.symm.trans hu
      cases hf with
      | reshapes reshapes => exact .inl ⟨t, rfl, by cases reshapes <;> rfl⟩
      | initThread => exact .inr ⟨_, rfl, (thread?_header_later hle ht).1⟩

/-- **In every machine that can be reached an initialised thread is or is the part of its outermost object.** -/
theorem Machine.Reachable.faced {m : Machine} (h : m.Reachable) : m.world.Faced := by
  refine h.invariant (fun w hw o t ht => ?_) (fun h => h) ?_
  · cases (hw.thread? o).symm.trans ht
  · intro m j i k fs task hm hat hle h
    obtain ⟨hand, hworks⟩ := hm.works hat
    exact h.grants hle (Instr.exec_grants hworks task hle)

/-! ## Worlds of a run -/

/-- A world that may come after another one in a run: what lasts is there, and threads have what they were given. -/
structure World.Follows (w v : World) : Prop where
  le : w ≤ v
  grants : w.KeepsGrants v

namespace World.Follows

variable {w v u : World}

theorem refl (w : World) : w.Follows w := ⟨le_refl w, fun _ t ht _ => ⟨t, ht, rfl⟩⟩

theorem trans (h : w.Follows v) (h' : v.Follows u) : w.Follows u := by
  refine ⟨h.le.trans h'.le, fun o t ht hcls => ?_⟩
  obtain ⟨t', ht', hgrant⟩ := h.grants ht hcls
  obtain ⟨c, hc⟩ := Option.isSome_iff_exists.mp hcls
  obtain ⟨t'', ht'', hgrant'⟩ := h'.grants ht' (by rw [classOf?_later h.le hc]; rfl)
  exact ⟨t'', ht'', hgrant'.trans hgrant⟩

end World.Follows

namespace Machine

variable {m n : Machine}

theorem Reachable.follows_take (hm : m.Reachable) {τ} (hτ : m.take τ = some n) : m.world.Follows n.world := by
  refine ⟨hm.le_take hτ, ?_⟩
  obtain ⟨t, -, ⟨v, p, fs, hgo, rfl⟩ | ⟨o, k, -, -, rfl⟩⟩ := take_cases hτ
  · show m.world.KeepsGrants v
    generalize τ.isExpiry = expired, t.prog = prog, t.frames = frames at hgo
    cases hgo with
    | perform i k => exact i.exec_keepsGrants t.id m.world
    | resume | observe | await | expire | call | guard | pause => exact (World.Follows.refl _).grants
  · exact fun _ t ht _ => ⟨t, ht, rfl⟩

/-- **Along a run threads with a class keep what they were given.** -/
theorem Reachable.follows (hm : m.Reachable) {P : Machine → Turn → Prop} {τs} (hrun : Trace P m τs n) :
    m.world.Follows n.world := by
  induction hrun with
  | refl m => exact .refl _
  | cons _ move _ ih => exact (hm.follows_take move).trans (ih (hm.take move))

end Machine

end ObjectKernel
