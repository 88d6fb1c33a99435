import ObjectKernel.Proofs.Bindings

/-!
# How often a barrier has run

A runtime counts the runs of its shutdown barrier. Only the instruction that counts a run changes the
count, whatever else happens to the runtime.

## Contents

* `World.Counted`: the count of a runtime. `Counted.countBarrier`: counting a run.
* `Instr.exec_counted`: no other instruction changes the count. `Machine.Counts`, `Machine.counted_take`:
  no other turn does.
-/

namespace ObjectKernel

namespace World

/-- A runtime has counted so many runs of its barrier. -/
def Counted (w : World) (home : RuntimeId) (k : Int32) : Prop :=
  ∃ rt, w.runtime? home = some rt ∧ rt.barriers = k

namespace Counted

variable {w v : World} {home : RuntimeId} {k : Int32}

theorem has (h : w.Counted home k) : w.Has home := by
  obtain ⟨rt, hrt, -⟩ := h
  exact ⟨rt, hrt⟩

theorem unique {k'} (h : w.Counted home k) (h' : w.Counted home k') : k = k' := by
  obtain ⟨rt, hrt, rfl⟩ := h
  obtain ⟨rt', hrt', rfl⟩ := h'
  cases hrt.symm.trans hrt'
  rfl

/-- **A run that is counted adds one.** -/
theorem countBarrier (h : w.Counted home k) : (w.countBarrier home).Counted home (k + 1) := by
  obtain ⟨rt, hrt, rfl⟩ := h
  refine ⟨{ rt with barriers := rt.barriers + 1 }, ?_, rfl⟩
  unfold World.countBarrier
  rw [runtime?_modifyRuntime, if_pos rfl, hrt]
  rfl

end Counted

end World

/-- **Only the instruction that counts a run changes the count.** -/
theorem Instr.exec_counted (task : TaskId) {w : World} {i : Instr} {home : RuntimeId} {k : Int32}
    (hi : i ≠ .countBarrier home) (h : w.Counted home k) : (i.exec task w).2.Counted home k := by
  obtain ⟨rt, hrt, rfl⟩ := h
  rcases (i.effect task w).runtime_of_some hrt with hsame | ⟨f, hf, hmodified⟩
  · exact ⟨rt, hsame, rfl⟩
  · refine ⟨_, hmodified, ?_⟩
    cases hf with
    | countBarrier => exact absurd rfl hi
    | _ => rfl

namespace Machine

variable {m n : Machine} {home : RuntimeId} {τ : Turn} {k : Int32}

/-- A turn that counts a run of the barrier of a runtime. -/
def Counts (home : RuntimeId) (m : Machine) (τ : Turn) : Prop :=
  ∃ k fs, m.At τ.task (.perform (.countBarrier home) k) fs

theorem counted_take (hτ : m.take τ = some n) (hnot : ¬ m.Counts home τ) (h : m.world.Counted home k) :
    n.world.Counted home k := by
  obtain ⟨⟨id, prog, frames⟩, ht, ⟨v, q, fs, hgo, rfl⟩ | ⟨o, p, -, -, rfl⟩⟩ := take_cases hτ
  · generalize τ.isExpiry = expired at hgo
    cases hgo with
    | perform i p =>
      refine i.exec_counted id (fun hi => hnot ?_) h
      subst hi
      exact ⟨p, frames, _, ht, rfl, rfl⟩
    | resume | observe | await | expire | call | guard | pause => exact h
  · exact h

/-- Turns that count no run leave the count as it is. -/
theorem counted_trace {τs} (h : Trace (fun m τ => ¬ m.Counts home τ) m τs n) (hhas : m.world.Has home) :
    n.world.Counted home k ↔ m.world.Counted home k := by
  have hforth : ∀ {k}, m.world.Counted home k → n.world.Counted home k := by
    clear hhas
    induction h with
    | refl => exact id
    | cons hnot move _ ih => exact fun hk => ih (counted_take move hnot hk)
  refine ⟨fun hk => ?_, hforth⟩
  obtain ⟨rt, hrt⟩ := hhas
  have hm : m.world.Counted home rt.barriers := ⟨rt, hrt, rfl⟩
  rwa [hk.unique (hforth hm)]

end Machine

end ObjectKernel
