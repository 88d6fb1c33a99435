import ObjectKernel.Proofs.ThreadRecords
import ObjectKernel.Proofs.Rendering

/-!
# Where strings come from

Three instructions make strings: of given content, of the content of a buffer, and of null. All but the
last keep to the limit of the runtime. No other instruction of a task makes one or changes one, so that
whatever holds of the strings that are made holds of all strings, in every run.

## Contents

* `Instr.text?_exec`: no strings come about but those that instructions make.
* `Machine.Reachable.bounded`: every string is within the limit of its runtime, or a text of null.
-/

namespace ObjectKernel

open World

variable {w : World} {i : Instr} {t : RuntimeId × CharSeq} {o : ObjId} {hand : ObjId → Option Phase}

/-! ## The strings that are made -/

/-- What is altered is no string, neither before nor after. -/
theorem Instr.Alters.text? {g} (h : i.Alters w o g) (p : Payload) : (g p).text? = p.text? := by
  cases h <;> cases p <;> rfl

/-- **A string is an old one or one that was made.** -/
theorem Instr.text?_exec (hi : i.Works hand w) {task} (h : (i.exec task w).2.text? o = some t) :
    w.text? o = some t ∨ i.Makes w t := by
  rw [text?_eq] at h ⊢
  rcases (i.effect task w).contentOf o with hsame | ⟨g, hg, hv⟩ | ⟨p, -, hp, hv⟩
  · rw [hsame] at h
    exact .inl h
  · left
    rw [hv] at h
    cases hx : w.content? o with
    | none =>
      rw [hx] at h
      cases h
    | some p =>
      rw [hx] at h
      exact (hg.text? p).symm.trans h
  · rw [hv] at h
    cases hp with
    | text makes =>
      cases h
      exact .inr makes
    | newBuffer | adopt => cases h
    | allocate =>
      cases hi with
      | allowed allowed => cases allowed <;> cases h
    | create =>
      cases hi with
      | allowed allowed =>
        obtain ⟨⟨code, rfl, -⟩, -⟩ := allowed
        cases h

/-! ## Strings within the limit -/

namespace World

variable {w v : World}

/-- The runtime of a string exists. -/
theorem text?_home (hs : w.Sound) (h : w.text? o = some t) : w.Has t.1 := by
  obtain ⟨obj, hobj, hp⟩ := text?_eq_some.mp h
  have hsound := (hs.object hobj).payload
  rw [hp] at hsound
  exact hsound

theorem fits_later (h : w ≤ v) {home} (hh : w.Has home) {s : CharSeq} : v.Fits home s ↔ w.Fits home s := by
  unfold Fits
  rw [config_later h hh]

/-- Every string is within the limit of its runtime, or a text of null. -/
def Bounded (w : World) : Prop :=
  ∀ ⦃o : ObjId⦄ ⦃t : RuntimeId × CharSeq⦄, w.text? o = some t →
    w.Fits t.1 t.2 ∨ t.2 = .ofBytes nullLiteral

/-- What a task does leaves all strings within their limits. -/
theorem Bounded.exec (h : w.Bounded) (hs : w.Sound) {hand} (hi : i.Works hand w) {task}
    (hle : w ≤ (i.exec task w).2) (hhome : ∀ {t}, i.Makes w t → w.Has t.1) : (i.exec task w).2.Bounded := by
  intro o t ht
  rcases i.text?_exec hi ht with hold | hmade
  · rw [fits_later hle (text?_home hs hold)]
    exact h hold
  · rw [fits_later hle (hhome hmade)]
    cases hmade with
    | text fits => exact .inl fits
    | null => exact .inr rfl
    | buffer content fits => exact .inl fits

end World

/-- A string is made for a runtime that exists. -/
theorem Instr.Makes.has (hs : w.Sound) (hi : i.Works hand w) (h : i.Makes w t) : w.Has t.1 := by
  cases h with
  | text fits =>
    cases hi with
    | allowed allowed => exact allowed
  | null =>
    cases hi with
    | allowed allowed => exact allowed
  | buffer content fits => exact buffer?_home hs content

namespace Machine

variable {m : Machine}

/-- The work that a task of a machine that can be reached is about to do. -/
theorem Reachable.works (hm : m.Reachable) {j k fs} (hat : m.At j (.perform i k) fs) :
    ∃ hand, i.Works hand m.world := by
  obtain ⟨stage, hg⟩ := hm.governed
  obtain ⟨t, ht, hp, -⟩ := hat
  have hsits := hg.task ht
  rw [hp] at hsits
  exact ⟨_, hsits.works⟩

/-- **Every string is within the limit of its runtime, or a text of null.** -/
theorem Reachable.bounded (h : m.Reachable) : m.world.Bounded := by
  refine h.invariant (fun w hw o t ht => ?_) (fun h => h) ?_
  · obtain ⟨obj, hobj, -⟩ := text?_eq_some.mp ht
    cases (hw.object? o).symm.trans hobj
  · intro m j i k fs task hm hat hle h
    obtain ⟨hand, hworks⟩ := hm.works hat
    exact h.exec hm.sound hworks hle fun hmade => hmade.has hm.sound hworks

end Machine

end ObjectKernel
