import ObjectKernel.Proofs.Literals
import ObjectKernel.Proofs.UnderDefinition

/-!
# The representation of strings

A string has characters and a text, and it is made from either of them: from bytes that need not be
well-formed, or from numbers that need not be characters. Whichever way it was made, its text spells its
characters. And it is within the limit of its runtime, except for the text of null, which is made without
regard to the limit, but only to be shared.

## Contents

* `Rune.scalar_eq`: what stands in a text in place of a number.
* `World.Spelled`, `Machine.Begins.spelled`: the texts of strings spell their characters.
* `Instr.handed`, `World.Regular`, `Machine.Reachable.regular`: the strings that instructions hand out.
* `Machine.string_representation`.
-/

namespace ObjectKernel

open World

variable {B : Base} {n : Nat} {fs : List Frame} {home : RuntimeId}

/-- A number is written as itself, unless it is negative, a surrogate or beyond U+10FFFF. -/
theorem Rune.scalar_eq (r : Rune) : r.scalar =
    if r.toInt < 0 ∨ 0xD800 ≤ r.toInt ∧ r.toInt ≤ 0xDFFF ∨ 0x10FFFF < r.toInt then 0xFFFD else r := by
  unfold Rune.scalar
  by_cases hscalar : r.isScalar
  · have hrange := of_decide_eq_true hscalar
    rw [if_pos hscalar, if_neg (by omega)]
  · have hrange := mt decide_eq_true hscalar
    rw [if_neg hscalar, if_pos (by omega)]
    rfl

/-! ## Texts and characters -/

namespace World

variable {w v : World}

/-- The text of every string spells its characters. -/
def Spelled (w : World) : Prop := ∀ ⦃o t⦄, w.text? o = some t → t.2.Faithful

/-- What is made by instructions is spelled, if what they are given is. -/
theorem Spelled.exec (h : w.Spelled) {hand} {i : Instr} (hi : i.Works hand w)
    (hgiven : ∀ home op s, i = .makeText home op s → s.Faithful) (task : TaskId) : (i.exec task w).2.Spelled := by
  intro o t ht
  rcases i.text?_exec hi ht with hold | hmade
  · exact h hold
  · cases hmade with
    | text fits => exact hgiven _ _ _ rfl
    | null => exact CharSeq.faithful_ofBytes _
    | buffer => exact CharSeq.faithful_ofRunes _

end World

/-- A program that keeps the order makes strings only of what belongs together. -/
theorem Stands.faithful {op s k h} (hp : Stands B n (.perform (.makeText home op s) k) fs h) : s.Faithful := by
  cases hp with
  | orderly orderly levels =>
    cases orderly with
    | perform free => exact free
  | early point => cases point

/-- It makes a text of null only to share it, and goes on with the one that is shared. -/
theorem Stands.shares_null {k h} (hp : Stands B n (.perform (.makeNullText home) k) fs h) :
    ∃ next : ObjId → Prog, k = fun o => .perform (.shareConstant home nullLiteral o) next := by
  cases hp with
  | orderly orderly levels =>
    cases orderly with
    | perform free => exact free.elim
    | @shareNull _ _ _ next => exact ⟨next, rfl⟩
  | early point => cases point

namespace Machine

variable {m n : Machine}

/-- **In every run from an orderly beginning the texts of strings spell their characters.** -/
theorem Begins.spelled (h : m.Begins) (hrun : Run m n) : n.world.Spelled := by
  induction hrun with
  | refl =>
    intro o t ht
    obtain ⟨obj, hobj, -⟩ := text?_eq_some.mp ht
    cases (h.initial.fresh.object? o).symm.trans hobj
  | @tail n p run move ih =>
    have hn := h.initial.reachable.run run
    obtain ⟨hand, htidy⟩ := h.tidy run
    obtain ⟨τ, hτ⟩ := move_iff.mp move
    obtain ⟨⟨id, prog, frames⟩, ht, ⟨v, q, fs, hgo, rfl⟩ | ⟨o, k, -, -, rfl⟩⟩ := take_cases hτ
    · have hstands := htidy.stands ht
      generalize τ.isExpiry = expired at hgo
      cases hgo with
      | perform i k =>
        obtain ⟨held, hworks⟩ := hn.works ⟨_, ht, rfl, rfl⟩
        refine ih.exec hworks (fun home op s heq => ?_) id
        subst heq
        exact hstands.faithful
      | resume | observe | await | expire | call | guard | pause => exact ih
    · exact ih

end Machine

/-! ## Strings that are handed out -/

/-- The strings that an instruction hands to the program that performs it, apart from a new text of null. -/
def Instr.handed (w : World) : Instr → List ObjId
  | makeText home op s =>
    match w.makeText home op s with
    | .ok r => [r.1]
    | .error _ => []
  | bufferText b =>
    match w.bufferText b with
    | .ok r => [r.1]
    | .error _ => []
  | shareConstant home literal o => [(w.shareConstant home literal o).1]
  | _ => []

namespace World

variable {w v : World} {o : ObjId} {r : ObjId × World} {home : RuntimeId}

/-- A string within the limit of its runtime, or the one that the runtime shares as the text of null. -/
def Regular (w : World) (o : ObjId) : Prop :=
  ∃ home s, w.text? o = some (home, s) ∧ (w.Fits home s ∨ w.constant? home nullLiteral = some o)

theorem Regular.later (hs : w.Sound) (h : w ≤ v) (ho : w.Regular o) : v.Regular o := by
  obtain ⟨home, s, ht, hfits⟩ := ho
  refine ⟨home, s, text?_later h ht, hfits.imp (fun hf => ?_) (constant?_later h)⟩
  exact (fits_later h (text?_home hs ht)).mpr hf

/-- The string of a literal is within the limit, or the literal is that of null. -/
theorem regular_of_constant? (hs : w.Sound) (hb : w.Bounded) {literal} (h : w.constant? home literal = some o) :
    w.Regular o := by
  have ht := text?_of_constant? hs h
  refine ⟨home, _, ht, (hb ht).imp_right fun hnull => ?_⟩
  have hliteral : literal = nullLiteral := congrArg CharSeq.text hnull
  rw [← hliteral]
  exact h

/-- The text of a buffer is a new string. -/
theorem bufferText_ok (hs : w.Sound) {b} (h : w.bufferText b = .ok r) :
    ∃ home op s, w.Has home ∧ w.makeText home op s = .ok r := by
  unfold bufferText at h
  split at h
  · cases h
  · rename_i home buf hb
    split at h
    · cases h
    · cases h
    · split at h
      · rename_i hmake
        cases h
        exact ⟨_, _, _, buffer?_home hs hb, hmake⟩
      · cases h

/-- A new string is regular. -/
theorem regular_of_makeText {op s} (h : w.makeText home op s = .ok r) (hh : w.Has home) (hle : w ≤ r.2) :
    r.2.Regular r.1 := by
  have hfits := makeText_fits h
  have hmade := makeText_ok h
  refine ⟨home, s, ?_, .inl ((fits_later hle hh).mpr hfits)⟩
  rw [hmade]
  exact text_createText ..

/-- **What an instruction hands out is regular.** -/
theorem regular_of_handed (hs : w.Sound) (hb : w.Bounded) {hand} {i : Instr} (hi : i.Works hand w) {task}
    (hle : w ≤ (i.exec task w).2) (ho : o ∈ i.handed w) : (i.exec task w).2.Regular o := by
  have hbounded := hb.exec hs hi hle fun hmade => hmade.has hs hi
  cases i with
  | makeText home op s =>
    change w ≤ (w.attemptResult (w.makeText home op s)).2 at hle
    show (w.attemptResult (w.makeText home op s)).2.Regular o
    simp only [Instr.handed] at ho
    cases hmake : w.makeText home op s with
    | error f =>
      rw [hmake] at ho
      cases ho
    | ok r =>
      rw [hmake] at ho hle
      cases List.mem_singleton.mp ho
      cases hi with
      | allowed allowed => exact regular_of_makeText hmake allowed hle
  | bufferText b =>
    change w ≤ (w.attemptResult (w.bufferText b)).2 at hle
    show (w.attemptResult (w.bufferText b)).2.Regular o
    simp only [Instr.handed] at ho
    cases htext : w.bufferText b with
    | error f =>
      rw [htext] at ho
      cases ho
    | ok r =>
      rw [htext] at ho hle
      cases List.mem_singleton.mp ho
      obtain ⟨home, op, s, hh, hmake⟩ := bufferText_ok hs htext
      exact regular_of_makeText hmake hh hle
  | shareConstant home literal x =>
    cases List.mem_singleton.mp ho
    cases hi with
    | allowed allowed =>
      have hsound := (calm_shareConstant hs allowed).sound
      exact regular_of_constant? hsound hbounded
        (constant?_shareConstant (text?_home hs allowed) literal x)
  | _ => cases ho

end World

namespace Machine

variable {m n : Machine} {τs : List Turn}

/-- **Every string that is handed out in a run is regular from then on.** -/
theorem Reachable.regular (hm : m.Reachable) (hrun : Trace (fun _ _ => True) m τs n) :
    ∀ o ∈ m.record (performed fun w i => i.handed w) τs, n.world.Regular o := by
  refine history_trace (f := fun w i => i.handed w) (I := fun w xs => ∀ o ∈ xs, w.Regular o) ?_
    (fun h => h) hm hrun [] nofun
  intro m j i k fs xs task hm hat hle h o ho
  rcases List.mem_append.mp ho with hold | hnew
  · exact (h o hold).later hm.sound hle
  · obtain ⟨hand, hworks⟩ := hm.works hat
    exact regular_of_handed hm.sound hm.bounded hworks hle hnew

/-- **The representation of strings**, in every run from an orderly beginning. -/
theorem string_representation (h : m.Begins) (hrun : Trace (fun _ _ => True) m τs n) :
    -- The text of a string, read as characters, gives its characters with U+FFFD in place of those that
    -- are none, so that it has as many. A string beyond the limit of its runtime is a text of null.
    (∀ o home s, n.world.text? o = some (home, s) →
      Utf8.decode s.text = s.chars.map (fun r =>
        if r.toInt < 0 ∨ 0xD800 ≤ r.toInt ∧ r.toInt ≤ 0xDFFF ∨ 0x10FFFF < r.toInt then 0xFFFD else r) ∧
      (Utf8.decode s.text).length = s.length ∧
      ((0 < (n.world.config home).maxStringLength → s.length ≤ (n.world.config home).maxStringLength) ∨
        s = .ofBytes nullLiteral)) ∧
    -- A string that was handed out is within the limit of its runtime, if there is one, unless it is the
    -- string that the runtime shares as the text of null.
    (∀ o ∈ m.record (performed fun w i => i.handed w) τs, ∃ home s, n.world.text? o = some (home, s) ∧
      ((0 < (n.world.config home).maxStringLength → s.length ≤ (n.world.config home).maxStringLength) ∨
        n.world.constant? home nullLiteral = some o)) ∧
    -- So is a string that is shared for a literal.
    (∀ home literal o, n.world.constant? home literal = some o → ∃ s, n.world.text? o = some (home, s) ∧
      ((0 < (n.world.config home).maxStringLength → s.length ≤ (n.world.config home).maxStringLength) ∨
        n.world.constant? home nullLiteral = some o)) ∧
    -- Whatever else is made of null is not handed out: the next turn hands out the one that is shared.
    ∀ i home k fs, n.At i (.perform (.makeNullText home) k) fs →
      ∃ next : ObjId → Prog, k = fun o => .perform (.shareConstant home nullLiteral o) next := by
  have hn := h.initial.reachable.run hrun.run
  refine ⟨fun o home s ht => ?_, h.initial.reachable.regular hrun, fun home literal o hc => ?_,
    fun i home k fs hat => ?_⟩
  · have hspelled := (h.spelled hrun.run ht).decode_text
    refine ⟨?_, ?_, hn.bounded ht⟩
    · rw [hspelled]
      exact List.map_congr_left fun r _ => r.scalar_eq
    · rw [hspelled, List.length_map]
      rfl
  · obtain ⟨home', s, ht, hfits⟩ := regular_of_constant? hn.sound hn.bounded hc
    obtain ⟨rfl, -⟩ := Prod.mk.inj (Option.some.inj ((text?_of_constant? hn.sound hc).symm.trans ht))
    exact ⟨s, ht, hfits⟩
  · obtain ⟨hand, htidy⟩ := h.tidy hrun.run
    obtain ⟨t, ht, hprog, -⟩ := hat
    have hstands := htidy.stands ht
    rw [hprog] at hstands
    exact hstands.shares_null

/-! ### Numbers that are no characters, and null under a limit of three characters -/

/-- Makes a string of a surrogate and a negative number. -/
def scrawl : Op Unit := do
  let b ← Op.newBuffer (some 0)
  Op.append b [0xD800, -1]
  let _ ← Op.bufferText b

/-- A task that makes this string, and one that renders null. -/
def scrawling : Machine where
  world := World.single brief 2
  tasks := #[{ id := 0, prog := scrawl.toProgUnit },
    { id := 1, prog := Op.nullText (some 0) ignore }]

instance : Op.Lawful [.home (some 0)] scrawl := by
  unfold scrawl
  infer_instance

instance : Launchable (Op.nullText (some 0) ignore) :=
  launchable_run inferInstance fun r => by cases r <;> exact ⟨_, rfl⟩

theorem begins_scrawling : scrawling.Begins := by
  have hscrawl : Op.Orderly 1 scrawl := by
    unfold scrawl
    infer_instance
  have hnull : Op.Orderly 1 (Op.nullText (some 0)) := inferInstance
  refine begins_single ?_
  rintro t (_ | ⟨_, _ | ⟨_, ⟨⟩⟩⟩)
  · exact Op.orderly_toProgUnit hscrawl (Nat.le_refl 1)
  · refine hnull.run (Nat.le_refl 1) fun x => ?_
    cases x <;> exact .finish _

/-- The turns of both tasks. -/
def scribbling : List Turn := [.step 0, .step 1, .step 0, .step 1, .step 0, .step 1]

/-- The machine in which both strings were handed out. -/
def scrawled : Machine := scrawling.after (fun _ _ => true) scribbling

theorem string_representation_scrawled : scrawling.Begins ∧
    Trace (fun _ _ => True) scrawling scribbling scrawled ∧
    scrawling.record (performed fun w i => i.handed w) scribbling = [2, 1] ∧
    (∃ s, scrawled.world.text? 2 = some (0, s) ∧ s.chars = [0xD800, -1] ∧
      Utf8.decode s.text = [0xFFFD, 0xFFFD]) ∧
    -- The text of null has four characters, and is the one that is shared.
    ∃ s, scrawled.world.text? 1 = some (0, s) ∧ s.length = 4 ∧
      scrawled.world.constant? 0 nullLiteral = some 1 := by
  have hrun : Trace (fun _ _ => True) scrawling scribbling scrawled :=
    follow_trace (fun _ => trivial) (follow_eq_after (by decide +kernel))
  have hhanded : scrawling.record (performed fun w i => i.handed w) scribbling = [2, 1] := by
    decide +kernel
  obtain ⟨hstrings, hregular, -⟩ := string_representation begins_scrawling hrun
  refine ⟨begins_scrawling, hrun, hhanded, ?_, ?_⟩
  · have ht : scrawled.world.text? 2 = some (0, .ofRunes [0xD800, -1]) := rfl
    obtain ⟨hdecode, -⟩ := hstrings 2 0 _ ht
    refine ⟨_, ht, rfl, hdecode.trans ?_⟩
    decide +kernel
  · have ht : scrawled.world.text? 1 = some (0, .ofBytes nullLiteral) := rfl
    have hmem : 1 ∈ scrawling.record (performed fun w i => i.handed w) scribbling := by
      rw [hhanded]
      simp
    obtain ⟨home, s, ht', hfits⟩ := hregular 1 hmem
    cases ht.symm.trans ht'
    refine ⟨_, ht, by decide +kernel, hfits.resolve_left fun hfits => ?_⟩
    exact absurd (hfits (by decide +kernel)) (by decide +kernel)

end Machine

end ObjectKernel
