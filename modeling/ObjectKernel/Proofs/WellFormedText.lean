import ObjectKernel.Text.Utf8
import Mathlib.Tactic.Common

/-!
# Well-formed UTF-8

A text is well-formed if it is put together of the bytes of Unicode scalar values. The scan that decides
this looks at the bytes from the front and tries the lengths of a sequence in turn; here it is shown to
accept what was put together so and nothing else.

## Contents

* `Utf8.IsScalar`, `Utf8.WellFormed`.
* `Utf8.encodeCode_of_code2?` and its like: what the scan takes for a code point is the bytes of one.
* `Utf8.scan_encodeCode`: the bytes of a scalar value are scanned as that value, whatever follows.
* `Utf8.isValid_iff`.
* `Utf8.decode_encode`, `Utf8.map_scalar_decode`: what is read of characters that were written, and of any
  bytes.
-/

namespace ObjectKernel

namespace Utf8

variable {n : Nat} {b a c : UInt8}

/-- A Unicode scalar value: a code point that is no surrogate. -/
def IsScalar (n : Nat) : Prop := n < 0xD800 ∨ (0xE000 ≤ n ∧ n ≤ 0x10FFFF)

/-- Bytes that spell scalar values one after another. -/
inductive WellFormed : Bytes → Prop where
  | nil : WellFormed []
  | cons {n : Nat} {rest : Bytes} (scalar : IsScalar n) (tail : WellFormed rest) :
      WellFormed (encodeCode n ++ rest)

/-! ## From bytes to scalar values -/

theorem toUInt8_eq (h : n = b.toNat) : n.toUInt8 = b := by
  rw [h, Nat.toUInt8_eq, UInt8.ofNat_toNat]

theorem isTail_iff (b : UInt8) : isTail b ↔ 0x80 ≤ b.toNat ∧ b.toNat ≤ 0xBF := by
  unfold isTail
  rw [decide_eq_true_eq]

theorem encodeCode_of_ascii (h : a.toNat < 0x80) : IsScalar a.toNat ∧ encodeCode a.toNat = [a] := by
  refine ⟨.inl (by omega), ?_⟩
  rw [encodeCode, if_pos h, toUInt8_eq rfl]

theorem encodeCode_of_code2? (h : code2? a b = some n) : IsScalar n ∧ encodeCode n = [a, b] := by
  unfold code2? at h
  obtain ⟨⟨hlow, hhigh, hb⟩, heq⟩ := Option.ite_none_right_eq_some.mp h
  rw [isTail_iff] at hb
  have hn := Option.some.inj heq
  refine ⟨.inl (by omega), ?_⟩
  rw [encodeCode, if_neg (by omega), if_pos (by omega)]
  rw [toUInt8_eq (b := a) (by omega), toUInt8_eq (b := b) (by omega)]

theorem encodeCode_of_code3? (h : code3? a b c = some n) : IsScalar n ∧ encodeCode n = [a, b, c] := by
  unfold code3? at h
  obtain ⟨⟨hlow, hhigh, hb, hc⟩, h⟩ := Option.ite_none_right_eq_some.mp h
  obtain ⟨⟨hlong, hsurrogate⟩, heq⟩ := Option.ite_none_right_eq_some.mp h
  rw [isTail_iff] at hb hc
  have hn := Option.some.inj heq
  refine ⟨?_, ?_⟩
  · unfold IsScalar
    omega
  · rw [encodeCode, if_neg (by omega), if_neg (by omega), if_pos (by omega)]
    rw [toUInt8_eq (b := a) (by omega), toUInt8_eq (b := b) (by omega), toUInt8_eq (b := c) (by omega)]

theorem encodeCode_of_code4? {d} (h : code4? a b c d = some n) : IsScalar n ∧ encodeCode n = [a, b, c, d] := by
  unfold code4? at h
  obtain ⟨⟨hlow, hhigh, hb, hc, hd⟩, h⟩ := Option.ite_none_right_eq_some.mp h
  obtain ⟨⟨hlong, hlast⟩, heq⟩ := Option.ite_none_right_eq_some.mp h
  rw [isTail_iff] at hb hc hd
  have hn := Option.some.inj heq
  refine ⟨.inr (by omega), ?_⟩
  rw [encodeCode, if_neg (by omega), if_neg (by omega), if_neg (by omega)]
  rw [toUInt8_eq (b := a) (by omega), toUInt8_eq (b := b) (by omega), toUInt8_eq (b := c) (by omega),
    toUInt8_eq (b := d) (by omega)]

theorem WellFormed.of_bytes {b rest} (h : IsScalar n ∧ encodeCode n = b) (tail : WellFormed rest) :
    WellFormed (b ++ rest) := by
  obtain ⟨hscalar, rfl⟩ := h
  exact .cons hscalar tail

/-- A scan without stray bytes has found scalar values. -/
theorem wellFormed_of_scan {b} (h : (scan b).all Piece.isCode) : WellFormed b := by
  fun_induction scan b with
  | case1 => exact .nil
  | case2 a t hascii ih => exact .of_bytes (encodeCode_of_ascii hascii) (ih h)
  | case4 a _ b t n hcode ih => exact .of_bytes (encodeCode_of_code2? hcode) (ih h)
  | case6 a _ b _ c t n hcode ih => exact .of_bytes (encodeCode_of_code3? hcode) (ih h)
  | case8 a _ b _ c _ d t n hcode ih => exact .of_bytes (encodeCode_of_code4? hcode) (ih h)
  -- In what is left the first byte is stray.
  | case3 | case5 | case7 | case9 => cases h

/-! ## From scalar values to bytes -/

section

variable {a b c d : UInt8} {n : Nat} (t : Bytes)

theorem scan_ascii (h : a.toNat < 0x80) : scan (a :: t) = .code a.toNat :: scan t := by
  rw [scan.eq_def]
  exact if_pos h

theorem scan_two (h : ¬ a.toNat < 0x80) (hcode : code2? a b = some n) : scan (a :: b :: t) = .code n :: scan t := by
  rw [scan.eq_def]
  simp only [h, hcode, if_false]

theorem scan_three (h : ¬ a.toNat < 0x80) (htwo : code2? a b = none) (hcode : code3? a b c = some n) :
    scan (a :: b :: c :: t) = .code n :: scan t := by
  rw [scan.eq_def]
  simp only [h, htwo, hcode, if_false]

theorem scan_four (h : ¬ a.toNat < 0x80) (htwo : code2? a b = none) (hthree : code3? a b c = none)
    (hcode : code4? a b c d = some n) : scan (a :: b :: c :: d :: t) = .code n :: scan t := by
  rw [scan.eq_def]
  simp only [h, htwo, hthree, hcode, if_false]

end

/-- The bytes of a scalar value are scanned as that value. -/
theorem scan_encodeCode (h : IsScalar n) (rest : Bytes) : scan (encodeCode n ++ rest) = .code n :: scan rest := by
  unfold IsScalar at h
  -- The last byte, and the one before it, continue a sequence.
  have htail (m : Nat) : isTail (0x80 + m % 64).toUInt8 ∧
      (0x80 + m % 64).toUInt8.toNat = 0x80 + m % 64 := by
    have hbyte : (0x80 + m % 64).toUInt8.toNat = 0x80 + m % 64 := Bytes.toNat_toUInt8 (by omega)
    exact ⟨(isTail_iff _).mpr (by omega), hbyte⟩
  obtain ⟨hlast, hlast'⟩ := htail n
  obtain ⟨hthird, hthird'⟩ := htail (n / 64)
  obtain ⟨hsecond, hsecond'⟩ := htail (n / 4096)
  unfold encodeCode
  split
  · have hbyte : n.toUInt8.toNat = n := Bytes.toNat_toUInt8 (by omega)
    have hscan := scan_ascii rest (by omega : n.toUInt8.toNat < 0x80)
    rwa [hbyte] at hscan
  · split
    · have hfirst : (0xC0 + n / 64).toUInt8.toNat = 0xC0 + n / 64 := Bytes.toNat_toUInt8 (by omega)
      refine scan_two rest (by omega) ?_
      rw [code2?, if_pos ⟨by omega, by omega, hlast⟩]
      exact congrArg some (by omega)
    · split
      · have hfirst : (0xE0 + n / 4096).toUInt8.toNat = 0xE0 + n / 4096 := Bytes.toNat_toUInt8 (by omega)
        refine scan_three rest (by omega) (if_neg (by omega)) ?_
        rw [code3?, if_pos ⟨by omega, by omega, hthird, hlast⟩]
        rw [if_pos (by omega)]
        exact congrArg some (by omega)
      · have hfirst : (0xF0 + n / 262144).toUInt8.toNat = 0xF0 + n / 262144 := Bytes.toNat_toUInt8 (by omega)
        refine scan_four rest (by omega) (if_neg (by omega)) (if_neg (by omega)) ?_
        rw [code4?, if_pos ⟨by omega, by omega, hsecond, hthird, hlast⟩]
        rw [if_pos (by omega)]
        exact congrArg some (by omega)

/-- **A text is valid just if it spells scalar values.** -/
theorem isValid_iff (b : Bytes) : isValid b ↔ WellFormed b := by
  constructor
  · exact wellFormed_of_scan
  · intro h
    induction h with
    | nil => rfl
    | @cons n rest scalar tail ih =>
      unfold isValid
      rw [scan_encodeCode scalar]
      exact ih

instance (b : Bytes) : Decidable (WellFormed b) := decidable_of_iff _ (isValid_iff b)

/-! ## Characters -/

/-- A code point at the front of a scan is a scalar value, and so is any other. -/
theorem IsScalar.of_cons {m b ps} (h : IsScalar m ∧ encodeCode m = b) (ih : .code n ∈ ps → IsScalar n)
    (hn : .code n ∈ Piece.code m :: ps) : IsScalar n := by
  rcases List.mem_cons.mp hn with heq | hn
  · cases heq
    exact h.1
  · exact ih hn

/-- What the scan takes for a code point is a scalar value. -/
theorem isScalar_of_mem_scan {b} (h : .code n ∈ scan b) : IsScalar n := by
  fun_induction scan b with
  | case1 => cases h
  | case2 a t hascii ih => exact .of_cons (encodeCode_of_ascii hascii) ih h
  | case4 a _ b t m hcode ih => exact .of_cons (encodeCode_of_code2? hcode) ih h
  | case6 a _ b _ c t m hcode ih => exact .of_cons (encodeCode_of_code3? hcode) ih h
  | case8 a _ b _ c _ d t m hcode ih => exact .of_cons (encodeCode_of_code4? hcode) ih h
  -- In what is left the first byte is stray.
  | case3 => simp at h
  | case5 _ _ _ _ ih | case7 _ _ _ _ _ _ ih | case9 _ _ _ _ _ _ _ _ _ ih =>
    rcases List.mem_cons.mp h with heq | h
    · cases heq
    · exact ih h

end Utf8

namespace Rune

open Utf8

theorem isScalar_iff (r : Rune) : r.isScalar ↔ 0 ≤ r.toInt ∧ IsScalar r.toInt.toNat := by
  unfold isScalar IsScalar
  rw [decide_eq_true_eq]
  omega

theorem isScalar_scalar (r : Rune) : r.scalar.isScalar := by
  unfold scalar
  split
  · assumption
  · decide

theorem ofNat_toNat {r : Rune} (h : r.isScalar) : Int32.ofNat r.toInt.toNat = r := by
  have hpos := ((isScalar_iff r).mp h).1
  rw [← Int32.ofInt_eq_ofNat, Int.toNat_of_nonneg hpos, Int32.ofInt_toInt]

theorem isScalar_ofNat {n} (h : IsScalar n) : isScalar (Int32.ofNat n) := by
  have hint : (Int32.ofNat n).toInt = n := by
    unfold IsScalar at h
    apply Int32.toInt_ofNat_of_lt
    omega
  rw [isScalar_iff, hint]
  exact ⟨Int.natCast_nonneg n, h⟩

end Rune

namespace Utf8

/-- Only scalar values are read. -/
theorem map_scalar_decode (b : Bytes) : (decode b).map Rune.scalar = decode b := by
  unfold decode
  rw [List.map_map]
  refine List.map_congr_left fun p hp => ?_
  cases p with
  | code n => exact if_pos (Rune.isScalar_ofNat (isScalar_of_mem_scan hp))
  | stray b => rfl

/-- **What was written is read again**, with U+FFFD in place of what could not be written. -/
theorem decode_encode (rs : List Rune) : decode (encode rs) = rs.map Rune.scalar := by
  induction rs with
  | nil => rfl
  | cons r rs ih =>
    have hscalar := ((Rune.isScalar_iff _).mp r.isScalar_scalar).2
    have hscan : scan (encode (r :: rs)) = .code r.scalar.toInt.toNat :: scan (encode rs) :=
      scan_encodeCode hscalar (encode rs)
    unfold decode at ih ⊢
    rw [hscan, List.map_cons, List.map_cons, ih]
    exact congrArg (· :: _) (Rune.ofNat_toNat r.isScalar_scalar)

end Utf8

end ObjectKernel
