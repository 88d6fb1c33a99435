import ObjectKernel.Proofs.WellFormedText

/-!
# ASCII in texts

Numbers are written in bytes each of which is a character, and such a byte is a character wherever it stands:
it continues no sequence, so that bytes before it are read on their own, well-formed or not.

## Contents

* `Bytes.IsAscii`: texts of one byte for each character. `Bytes.ofNat_inj`, `Bytes.hexOfNat_inj`: the digits of a
  number tell the number.
* `Utf8.decode_append`, `Utf8.decode_append_cons`: characters after an ASCII text, and before an ASCII byte.
-/

namespace ObjectKernel

open List

namespace Bytes

/-- Every byte is a character. -/
def IsAscii (b : Bytes) : Prop := ∀ x ∈ b, x.toNat < 0x80

instance (b : Bytes) : Decidable b.IsAscii := List.decidableBAll (fun x : UInt8 => x.toNat < 0x80) b

variable {a b : Bytes} {c : Char} {n m : Nat}

theorem IsAscii.append (ha : a.IsAscii) (hb : b.IsAscii) : (a ++ b).IsAscii := by
  intro x hx
  exact (mem_append.mp hx).elim (ha x) (hb x)

theorem toNat_digit (h : c.isDigit) : 48 ≤ c.toNat ∧ c.toNat ≤ 57 := by
  unfold Char.isDigit at h
  rw [Bool.and_eq_true, decide_eq_true_eq, decide_eq_true_eq] at h
  exact ⟨UInt32.le_iff_toNat_le.mp h.1, UInt32.le_iff_toNat_le.mp h.2⟩

theorem toNat_ofChar_digit (h : c.isDigit) : (ofChar c).toNat = c.toNat := by
  have hc := toNat_digit h
  exact toNat_toUInt8 (by omega)

theorem isDigit_of_mem_toDigits (h : c ∈ Nat.toDigits 10 n) : c.isDigit :=
  Nat.isDigit_of_mem_toDigits (by decide) (by decide) h

theorem isAscii_ofNat (n : Nat) : (ofNat n).IsAscii := by
  intro x hx
  obtain ⟨c, hc, rfl⟩ := mem_map.mp hx
  have hdigit := isDigit_of_mem_toDigits hc
  have hle := toNat_digit hdigit
  rw [toNat_ofChar_digit hdigit]
  omega

theorem isAscii_ofInt (n : Int) : (ofInt n).IsAscii := by
  cases n with
  | ofNat n => exact isAscii_ofNat n
  | negSucc n => exact (by decide : IsAscii [ofChar '-']).append (isAscii_ofNat (n + 1))

/-- A number is told by its digits. -/
theorem ofNat_inj (h : ofNat m = ofNat n) : m = n := by
  have hdigits (k : Nat) : (ofNat k).map (fun x => Char.ofNat x.toNat) = Nat.toDigits 10 k := by
    unfold ofNat
    rw [map_map]
    refine (map_congr_left fun c hc => ?_).trans (map_id _)
    show Char.ofNat (ofChar c).toNat = c
    rw [toNat_ofChar_digit (isDigit_of_mem_toDigits hc), Char.ofNat_toNat]
  have hsame : Nat.toDigits 10 m = Nat.toDigits 10 n := by rw [← hdigits m, h, hdigits n]
  rw [← Nat.ofDigitChars_ten_toDigits (n := m), hsame, Nat.ofDigitChars_ten_toDigits]

/-! ### Base sixteen -/

/-- The byte of a base-sixteen digit. -/
def hexDigit (d : Nat) : UInt8 := ofChar d.digitChar

theorem hexOfNat_eq (n : Nat) :
    hexOfNat n = if n < 16 then [hexDigit n] else hexOfNat (n / 16) ++ [hexDigit (n % 16)] := by
  unfold hexOfNat
  rw [Nat.toDigits_eq_if (by decide)]
  split
  · rfl
  · rw [map_append]
    rfl

theorem hexOfNat_ne_nil (n : Nat) : hexOfNat n ≠ [] := by
  unfold hexOfNat
  simp [Nat.toDigits_ne_nil]

theorem hexDigit_inj {d e} (hd : d < 16) (he : e < 16) (h : hexDigit d = hexDigit e) : d = e := by
  have hall : ∀ d < 16, ∀ e < 16, hexDigit d = hexDigit e → d = e := by decide
  exact hall d hd e he h

/-- The bytes of a number in base sixteen are those of digits. -/
theorem eq_hexDigit_of_mem {x} (h : x ∈ hexOfNat n) : ∃ d < 16, x = hexDigit d := by
  induction n using Nat.strongRecOn with
  | _ n ih =>
    rw [hexOfNat_eq] at h
    split at h
    · rename_i hn
      exact ⟨n, hn, mem_singleton.mp h⟩
    · rcases mem_append.mp h with hfirst | hlast
      · exact ih (n / 16) (by omega) hfirst
      · exact ⟨n % 16, Nat.mod_lt n (by decide), mem_singleton.mp hlast⟩

theorem isAscii_hexOfNat (n : Nat) : (hexOfNat n).IsAscii := by
  have hall : ∀ d < 16, (hexDigit d).toNat < 0x80 := by decide
  intro x hx
  obtain ⟨d, hd, rfl⟩ := eq_hexDigit_of_mem hx
  exact hall d hd

/-- A number is told by its digits in base sixteen. -/
theorem hexOfNat_inj (h : hexOfNat m = hexOfNat n) : m = n := by
  induction m using Nat.strongRecOn generalizing n with
  | _ m ih =>
    have hdigit (k : Nat) : k % 16 < 16 := Nat.mod_lt k (by decide)
    rw [hexOfNat_eq m, hexOfNat_eq n] at h
    split at h <;> split at h
    · rename_i hm hn
      exact hexDigit_inj hm hn (singleton_inj.mp h)
    · -- One digit is not as many as two.
      have hlength := congrArg length h
      simp [hexOfNat_ne_nil] at hlength
    · have hlength := congrArg length h
      simp [hexOfNat_ne_nil] at hlength
    · obtain ⟨hfirst, hlast⟩ := append_inj' h rfl
      have hquotient := ih (m / 16) (by omega) hfirst
      have hremainder := hexDigit_inj (hdigit m) (hdigit n) (singleton_inj.mp hlast)
      omega

end Bytes

/-! ## Characters -/

namespace Utf8

variable {a b : Bytes} {x : UInt8}

theorem decode_cons (hx : x.toNat < 0x80) (b : Bytes) : decode (x :: b) = Int32.ofNat x.toNat :: decode b := by
  unfold decode
  rw [scan_ascii b hx]
  rfl

/-- The characters of an ASCII text are its bytes. -/
theorem decode_ascii (hb : b.IsAscii) : decode b = b.map fun x => Int32.ofNat x.toNat := by
  induction b with
  | nil => rfl
  | cons x b ih =>
    rw [decode_cons (hb x mem_cons_self), ih fun y hy => hb y (mem_cons_of_mem x hy)]
    rfl

theorem decode_append (ha : a.IsAscii) (b : Bytes) : decode (a ++ b) = decode a ++ decode b := by
  induction a with
  | nil => rfl
  | cons x a ih =>
    have hx := ha x mem_cons_self
    rw [cons_append, decode_cons hx, decode_cons hx, ih fun y hy => ha y (mem_cons_of_mem x hy)]
    rfl

theorem length_decode (hb : b.IsAscii) : (decode b).length = b.length := by
  rw [decode_ascii hb, length_map]

theorem encode_decode (hb : b.IsAscii) : encode (decode b) = b := by
  induction b with
  | nil => rfl
  | cons x b ih =>
    have hx := hb x mem_cons_self
    have hscalar : Rune.isScalar (Int32.ofNat x.toNat) := Rune.isScalar_ofNat (encodeCode_of_ascii hx).1
    have hcode : encodeRune (Int32.ofNat x.toNat) = [x] := by
      unfold encodeRune Rune.scalar
      rw [if_pos hscalar, Int32.toInt_ofNat_of_lt (by omega)]
      exact (encodeCode_of_ascii hx).2
    rw [decode_cons hx]
    show encodeRune _ ++ encode (decode b) = _
    rw [hcode, ih fun y hy => hb y (mem_cons_of_mem x hy)]
    rfl

/-! ### A byte that is a character -/

/-- A byte with which no sequence begins is stray. -/
theorem scan_stray {p : UInt8} {t} (hp : ¬ p.toNat < 0x80) (htwo : ∀ q r, t = q :: r → code2? p q = none)
    (hthree : ∀ q r u, t = q :: r :: u → code3? p q r = none)
    (hfour : ∀ q r u v, t = q :: r :: u :: v → code4? p q r u = none) : scan (p :: t) = .stray p :: scan t := by
  rw [scan.eq_def]
  simp only [hp, if_false]
  cases t with
  | nil => rw [scan]
  | cons q t =>
    simp only [htwo q t rfl]
    cases t with
    | nil => rfl
    | cons r t =>
      simp only [hthree q r t rfl]
      cases t with
      | nil => rfl
      | cons u t => simp only [hfour q r u t rfl]

/-- An ASCII byte is no part of what is scanned before it. -/
theorem scan_append_cons (hx : x.toNat < 0x80) (a b : Bytes) : scan (a ++ x :: b) = scan a ++ scan (x :: b) := by
  have htail : isTail x = false := decide_eq_false (by omega)
  fun_induction scan a with
  | case1 => rfl
  | case2 p t hp ih =>
    rw [cons_append, scan_ascii _ hp, ih]
    rfl
  | case4 p hp q t n hcode ih =>
    rw [cons_append, cons_append, scan_two _ hp hcode, ih]
    rfl
  | case6 p hp q htwo r t n hcode ih =>
    rw [cons_append, cons_append, cons_append, scan_three _ hp htwo hcode, ih]
    rfl
  | case8 p hp q htwo r hthree u t n hcode ih =>
    rw [cons_append, cons_append, cons_append, cons_append,
      scan_four _ hp htwo hthree hcode, ih]
    rfl
  -- In what is left the first byte is stray, and it stays so if the ASCII byte comes too early to complete a
  -- sequence that begins with it.
  | case3 p hp =>
    rw [singleton_append, scan_stray hp]
    · rfl
    · rintro _ _ ⟨⟩
      simp [code2?, htail]
    · rintro _ _ _ ⟨⟩
      simp [code3?, htail]
    · rintro _ _ _ _ ⟨⟩
      simp [code4?, htail]
  | case5 p hp q htwo ih =>
    rw [cons_append, scan_stray hp, ih]
    · rfl
    · rintro _ _ ⟨⟩
      exact htwo
    · rintro _ _ _ ⟨⟩
      simp [code3?, htail]
    · rintro _ _ _ _ ⟨⟩
      simp [code4?, htail]
  | case7 p hp q htwo r hthree ih =>
    rw [cons_append, scan_stray hp, ih]
    · rfl
    · rintro _ _ ⟨⟩
      exact htwo
    · rintro _ _ _ ⟨⟩
      exact hthree
    · rintro _ _ _ _ ⟨⟩
      simp [code4?, htail]
  | case9 p hp q htwo r hthree u t hfour ih =>
    rw [cons_append, scan_stray hp, ih]
    · rfl
    · rintro _ _ ⟨⟩
      exact htwo
    · rintro _ _ _ ⟨⟩
      exact hthree
    · rintro _ _ _ _ ⟨⟩
      exact hfour

theorem decode_append_cons (hx : x.toNat < 0x80) (a b : Bytes) :
    decode (a ++ x :: b) = decode a ++ decode (x :: b) := by
  unfold decode
  rw [scan_append_cons hx, map_append]

end Utf8

end ObjectKernel
