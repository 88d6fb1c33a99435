/-!
# Byte strings

Names, paths, file contents and the text of messages are strings of bytes: nothing in the kernel
requires them to be valid UTF-8.

## Contents

* `Bytes` and the coercion from string literals.
* `Bytes.ofNat`, `Bytes.ofInt`, `Bytes.hexOfNat`: numbers in base ten and sixteen.
* `Bytes.atMost`: the order of sorted listings, byte by byte.
* `Bytes.splitOn`, `Bytes.joinWith`: cutting at a byte and joining with a separator.
-/

namespace ObjectKernel

/-- A string of bytes, not necessarily valid UTF-8. -/
abbrev Bytes := List UInt8

namespace Bytes

theorem toNat_toUInt8 {n} (h : n < 256) : n.toUInt8.toNat = n := by
  rw [Nat.toUInt8_eq, UInt8.toNat_ofNat', Nat.mod_eq_of_lt h]

/-- The UTF-8 bytes of a text. -/
def ofString (s : String) : Bytes := s.toByteArray.data.toList

instance : Coe String Bytes := ⟨ofString⟩

/-- The bytes of an ASCII character. -/
def ofChar (c : Char) : UInt8 := c.toNat.toUInt8

/-! ## Numbers -/

/-- The base-ten digits of a natural number. -/
def ofNat (n : Nat) : Bytes := (Nat.toDigits 10 n).map ofChar

/-- The base-ten form of an integer, with a minus sign when negative. -/
def ofInt : Int → Bytes
  | .ofNat n => ofNat n
  | .negSucc n => ofChar '-' :: ofNat (n + 1)

/-- The lower-case base-sixteen digits of a natural number. -/
def hexOfNat (n : Nat) : Bytes := (Nat.toDigits 16 n).map ofChar

/-- Base-sixteen digits padded with zeros to at least `width`. -/
def hexPadded (width n : Nat) : Bytes :=
  let digits := hexOfNat n
  List.replicate (width - digits.length) (ofChar '0') ++ digits

/-- Two lower-case hexadecimal digits for each byte. -/
def toHex (b : Bytes) : Bytes := b.flatMap fun x => hexPadded 2 x.toNat

/-- The value of a decimal digit. -/
def digit? (b : UInt8) : Option Nat :=
  if ofChar '0' ≤ b ∧ b ≤ ofChar '9' then some (b.toNat - 48) else none

/-- Whether the byte is a decimal digit. -/
def isDigit (b : UInt8) : Bool := (digit? b).isSome

/-- The value of a hexadecimal digit of either case. -/
def hexDigit? (b : UInt8) : Option Nat :=
  if ofChar '0' ≤ b ∧ b ≤ ofChar '9' then some (b.toNat - 48)
  else if ofChar 'a' ≤ b ∧ b ≤ ofChar 'f' then some (b.toNat - 87)
  else if ofChar 'A' ≤ b ∧ b ≤ ofChar 'F' then some (b.toNat - 55)
  else none

/-- The number that a list of digits denotes in the given base. -/
def ofDigits (base : Nat) (digits : List Nat) : Nat :=
  digits.foldl (fun n d => n * base + d) 0

/-! ## Order -/

/-- Lexicographic order on bytes; a proper beginning comes first. -/
def atMost : Bytes → Bytes → Bool
  | [], _ => true
  | _ :: _, [] => false
  | a :: as, b :: bs => if a < b then true else if b < a then false else atMost as bs

/-- The names in lexicographic order. -/
def sort (names : List Bytes) : List Bytes := names.mergeSort atMost

/-! ## Cutting and joining -/

/-- The parts between occurrences of `sep`; a text without one is its only part. -/
def splitOn (sep : UInt8) : Bytes → List Bytes
  | [] => [[]]
  | b :: rest =>
    match splitOn sep rest with
    | [] => [[b]]
    | part :: parts => if b = sep then [] :: part :: parts else (b :: part) :: parts

/-- The parts with `sep` between neighbours. -/
def joinWith (sep : Bytes) : List Bytes → Bytes
  | [] => []
  | [part] => part
  | part :: parts => part ++ sep ++ joinWith sep parts

/-- The rest after a given beginning, if the text has it. -/
def after? : Bytes → Bytes → Option Bytes
  | [], rest => some rest
  | _ :: _, [] => none
  | a :: as, b :: bs => if a = b then after? as bs else none

theorem splitOn_ne_nil (sep : UInt8) (b : Bytes) : splitOn sep b ≠ [] := by
  cases b with
  | nil => simp [splitOn]
  | cons x rest =>
    simp only [splitOn]
    split
    · simp
    · split <;> simp

theorem joinWith_splitOn (sep : UInt8) (b : Bytes) : joinWith [sep] (splitOn sep b) = b := by
  induction b with
  | nil => rfl
  | cons x rest ih =>
    simp only [splitOn]
    split
    · exact absurd ‹_› (splitOn_ne_nil sep rest)
    · rename_i part parts h
      rw [h] at ih
      split
      · subst x
        simp [joinWith, ih]
      · cases parts <;> simp_all [joinWith]

end Bytes

end ObjectKernel
