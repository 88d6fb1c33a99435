import ObjectKernel.Text.Bytes

/-!
# UTF-8

Decoding never fails: a byte that belongs to no well-formed sequence stands for U+FFFD on its own.
Encoding never fails either: a number that is no Unicode scalar value is written as U+FFFD.

## Contents

* `Rune`: a character as a signed 32-bit number, valid or not.
* `Utf8.scan`: the well-formed code points and the stray bytes of a byte string, in order.
* `Utf8.decode`, `Utf8.isValid`: characters and well-formedness, both read off `scan`.
* `Utf8.encode`: the bytes of a list of characters.
-/

namespace ObjectKernel

/-- A character: a signed 32-bit number that need not be a Unicode scalar value. -/
abbrev Rune := Int32

namespace Rune

/-- The character written in place of anything that cannot be written. -/
def replacement : Rune := 0xFFFD

/-- Whether the number is a Unicode scalar value: within U+10FFFF and no surrogate. -/
def isScalar (r : Rune) : Bool :=
  decide (0 ≤ r.toInt ∧ r.toInt ≤ 0x10FFFF ∧ ¬ (0xD800 ≤ r.toInt ∧ r.toInt ≤ 0xDFFF))

/-- The character itself when it is a scalar value, U+FFFD otherwise. -/
def scalar (r : Rune) : Rune := if r.isScalar then r else replacement

end Rune

namespace Utf8

/-- What a byte string is made of: code points and bytes that belong to none. -/
inductive Piece where
  | code (n : Nat)
  | stray (b : UInt8)
  deriving DecidableEq, Repr

/-- Whether a byte continues a sequence. -/
def isTail (b : UInt8) : Bool := decide (0x80 ≤ b.toNat ∧ b.toNat ≤ 0xBF)

/-- The code point of a two-byte sequence. -/
def code2? (a b : UInt8) : Option Nat :=
  if 0xC2 ≤ a.toNat ∧ a.toNat ≤ 0xDF ∧ isTail b then
    some ((a.toNat - 0xC0) * 64 + (b.toNat - 0x80))
  else none

/-- The code point of a three-byte sequence: no overlong form and no surrogate. -/
def code3? (a b c : UInt8) : Option Nat :=
  if 0xE0 ≤ a.toNat ∧ a.toNat ≤ 0xEF ∧ isTail b ∧ isTail c then
    let n := (a.toNat - 0xE0) * 4096 + (b.toNat - 0x80) * 64 + (c.toNat - 0x80)
    if 0x800 ≤ n ∧ ¬ (0xD800 ≤ n ∧ n ≤ 0xDFFF) then some n else none
  else none

/-- The code point of a four-byte sequence: no overlong form and nothing above U+10FFFF. -/
def code4? (a b c d : UInt8) : Option Nat :=
  if 0xF0 ≤ a.toNat ∧ a.toNat ≤ 0xF4 ∧ isTail b ∧ isTail c ∧ isTail d then
    let n := (a.toNat - 0xF0) * 262144 + (b.toNat - 0x80) * 4096 + (c.toNat - 0x80) * 64 +
      (d.toNat - 0x80)
    if 0x10000 ≤ n ∧ n ≤ 0x10FFFF then some n else none
  else none

/-- The pieces of a byte string, in order. -/
def scan : Bytes → List Piece
  | [] => []
  | a :: t =>
    if a.toNat < 0x80 then .code a.toNat :: scan t
    else match t with
    | [] => [.stray a]
    | b :: t2 =>
      match code2? a b with
      | some n => .code n :: scan t2
      | none =>
        match t2 with
        | [] => .stray a :: scan (b :: [])
        | c :: t3 =>
          match code3? a b c with
          | some n => .code n :: scan t3
          | none =>
            match t3 with
            | [] => .stray a :: scan (b :: c :: [])
            | d :: t4 =>
              match code4? a b c d with
              | some n => .code n :: scan t4
              | none => .stray a :: scan (b :: c :: d :: t4)

/-- The character that a piece stands for. -/
def Piece.rune : Piece → Rune
  | .code n => Int32.ofNat n
  | .stray _ => Rune.replacement

/-- Whether a piece is a code point. -/
def Piece.isCode : Piece → Bool
  | .code _ => true
  | .stray _ => false

/-- The characters of a byte string, one U+FFFD for each stray byte. -/
def decode (b : Bytes) : List Rune := (scan b).map Piece.rune

/-- Whether a byte string is well-formed UTF-8. -/
def isValid (b : Bytes) : Bool := (scan b).all Piece.isCode

/-- The bytes of a code point up to U+10FFFF. -/
def encodeCode (n : Nat) : Bytes :=
  if n < 0x80 then [n.toUInt8]
  else if n < 0x800 then [(0xC0 + n / 64).toUInt8, (0x80 + n % 64).toUInt8]
  else if n < 0x10000 then
    [(0xE0 + n / 4096).toUInt8, (0x80 + n / 64 % 64).toUInt8, (0x80 + n % 64).toUInt8]
  else
    [(0xF0 + n / 262144).toUInt8, (0x80 + n / 4096 % 64).toUInt8, (0x80 + n / 64 % 64).toUInt8,
      (0x80 + n % 64).toUInt8]

/-- The bytes of a character, those of U+FFFD when it is no scalar value. -/
def encodeRune (r : Rune) : Bytes := encodeCode r.scalar.toInt.toNat

/-- The bytes of a list of characters. -/
def encode (rs : List Rune) : Bytes := rs.flatMap encodeRune

end Utf8

end ObjectKernel
