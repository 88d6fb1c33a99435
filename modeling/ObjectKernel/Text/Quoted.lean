import ObjectKernel.Text.Utf8
import ObjectKernel.Text.Printable

/-!
# Quoted text

The one-line form of names and characters in messages: control characters and whatever is not
printable become escapes, and so do a byte outside UTF-8, the backslash and the quote in use.

## Contents

* `Quoted.text`: a byte string between double quotes.
* `Quoted.char`: one character between single quotes.
* `Quoted.plain`: the quotes of duration messages, which escape every byte outside printable ASCII.
-/

namespace ObjectKernel.Quoted

/-- The letter of a control character that has a short escape. -/
def shortEscape? (n : Nat) : Option Char :=
  match n with
  | 0x07 => some 'a'
  | 0x08 => some 'b'
  | 0x0C => some 'f'
  | 0x0A => some 'n'
  | 0x0D => some 'r'
  | 0x09 => some 't'
  | 0x0B => some 'v'
  | _ => none

/-- The escape of a byte by its two hexadecimal digits. -/
def byteEscape (n : Nat) : Bytes := "\\x" ++ Bytes.hexPadded 2 n

/-- How a code point is written between two `quote` characters. -/
def code (quote : UInt8) (n : Nat) : Bytes :=
  if n = quote.toNat ∨ n = 0x5C then [0x5C, n.toUInt8]
  else if Printable.isPrintable n then Utf8.encodeCode n
  else match shortEscape? n with
  | some c => [0x5C, Bytes.ofChar c]
  | none =>
    if n < 0x20 ∨ n = 0x7F then byteEscape n
    else if n < 0x10000 then "\\u" ++ Bytes.hexPadded 4 n
    else "\\U" ++ Bytes.hexPadded 8 n

/-- How one piece of a byte string is written: a stray byte always by its digits. -/
def piece (quote : UInt8) : Utf8.Piece → Bytes
  | .code n => code quote n
  | .stray b => byteEscape b.toNat

/-- A byte string between double quotes. -/
def text (b : Bytes) : Bytes := [0x22] ++ (Utf8.scan b).flatMap (piece 0x22) ++ [0x22]

/-- A character between single quotes; U+FFFD stands for a number that is no scalar value. -/
def char (r : Rune) : Bytes := [0x27] ++ code 0x27 r.scalar.toInt.toNat ++ [0x27]

/-- A byte string between double quotes in which every byte outside printable ASCII is shown by its
two hexadecimal digits. -/
def plain (b : Bytes) : Bytes :=
  [0x22] ++ b.flatMap (fun x =>
    if x = 0x22 ∨ x = 0x5C then [0x5C, x]
    else if x.toNat < 0x20 ∨ 0x80 ≤ x.toNat then byteEscape x.toNat
    else [x]) ++ [0x22]

end ObjectKernel.Quoted
