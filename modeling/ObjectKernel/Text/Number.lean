import ObjectKernel.Text.Bytes

/-!
# Numbers in text

Signs, and the range of signed 64-bit numbers, outside of which no number is accepted.

## Contents

* `Number.signedLimit`, `Number.unsignedLimit`, `Number.fits`: the ranges.
* `Number.sign`, `Number.signed`: the sign of a text, and the number it makes.
* `Number.decimal?`: a signed number in base ten.
-/

namespace ObjectKernel.Number

/-- The least natural number that is no signed 64-bit number. -/
def signedLimit : Nat := 0x8000000000000000

/-- The least natural number that is no unsigned 64-bit number. -/
def unsignedLimit : Nat := 0x10000000000000000

/-- Whether a number is a signed 64-bit number. -/
def fits (v : Int) : Bool := decide (-(signedLimit : Int) ≤ v) && decide (v < signedLimit)

/-- Whether a text begins with a minus sign, and what follows its sign. -/
def sign : Bytes → Bool × Bytes
  | [] => (false, [])
  | b :: rest =>
    if b = Bytes.ofChar '-' then (true, rest)
    else if b = Bytes.ofChar '+' then (false, rest)
    else (false, b :: rest)

/-- The number with a given sign and magnitude. -/
def signed (negative : Bool) (n : Nat) : Int := if negative then -(n : Int) else n

/-- A signed 64-bit number in base ten: an optional sign and at least one digit. -/
def decimal? (b : Bytes) : Option Int :=
  let (negative, digits) := sign b
  if digits = [] ∨ !digits.all Bytes.isDigit then none
  else
    let v := signed negative (Bytes.ofDigits 10 (digits.filterMap Bytes.digit?))
    if fits v then some v else none

end ObjectKernel.Number
