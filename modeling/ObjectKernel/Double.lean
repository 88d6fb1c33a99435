import ObjectKernel.Text.Bytes

/-!
# Double precision

Arithmetic on non-negative doubles: each product and each quotient is rounded to 53 significant
bits, to the even one of two nearest numbers. Everything here is exact arithmetic on natural
numbers.

## Contents

* `Double`: a mantissa and a power of two.
* `Double.nearest`: the double nearest to a ratio.
* `Double.mul`, `Double.div`, `Double.floor`.
-/

namespace ObjectKernel

/-- The number `mantissa · 2 ^ up / 2 ^ down`. -/
structure Double where
  mantissa : Nat
  up : Nat := 0
  down : Nat := 0
  deriving DecidableEq, Repr

namespace Double

/-- The significant bits of a double. -/
def precision : Nat := 53

/-- The natural number nearest to a ratio, the even one of two. -/
def divideRound (num den : Nat) : Nat :=
  let q := num / den
  let r := num % den
  if den < 2 * r ∨ (den = 2 * r ∧ q % 2 = 1) then q + 1 else q

/-- The double nearest to a ratio. It is scaled to a quotient of `precision` bits: the lengths of the
two numbers give a scale at which the quotient has that many bits or one more. -/
def nearest (num den : Nat) : Double :=
  if num = 0 then { mantissa := 0 }
  else
    let up := precision + den.log2 - num.log2
    let down := num.log2 - (precision + den.log2)
    let isLong := precision ≤ ((num <<< up) / (den <<< down)).log2
    let (up, down) := if isLong then (up - 1, down + (1 - up)) else (up, down)
    { mantissa := divideRound (num <<< up) (den <<< down), up := down, down := up }

/-- The numerator of a double. -/
def num (d : Double) : Nat := d.mantissa <<< d.up

/-- The denominator of a double. -/
def den (d : Double) : Nat := 1 <<< d.down

/-- The double nearest to a natural number. -/
def ofNat (n : Nat) : Double := nearest n 1

/-- The rounded product. -/
def mul (a b : Double) : Double := nearest (a.num * b.num) (a.den * b.den)

/-- The rounded quotient. -/
def div (a b : Double) : Double := nearest (a.num * b.den) (a.den * b.num)

/-- The greatest natural number that is not above. -/
def floor (d : Double) : Nat := d.num / d.den

end Double

end ObjectKernel
