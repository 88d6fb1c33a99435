import ObjectKernel.Text.Bytes

/-!
# Durations in text

A duration is a number of nanoseconds. It is shown in hours, minutes and seconds, and in one
smaller unit when it is shorter than a second, always with the fewest fractional digits.

## Contents

* `Duration.fraction`: a point and the digits of a fraction, without trailing zeros.
* `Duration.text`: the text of a duration.
-/

namespace ObjectKernel

/-- A length of time in nanoseconds. -/
abbrev Duration := Int

namespace Duration

/-- Nanoseconds in a microsecond. -/
def microsecond : Nat := 1000

/-- Nanoseconds in a millisecond. -/
def millisecond : Nat := 1000000

/-- Nanoseconds in a second. -/
def second : Nat := 1000000000

/-- Nanoseconds in a minute. -/
def minute : Nat := 60 * second

/-- Nanoseconds in an hour. -/
def hour : Nat := 60 * minute

/-- The fraction `n / 10 ^ places` as a point and digits, empty when it is zero; trailing zeros are
left out. -/
def fraction : Nat → Nat → Bytes
  | 0, _ => []
  | places + 1, n =>
    if n = 0 then []
    else if n % 10 = 0 then fraction places (n / 10)
    else
      let digits := Bytes.ofNat n
      [Bytes.ofChar '.'] ++ List.replicate (places + 1 - digits.length) (Bytes.ofChar '0') ++ digits

/-- The text of a positive number of nanoseconds. -/
def showPositive (n : Nat) : Bytes :=
  if n < microsecond then Bytes.ofNat n ++ "ns"
  else if n < millisecond then
    Bytes.ofNat (n / microsecond) ++ fraction 3 (n % microsecond) ++ "µs"
  else if n < second then
    Bytes.ofNat (n / millisecond) ++ fraction 6 (n % millisecond) ++ "ms"
  else
    let seconds := Bytes.ofNat (n / second % 60) ++ fraction 9 (n % second) ++ "s"
    if n < minute then seconds
    else if n < hour then Bytes.ofNat (n / minute) ++ "m" ++ seconds
    else Bytes.ofNat (n / hour) ++ "h" ++ Bytes.ofNat (n / minute % 60) ++ "m" ++ seconds

/-- The text of a duration. -/
def text (d : Duration) : Bytes :=
  if d = 0 then "0s"
  else if d < 0 then "-" ++ showPositive d.natAbs
  else showPositive d.natAbs

end Duration

end ObjectKernel
