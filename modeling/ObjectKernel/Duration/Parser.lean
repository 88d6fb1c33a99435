import ObjectKernel.Double
import ObjectKernel.Duration.Printer
import ObjectKernel.Text.Number
import ObjectKernel.Text.Quoted

/-!
# Reading durations

A duration is written as an optional sign and a sequence of decimal numbers, each with a unit:
`1h30m`, `-1.5s`, `.5ms`. A lone `0` needs no unit. The fraction of a number is scaled in double
precision and truncated to whole nanoseconds.

## Contents

* `Duration.ParseError` and its message.
* `Duration.Term`: one number with its unit, and `Duration.term?`, which reads it.
* `Duration.parse`: the whole text.
-/

namespace ObjectKernel.Duration

/-- Why a text is no duration. The offending text is the whole input. -/
inductive ParseError where
  | invalid (input : Bytes)
  | missingUnit (input : Bytes)
  | unknownUnit (unit input : Bytes)
  deriving DecidableEq, Repr

/-- The wording of a refusal. -/
def ParseError.message : ParseError → Bytes
  | .invalid input => "time: invalid duration " ++ Quoted.plain input
  | .missingUnit input => "time: missing unit in duration " ++ Quoted.plain input
  | .unknownUnit unit input =>
    "time: unknown unit " ++ Quoted.plain unit ++ " in duration " ++ Quoted.plain input

/-- The greatest magnitude of a duration, that of the most negative one. -/
def limit : Nat := Number.signedLimit

/-- Nanoseconds in a unit. The microsecond has three spellings. -/
def unit? (u : Bytes) : Option Nat :=
  if u = ("ns" : Bytes) then some 1
  else if u = ("us" : Bytes) ∨ u = ("µs" : Bytes) ∨ u = ("μs" : Bytes) then some microsecond
  else if u = ("ms" : Bytes) then some millisecond
  else if u = ("s" : Bytes) then some second
  else if u = ("m" : Bytes) then some minute
  else if u = ("h" : Bytes) then some hour
  else none

/-- The value of a run of digits, none when it exceeds `limit`. -/
def whole? (digits : List Nat) : Option Nat :=
  digits.foldl (fun acc d => acc.bind fun v => if v * 10 + d ≤ limit then some (v * 10 + d) else none)
    (some 0)

/-- The digits of a fraction that are taken into account, as a number and the power of ten that
divides it: digits past 63 bits are dropped. -/
def scaled (digits : List Nat) : Nat × Nat :=
  let step := fun (acc : Nat × Nat × Bool) (d : Nat) =>
    let (f, places, full) := acc
    if full then acc
    else if f > (limit - 1) / 10 ∨ f * 10 + d > limit then (f, places, true)
    else (f * 10 + d, places + 1, false)
  let (f, places, _) := digits.foldl step (0, 0, false)
  (f, places)

/-- The power of ten with the given exponent, as a product in double precision. -/
def tenTo : Nat → Double
  | 0 => .ofNat 1
  | n + 1 => (tenTo n).mul (.ofNat 10)

/-- The whole nanoseconds in `f / 10 ^ places` of a unit, computed in double precision. -/
def fractionOf (unit f places : Nat) : Nat :=
  ((Double.ofNat f).mul ((Double.ofNat unit).div (tenTo places))).floor

/-- The leading decimal digits of a text, and the rest. -/
def digits (s : Bytes) : List Nat × Bytes :=
  ((s.takeWhile Bytes.isDigit).filterMap Bytes.digit?, s.dropWhile Bytes.isDigit)

/-- One number with its unit: digits before the point, digits after it, and the letters up to the
next number. -/
structure Term where
  whole : List Nat
  fraction : List Nat
  unit : Bytes

/-- Whether a byte can start or continue a number. -/
def inNumber (b : UInt8) : Bool := Bytes.isDigit b || b == Bytes.ofChar '.'

/-- Splits off the first term. The unit extends to the next digit or point. -/
def term (s : Bytes) : Term × Bytes :=
  let (whole, rest) := digits s
  let (fraction, rest) :=
    match rest with
    | [] => ([], [])
    | b :: tail => if b = Bytes.ofChar '.' then digits tail else ([], rest)
  (⟨whole, fraction, rest.takeWhile (!inNumber ·)⟩, rest.dropWhile (!inNumber ·))

/-- The nanoseconds of a term within a text. -/
def Term.value (input : Bytes) (t : Term) : Except ParseError Nat := do
  let some v := whole? t.whole | throw (.invalid input)
  if t.whole.isEmpty && t.fraction.isEmpty then throw (.invalid input)
  if t.unit.isEmpty then throw (.missingUnit input)
  let some u := unit? t.unit | throw (.unknownUnit t.unit input)
  if v > limit / u then throw (.invalid input)
  let (f, places) := scaled t.fraction
  let total := v * u + if f > 0 then fractionOf u f places else 0
  if total > limit then throw (.invalid input)
  return total

/-- The sum of the terms of a text, read with at most `fuel` terms. It is kept in 64 bits: two terms of
`limit` each add up to nothing. -/
def sum (input : Bytes) : Nat → Bytes → Nat → Except ParseError Nat
  | _, [], acc => .ok acc
  | 0, _ :: _, _ => .error (.invalid input)
  | fuel + 1, s@(b :: _), acc => do
    if !inNumber b then throw (.invalid input)
    let (t, rest) := term s
    let v ← t.value input
    let total := (acc + v) % Number.unsignedLimit
    if total > limit then throw (.invalid input)
    sum input fuel rest total

/-- Reads a duration. -/
def parse (input : Bytes) : Except ParseError Duration := do
  let (negative, s) := Number.sign input
  if s = ("0" : Bytes) then return 0
  if s.isEmpty then throw (.invalid input)
  let total ← sum input s.length s 0
  if negative then return -(total : Int)
  if total ≥ limit then throw (.invalid input)
  return total

end ObjectKernel.Duration
