import ObjectKernel.Text.Number
import ObjectKernel.Text.Utf8

/-!
# TOML numbers and dates

Numbers and dates are first cut out of the text by the characters that can occur in them and then
checked as a whole.

## Contents

* `Toml.integer?`: the value of an integer lexeme, within 64 bits.
* `Toml.isFloat`: whether a lexeme is a decimal number with a fraction or an exponent that a double
  can hold.
* `Toml.isDatetime`: whether a lexeme is a date, a time or both.
-/

namespace ObjectKernel.Toml

open Bytes (isDigit digit? hexDigit? ofChar)

/-! ## Numbers -/

/-- Whether every underscore stands between digits, and the lexeme ends in one. -/
def underscoresFit (b : Bytes) : Bool :=
  (b.foldl (fun (acc : Bool × Bool) c =>
    (acc.1 && (c != ofChar '_' || acc.2), (hexDigit? c).isSome)) (true, false)) |>
    fun acc => acc.1 && acc.2

/-- The lexeme without its sign. -/
def unsignedPart : Bytes → Bytes
  | [] => []
  | c :: rest => if c = ofChar '+' ∨ c = ofChar '-' then rest else c :: rest

/-- Whether the lexeme has a minus sign. -/
def isNegative : Bytes → Bool
  | [] => false
  | c :: _ => c == ofChar '-'

/-- Whether a decimal lexeme starts with a zero that is not its only digit. -/
def hasLeadingZero (b : Bytes) : Bool :=
  match unsignedPart b with
  | c :: _ :: _ => c == ofChar '0'
  | _ => false

/-- The digits of a lexeme in a base, none when some character is no digit of it. -/
def digitsIn? (base : Nat) (b : Bytes) : Option (List Nat) :=
  (b.filter (· ≠ ofChar '_')).mapM fun c => do
    let d ← hexDigit? c
    if d < base then some d else none

/-- The base and the digits of an integer lexeme without sign. -/
def baseOf (b : Bytes) : Nat × Bytes :=
  match b with
  | z :: x :: rest =>
    if z = ofChar '0' ∧ x = ofChar 'x' then (16, rest)
    else if z = ofChar '0' ∧ x = ofChar 'o' then (8, rest)
    else if z = ofChar '0' ∧ x = ofChar 'b' then (2, rest)
    else (10, b)
  | _ => (10, b)

/-- The value of an integer lexeme: underscores between digits, no leading zeros, within 64 bits. -/
def integer? (b : Bytes) : Option Int := do
  let (base, body) := baseOf (unsignedPart b)
  if !underscoresFit b then none
  if base = 10 ∧ hasLeadingZero b then none
  let digits ← digitsIn? base body
  if digits = [] then none
  let n := Bytes.ofDigits base digits
  let v := Number.signed (isNegative b) n
  if Number.fits v then some v else none

/-- The least natural number that rounds to no finite double. -/
def doubleLimit : Nat := Nat.pow 2 1024 - Nat.pow 2 970

/-- Whether `m · 10 ^ e` rounds to a finite double. -/
def fitsDouble (m : Nat) (e : Int) : Bool :=
  let digits := (Nat.toDigits 10 m).length
  if m = 0 then true
  else if e + digits > 310 then false
  else if e + digits < 300 then true
  else if 0 ≤ e then decide (m * Nat.pow 10 e.toNat < doubleLimit)
  else decide (m < doubleLimit * Nat.pow 10 (-e).toNat)

/-- The parts of a float lexeme between points and exponent marks, empty ones left out. -/
def floatParts (b : Bytes) : List Bytes :=
  let isMark := fun c => c == ofChar '.' || c == ofChar 'e' || c == ofChar 'E'
  let parts := b.foldr (fun c (acc : List Bytes) =>
    match acc with
    | [] => if isMark c then [[], []] else [[c]]
    | p :: ps => if isMark c then [] :: p :: ps else (c :: p) :: ps) [[]]
  parts.filter (· ≠ [])

/-- Whether every point is followed by a digit. -/
def pointsFit : Bytes → Bool
  | [] => true
  | [c] => c != ofChar '.'
  | c :: d :: rest => (c != ofChar '.' || isDigit d) && pointsFit (d :: rest)

/-- The mantissa and the exponent of a decimal number: digits, an optional fraction, an optional
exponent. -/
def decimalNumber? (b : Bytes) : Option (Nat × Int) := do
  let b := unsignedPart b
  let whole := b.takeWhile isDigit
  let rest := b.dropWhile isDigit
  if whole = [] then none
  let (fraction, rest) : Bytes × Bytes := match rest with
    | c :: tail => if c = ofChar '.' then (tail.takeWhile isDigit, tail.dropWhile isDigit) else ([], rest)
    | [] => ([], [])
  let mantissa := Bytes.ofDigits 10 ((whole ++ fraction).filterMap digit?)
  let shift : Int := -(fraction.length : Int)
  match rest with
  | [] => some (mantissa, shift)
  | mark :: tail =>
    if mark ≠ ofChar 'e' ∧ mark ≠ ofChar 'E' then none
    let digits := unsignedPart tail
    if digits = [] ∨ !digits.all isDigit then none
    let n : Nat := Bytes.ofDigits 10 (digits.filterMap digit?)
    some (mantissa, shift + if isNegative tail then -(n : Int) else n)

/-- Whether a lexeme is a float. -/
def isFloat (b : Bytes) : Bool :=
  let word := unsignedPart b
  if word = ("inf" : Bytes) ∨ word = ("nan" : Bytes) then true
  else
    let parts := floatParts b
    parts.all underscoresFit && !((parts.head?.map hasLeadingZero).getD false) && pointsFit b &&
      match decimalNumber? (b.filter (· ≠ ofChar '_')) with
      | some (m, e) => fitsDouble m e
      | none => false

/-! ## Dates and times -/

/-- The number that exactly `n` digits at the front spell, and the rest. -/
def fixedDigits? (n : Nat) (b : Bytes) : Option (Nat × Bytes) :=
  if n ≤ b.length ∧ (b.take n).all isDigit then
    some (Bytes.ofDigits 10 ((b.take n).filterMap digit?), b.drop n)
  else none

/-- The rest after one given character. -/
def expect? (c : Char) : Bytes → Option Bytes
  | [] => none
  | x :: rest => if x = ofChar c then some rest else none

/-- The number of days of a month. -/
def daysIn (year month : Nat) : Nat :=
  if month = 2 then
    if year % 4 = 0 ∧ (year % 100 ≠ 0 ∨ year % 400 = 0) then 29 else 28
  else if month = 4 ∨ month = 6 ∨ month = 9 ∨ month = 11 then 30
  else 31

/-- The rest after a calendar date. -/
def date? (b : Bytes) : Option Bytes := do
  let (year, b) ← fixedDigits? 4 b
  let (month, b) ← fixedDigits? 2 (← expect? '-' b)
  let (day, b) ← fixedDigits? 2 (← expect? '-' b)
  if month < 1 ∨ 12 < month ∨ day < 1 ∨ daysIn year month < day then none else some b

/-- The rest after seconds with an optional fraction. -/
def seconds? (b : Bytes) : Option Bytes := do
  let (seconds, b) ← fixedDigits? 2 b
  if 59 < seconds then none
  match b with
  | p :: d :: rest =>
    if p = ofChar '.' ∧ isDigit d then some (rest.dropWhile isDigit) else some b
  | _ => some b

/-- The rest after a time of day; the seconds may be left out. -/
def time? (b : Bytes) : Option Bytes := do
  let (hour, b) ← fixedDigits? 2 b
  let (minute, b) ← fixedDigits? 2 (← expect? ':' b)
  if 23 < hour ∨ 59 < minute then none
  match expect? ':' b with
  | some b => seconds? b
  | none => some b

/-- Whether the text is empty or an offset from universal time. -/
def isOffset (b : Bytes) : Bool :=
  match b with
  | [] => true
  | c :: rest =>
    if c = ofChar 'Z' then rest = []
    else if c = ofChar '+' ∨ c = ofChar '-' then
      match (do
        let (hours, rest) ← fixedDigits? 2 rest
        let (minutes, rest) ← fixedDigits? 2 (← expect? ':' rest)
        if hours ≤ 24 ∧ minutes ≤ 60 ∧ rest = [] then some () else none : Option Unit) with
      | some _ => true
      | none => false
    else false

/-- Whether a lexeme is a date, a time of day, or a date and a time with an optional offset. The
letters may be of either case, and a space may stand between date and time. -/
def isDatetime (b : Bytes) : Bool :=
  let b := b.map fun c =>
    if c = ofChar 'z' then ofChar 'Z'
    else if c = ofChar 't' ∨ c = ofChar ' ' then ofChar 'T'
    else c
  match date? b with
  | some [] => true
  | some rest =>
    match (expect? 'T' rest).bind time? with
    | some rest => isOffset rest
    | none => false
  | none => time? b == some []

end ObjectKernel.Toml
