import ObjectKernel.Demo

/-!
# The command line

Flags begin with one or two dashes and take their value after an equals sign or from the next
argument; a switch takes one only after an equals sign. The first argument that is no flag ends them.

## Contents

* `CommandLine.integer?`: numbers with base prefixes and digit separators.
* `CommandLine.Flag`, `CommandLine.parse`: the arguments as options.
* `CommandLine.usage`.
* `CommandLine.run`: the program with its streams and its exit code.
-/

namespace ObjectKernel.CommandLine

/-! ## Numbers -/

/-- Why a number is refused. -/
inductive NumberError where
  | malformed
  | outOfRange
  deriving DecidableEq, Repr

/-- The wording of a refused number. -/
def NumberError.message : NumberError → Bytes
  | malformed => "parse error"
  | outOfRange => "value out of range"

/-- The byte as a lower-case letter if it is an upper-case one. -/
def lower (b : UInt8) : UInt8 := if Bytes.ofChar 'A' ≤ b ∧ b ≤ Bytes.ofChar 'Z' then b + 32 else b

/-- The value of a digit in any base up to 36. -/
def digitValue? (b : UInt8) : Option Nat :=
  if Bytes.isDigit b then Bytes.digit? b
  else if Bytes.ofChar 'a' ≤ lower b ∧ lower b ≤ Bytes.ofChar 'z' then
    some ((lower b).toNat - 87)
  else none

/-- The digit separator. -/
def separator : UInt8 := Bytes.ofChar '_'

/-- The base that a number announces, and its digits. -/
def basePrefix : Bytes → Nat × Bytes
  | 0x30 :: c :: d :: rest =>
    if lower c = Bytes.ofChar 'b' then (2, d :: rest)
    else if lower c = Bytes.ofChar 'o' then (8, d :: rest)
    else if lower c = Bytes.ofChar 'x' then (16, d :: rest)
    else (8, c :: d :: rest)
  | 0x30 :: rest => (8, rest)
  | digits => (10, digits)

/-- The number that digits denote, read from the left; a digit that leads beyond 64 bits ends the
reading. -/
def magnitude (base : Nat) : Nat → Bytes → Except NumberError Nat
  | n, [] => .ok n
  | n, b :: rest =>
    if b = separator then magnitude base n rest
    else match digitValue? b with
    | none => .error .malformed
    | some d =>
      if base ≤ d then .error .malformed
      else if Number.unsignedLimit ≤ n * base + d then .error .outOfRange
      else magnitude base (n * base + d) rest

/-- Whether every separator in a list of digits stands between digits; `afterDigit` says whether a
digit, or a base, comes before the list. -/
def separated (hex afterDigit : Bool) : Bytes → Bool
  | [] => true
  | b :: rest =>
    if b = separator then
      match rest with
      | [] => false
      | c :: _ =>
        afterDigit && (Bytes.isDigit c || (hex && (Bytes.hexDigit? c).isSome)) &&
          separated hex false rest
    else separated hex (Bytes.isDigit b || (hex && (Bytes.hexDigit? b).isSome)) rest

/-- Whether the separators of a number stand where they may. -/
def wellSeparated (digits : Bytes) : Bool :=
  match digits with
  | 0x30 :: c :: rest =>
    if lower c = Bytes.ofChar 'b' ∨ lower c = Bytes.ofChar 'o' ∨ lower c = Bytes.ofChar 'x' then
      separated (lower c = Bytes.ofChar 'x') true rest
    else separated false false digits
  | _ => separated false false digits

/-- A signed number within 64 bits. -/
def integer? (b : Bytes) : Except NumberError Int := do
  let (negative, digits) := Number.sign b
  if digits = [] then throw .malformed
  let (base, rest) := basePrefix digits
  let n ← magnitude base 0 rest
  if digits.contains separator ∧ !wellSeparated digits then throw .malformed
  let v := Number.signed negative n
  if Number.fits v then return v else throw .outOfRange

/-- A truth value in one of its spellings. -/
def boolean? (b : Bytes) : Option Bool :=
  if b ∈ (["1", "t", "T", "TRUE", "true", "True"] : List Bytes) then some true
  else if b ∈ (["0", "f", "F", "FALSE", "false", "False"] : List Bytes) then some false
  else none

/-! ## Flags -/

/-- How a flag sets an option: from a value, or as a switch. -/
inductive Flag where
  | value (set : Bytes → Demo.Options → Except NumberError Demo.Options)
  | switch (set : Bool → Demo.Options → Demo.Options)

/-- A flag that takes any text. -/
def textFlag (set : Bytes → Demo.Options → Demo.Options) : Flag := .value fun v o => .ok (set v o)

/-- A flag that takes a number. -/
def numberFlag (set : Int → Demo.Options → Demo.Options) : Flag :=
  .value fun v o => do return set (← integer? v) o

/-- The flags by name. -/
def flags : Dictionary Bytes Flag :=
  [("C", textFlag fun v o => { o with configDir := v }),
   ("threads", numberFlag fun v o => { o with workers := v }),
   ("rounds", numberFlag fun v o => { o with rounds := v }),
   ("report", textFlag fun v o => { o with report := v }),
   ("v", .switch fun v o => { o with verbose := v })]

/-- Why a command line is not run. -/
inductive Refusal where
  | help
  | badSyntax (argument : Bytes)
  | undefined (name : Bytes)
  | missingValue (name : Bytes)
  | badNumber (name value : Bytes) (e : NumberError)
  | badSwitch (name value : Bytes)
  deriving DecidableEq, Repr

/-- The line that explains a refusal. -/
def Refusal.message : Refusal → Bytes
  | help => []
  | badSyntax argument => "bad flag syntax: " ++ argument
  | undefined name => "flag provided but not defined: -" ++ name
  | missingValue name => "flag needs an argument: -" ++ name
  | badNumber name value e =>
    "invalid value " ++ Quoted.text value ++ " for flag -" ++ name ++ ": " ++ e.message
  | badSwitch name value =>
    "invalid boolean value " ++ Quoted.text value ++ " for -" ++ name ++ ": " ++
      NumberError.malformed.message

/-- The name of a flag and the value after an equals sign, if any. -/
def splitValue (body : Bytes) : Bytes × Option Bytes :=
  match body with
  | [] => ([], none)
  | c :: rest =>
    let name := rest.takeWhile (· ≠ Bytes.ofChar '=')
    (c :: name, (rest.drop name.length).tail?)

/-- What an argument is: a flag with its body, or the end of the flags. -/
def flagBody? (argument : Bytes) : Option (Except Refusal Bytes) :=
  let dash := Bytes.ofChar '-'
  match argument with
  | [] => none
  | [_] => none
  | a :: b :: rest =>
    if a ≠ dash then none
    else
      let body := if b = dash then rest else b :: rest
      match body with
      | [] => none
      | c :: _ =>
        if c = dash ∨ c = Bytes.ofChar '=' then some (.error (.badSyntax argument))
        else some (.ok body)

/-- Reads the arguments from the left. -/
def parse (o : Demo.Options) : List Bytes → Except Refusal Demo.Options
  | [] => .ok o
  | argument :: rest =>
    match flagBody? argument with
    | none => .ok o
    | some (.error r) => .error r
    | some (.ok body) =>
      let (name, value) := splitValue body
      match flags.get? name, value with
      | none, _ =>
        if name = ("help" : Bytes) ∨ name = ("h" : Bytes) then .error .help
        else .error (.undefined name)
      | some (.switch set), none => parse (set true o) rest
      | some (.switch set), some v =>
        match boolean? v with
        | some b => parse (set b o) rest
        | none => .error (.badSwitch name v)
      | some (.value set), some v =>
        match set v o with
        | .ok o => parse o rest
        | .error e => .error (.badNumber name v e)
      | some (.value set), none =>
        match rest with
        | [] => .error (.missingValue name)
        | v :: rest =>
          match set v o with
          | .ok o => parse o rest
          | .error e => .error (.badNumber name v e)

/-- How the program is used. -/
def usage : Bytes :=
  "Usage: rjdemo [options]\n\n" ++
  "Runs a small multi-threaded program against the rjava runtime.\n\n" ++
  "Options:\n" ++
  "  -C string\n    \tDirectory to search upward for rjava.toml (default \".\")\n" ++
  "  -report string\n    \tWrite a CBOR shutdown report to this path\n" ++
  "  -rounds int\n    \tAppends per worker (default 3)\n" ++
  "  -threads int\n    \tNumber of worker threads (default 4)\n" ++
  "  -v\tVerbose logging\n"

/-! ## Running -/

/-- What a run of the program leaves. -/
structure Result where
  output : Bytes := []
  errors : Bytes := []
  exitCode : UInt8 := 0
  files : Files

/-- A line. -/
def line (b : Bytes) : Bytes := b ++ [Bytes.ofChar '\n']

/-- What is written to the error stream when a command line is refused, and the exit code. -/
def Refusal.report : Refusal → Bytes × UInt8
  | help => (usage, 0)
  | r => (line r.message ++ usage, 2)

/-- What is written to the error stream when the program ends early, and the exit code. -/
def failureReport (f : Demo.Failure) : Bytes × UInt8 :=
  match f with
  | .log _ => (line f.message, 1)
  | .panicked _ => (line ("panic: " ++ f.message), 2)
  | f => (line ("Error: " ++ f.message), 1)

/-- Runs the program with arguments in given surroundings. -/
def run (env : Environment) (fs : Files) (args : List Bytes) : Result :=
  match parse {} args with
  | .error r => { errors := r.report.1, exitCode := r.report.2, files := fs }
  | .ok o =>
    let (outcome, w) := Demo.run { environment := env, files := fs } o
    let output := w.scene.output.reverse.flatten
    let reports := (w.errorReports.reverse.map fun r => line r.text).flatten
    match outcome with
    | .ok _ => { output, errors := reports, files := w.files }
    | .error f =>
      let (last, exitCode) := failureReport f
      { output, errors := reports ++ last, exitCode, files := w.files }

end ObjectKernel.CommandLine
