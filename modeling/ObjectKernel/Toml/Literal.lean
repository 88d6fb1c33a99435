import ObjectKernel.Toml.Scalar

/-!
# TOML text

The lines of a TOML document as they stand in the text: table headers and assignments with their
literal values. What the keys mean, and which of them clash, is decided afterwards.

## Contents

* `Toml.Literal`, `Toml.Line`: values and lines.
* `Toml.isClean`: the characters that a document may consist of.
* `Toml.key?`, `Toml.literal?`: a dotted key and a value from the front of a text.
* `Toml.lines?`: the lines of a whole document.
-/

namespace ObjectKernel.Toml

open Bytes (isDigit hexDigit? ofChar)

/-- A key: the parts between its points. -/
abbrev Key := List Bytes

/-- A value as it stands in the text. Only texts, integers and truth values are of interest beyond
being well-formed. -/
inductive Literal where
  | text (b : Bytes)
  | integer (n : Int)
  | float
  | boolean (b : Bool)
  | datetime
  | array (items : List Literal)
  | inline (entries : List (Key × Literal))
  deriving Repr

/-- Whether a literal is an array. -/
def Literal.isArray : Literal → Bool
  | .array _ => true
  | _ => false

/-- A header or an assignment. -/
inductive Line where
  | table (key : Key)
  | tableArray (key : Key)
  | assign (key : Key) (value : Literal)
  deriving Repr

/-! ## Characters -/

/-- A blank within a line. -/
def isBlank (c : UInt8) : Bool := c == ofChar ' ' || c == ofChar '\t'

/-- A character that ends a line. -/
def isNewline (c : UInt8) : Bool := c == ofChar '\n' || c == ofChar '\r'

/-- A character of a key without quotes. -/
def isBare (c : UInt8) : Bool :=
  (ofChar 'A' ≤ c && c ≤ ofChar 'Z') || (ofChar 'a' ≤ c && c ≤ ofChar 'z') || isDigit c ||
    c == ofChar '_' || c == ofChar '-'

/-- Whether the text has no control character besides tabs and line ends; a carriage return is only
allowed before a line feed. -/
def controlsFit : Bytes → Bool
  | [] => true
  | c :: rest =>
    let fits :=
      if c = ofChar '\r' then rest.head? == some (ofChar '\n')
      else if c = ofChar '\t' ∨ c = ofChar '\n' then true
      else decide (0x20 ≤ c.toNat ∧ c.toNat ≠ 0x7F)
    fits && controlsFit rest

/-- Whether a document consists of characters that TOML allows. -/
def isClean (b : Bytes) : Bool := Utf8.isValid b && controlsFit b

/-- The document without a byte order mark. -/
def withoutMark (b : Bytes) : Bytes :=
  match b with
  | 0xFF :: 0xFE :: rest => rest
  | 0xFE :: 0xFF :: rest => rest
  | 0xEF :: 0xBB :: 0xBF :: rest => rest
  | _ => b

/-- The text after blanks. -/
def skipBlanks (b : Bytes) : Bytes := b.dropWhile isBlank

/-- The text after blanks, line ends and comments; the flag says whether it starts in a comment. -/
def skipLayout : Bool → Bytes → Bytes
  | _, [] => []
  | true, c :: rest => if isNewline c then skipLayout false rest else skipLayout true rest
  | false, c :: rest =>
    if isBlank c || isNewline c then skipLayout false rest
    else if c = ofChar '#' then skipLayout true rest
    else c :: rest

/-! ## Texts -/

/-- The code point that exactly `n` hexadecimal digits name, as bytes. -/
def unicode? (n : Nat) (b : Bytes) : Option (Bytes × Bytes) := do
  if b.length < n then none
  let digits ← (b.take n).mapM hexDigit?
  let code := Bytes.ofDigits 16 digits
  if code ≤ 0x10FFFF ∧ ¬ (0xD800 ≤ code ∧ code ≤ 0xDFFF) then
    some (Utf8.encodeCode code, b.drop n)
  else none

/-- What an escape after a backslash stands for. -/
def escape? : Bytes → Option (Bytes × Bytes)
  | [] => none
  | c :: rest =>
    if c = ofChar 'b' then some ([0x08], rest)
    else if c = ofChar 't' then some ([0x09], rest)
    else if c = ofChar 'n' then some ([0x0A], rest)
    else if c = ofChar 'f' then some ([0x0C], rest)
    else if c = ofChar 'r' then some ([0x0D], rest)
    else if c = ofChar 'e' then some ([0x1B], rest)
    else if c = ofChar '"' ∨ c = ofChar '\\' then some ([c], rest)
    else if c = ofChar 'x' then unicode? 2 rest
    else if c = ofChar 'u' then unicode? 4 rest
    else if c = ofChar 'U' then unicode? 8 rest
    else none

/-- A text between double quotes, from after the opening one. -/
def basicText? : Nat → Bytes → Option (Bytes × Bytes)
  | 0, _ => none
  | _ + 1, [] => none
  | fuel + 1, c :: rest =>
    if c = ofChar '"' then some ([], rest)
    else if isNewline c then none
    else if c = ofChar '\\' then do
      let (piece, rest) ← escape? rest
      let (tail, rest) ← basicText? fuel rest
      some (piece ++ tail, rest)
    else do
      let (tail, rest) ← basicText? fuel rest
      some (c :: tail, rest)

/-- A text between single quotes, from after the opening one. -/
def rawText? (b : Bytes) : Option (Bytes × Bytes) :=
  let content := b.takeWhile fun c => c ≠ ofChar '\'' && !isNewline c
  match b.drop content.length with
  | c :: rest => if c = ofChar '\'' then some (content, rest) else none
  | [] => none

/-- The text without a line end at its front. -/
def dropNewline (b : Bytes) : Bytes :=
  match b with
  | 0x0A :: rest => rest
  | 0x0D :: 0x0A :: rest => rest
  | _ => b

/-- The number of quotes at the front. -/
def quotesAhead (quote : UInt8) (b : Bytes) : Nat := (b.takeWhile (· == quote)).length

/-- The most quotes that may stand together at the end of a text between triple quotes, with the
closing ones: one more than usual right after an escaped backslash. -/
def mostQuotes (afterBackslash : Bool) : Nat := if afterBackslash then 6 else 5

/-- A text between triple double quotes, from after the opening ones; the flag says whether an escaped
backslash stands right before. Some quotes may stand right before the closing ones, and a backslash
takes away the blanks and line ends after it up to the next character. -/
def basicBlock? : Nat → Bool → Bytes → Option (Bytes × Bytes)
  | 0, _, _ => none
  | _ + 1, _, [] => none
  | fuel + 1, afterBackslash, c :: rest =>
    if c = ofChar '"' then
      let n := quotesAhead c (c :: rest)
      if n > mostQuotes afterBackslash then none
      else if n ≥ 3 then some (List.replicate (n - 3) c, (c :: rest).drop n)
      else do
        let (tail, rest) ← basicBlock? fuel false rest
        some (c :: tail, rest)
    else if c = ofChar '\\' then
      let blanks := rest.takeWhile fun x => isBlank x || isNewline x
      if blanks ≠ [] then
        if blanks.contains (ofChar '\n') then basicBlock? fuel false (rest.drop blanks.length)
        else none
      else do
        let (piece, tail) ← escape? rest
        let (content, rest) ← basicBlock? fuel (rest.head? == some (ofChar '\\')) tail
        some (piece ++ content, rest)
    else do
      let (tail, rest) ← basicBlock? fuel false rest
      some (c :: tail, rest)

/-- A text between triple single quotes, from after the opening ones. -/
def rawBlock? : Bytes → Option (Bytes × Bytes)
  | [] => none
  | c :: rest =>
    if c = ofChar '\'' then
      let n := quotesAhead c (c :: rest)
      if n ≥ 6 then none
      else if n ≥ 3 then some (List.replicate (n - 3) c, (c :: rest).drop n)
      else do
        let (tail, rest) ← rawBlock? rest
        some (c :: tail, rest)
    else do
      let (tail, rest) ← rawBlock? rest
      some (c :: tail, rest)

/-- A text value whose first quote has been read. -/
def quoted? (quote : UInt8) (b : Bytes) : Option (Bytes × Bytes) :=
  match b with
  | x :: y :: rest =>
    if x = quote ∧ y = quote then
      if quote = ofChar '"' then basicBlock? (rest.length + 1) false (dropNewline rest)
      else rawBlock? (dropNewline rest)
    else if quote = ofChar '"' then basicText? (b.length + 1) b
    else rawText? b
  | _ => if quote = ofChar '"' then basicText? (b.length + 1) b else rawText? b

/-! ## Keys -/

/-- One part of a key: bare, or a text between single or double quotes. -/
def keyPart? (b : Bytes) : Option (Bytes × Bytes) :=
  match b with
  | [] => none
  | c :: rest =>
    if c = ofChar '"' then basicText? b.length rest
    else if c = ofChar '\'' then rawText? rest
    else
      let part := b.takeWhile isBare
      if part = [] then none else some (part, b.drop part.length)

/-- A dotted key, with blanks allowed around its points. -/
def key? : Nat → Bytes → Option (Key × Bytes)
  | 0, _ => none
  | fuel + 1, b => do
    let (part, rest) ← keyPart? (skipBlanks b)
    match skipBlanks rest with
    | [] => some ([part], [])
    | c :: tail =>
      if c = ofChar '.' then
        let (parts, rest) ← key? fuel tail
        some (part :: parts, rest)
      else some ([part], c :: tail)

/-! ## Numbers and dates -/

/-- The characters that a float goes on with. -/
def inFloat (c : UInt8) : Bool :=
  isDigit c || [ofChar '_', ofChar '.', ofChar '-', ofChar '+', ofChar 'e', ofChar 'E'].contains c

/-- The characters that a date goes on with. -/
def inDatetime (c : UInt8) : Bool :=
  isDigit c || [ofChar '-', ofChar ':', ofChar 'T', ofChar 't', ofChar ' ', ofChar '.', ofChar 'Z',
    ofChar 'z', ofChar '+'].contains c

/-- Cuts the characters with a property off the front. -/
def cut (p : UInt8 → Bool) (b : Bytes) : Bytes × Bytes := (b.takeWhile p, b.dropWhile p)

/-- The text without blanks at its end. -/
def trimEnd (b : Bytes) : Bytes := (b.reverse.dropWhile (· == ofChar ' ')).reverse

/-- An integer literal from its lexeme. -/
def integerLiteral? (lexeme rest : Bytes) : Option (Literal × Bytes) :=
  (integer? lexeme).map fun n => (.integer n, rest)

/-- A float literal from its lexeme. -/
def floatLiteral? (lexeme rest : Bytes) : Option (Literal × Bytes) :=
  if isFloat lexeme then some (.float, rest) else none

/-- A decimal number with the given sign before it: an integer, or a float when a point or an
exponent follows. -/
def decimal? (sign b : Bytes) : Option (Literal × Bytes) :=
  let (digits, rest) := cut (fun c => isDigit c || c == ofChar '_') b
  match rest with
  | c :: _ =>
    if c = ofChar '.' ∨ c = ofChar 'e' ∨ c = ofChar 'E' then
      let (tail, rest) := cut inFloat rest
      floatLiteral? (sign ++ digits ++ tail) rest
    else integerLiteral? (sign ++ digits) rest
  | [] => integerLiteral? (sign ++ digits) []

/-- A number or a date that starts with a digit. -/
def numberOrDate? (b : Bytes) : Option (Literal × Bytes) :=
  let based : Bool := match b with
    | z :: x :: _ =>
      z == ofChar '0' && (x == ofChar 'x' || x == ofChar 'o' || x == ofChar 'b')
    | _ => false
  if based then
    let (digits, rest) := cut (fun c => (hexDigit? c).isSome || c == ofChar '_') (b.drop 2)
    let base := (baseOf b).1
    let inBase := digits.takeWhile fun c =>
      c == ofChar '_' || (hexDigit? c).any (· < base)
    if inBase.head?.all (· == ofChar '_') then none
    else integerLiteral? (b.take 2 ++ inBase) (digits.drop inBase.length ++ rest)
  else
    match b.dropWhile isDigit with
    | c :: _ =>
      if c = ofChar '-' ∨ c = ofChar ':' then
        let (lexeme, rest) := cut inDatetime b
        if isDatetime (trimEnd lexeme) then some (.datetime, rest) else none
      else decimal? [] b
    | [] => decimal? [] b

/-- A number with a sign, or a signed infinity or not-a-number. -/
def signed? (sign : UInt8) (b : Bytes) : Option (Literal × Bytes) :=
  match Bytes.after? "inf" b, Bytes.after? "nan" b with
  | some rest, _ => some (.float, rest)
  | none, some rest => some (.float, rest)
  | none, none =>
    match b with
    | [] => none
    | c :: _ => if isDigit c then decimal? [sign] b else none

/-- A bare word: a truth value, an infinity or a not-a-number. -/
def word? (b : Bytes) : Option (Literal × Bytes) :=
  match Bytes.after? "true" b, Bytes.after? "false" b, Bytes.after? "inf" b, Bytes.after? "nan" b with
  | some rest, _, _, _ => some (.boolean true, rest)
  | none, some rest, _, _ => some (.boolean false, rest)
  | none, none, some rest, _ => some (.float, rest)
  | none, none, none, some rest => some (.float, rest)
  | none, none, none, none => none

/-! ## Values -/

mutual

/-- A value from the front of a text. -/
def literal? : Nat → Bytes → Option (Literal × Bytes)
  | 0, _ => none
  | fuel + 1, b =>
    match skipBlanks b with
    | [] => none
    | c :: rest =>
      if c = ofChar '[' then do
        let (items, rest) ← arrayItems? fuel (skipLayout false rest)
        some (.array items, rest)
      else if c = ofChar '\x7b' then do
        let (entries, rest) ← inlineEntries? fuel (skipLayout false rest)
        some (.inline entries, rest)
      else if c = ofChar '"' ∨ c = ofChar '\'' then
        (quoted? c rest).map fun (content, rest) => (.text content, rest)
      else if c = ofChar '+' ∨ c = ofChar '-' then signed? c rest
      else if isDigit c then numberOrDate? (c :: rest)
      else word? (c :: rest)

/-- The rest of an array, up to its closing bracket. -/
def arrayItems? : Nat → Bytes → Option (List Literal × Bytes)
  | 0, _ => none
  | fuel + 1, b =>
    match b with
    | [] => none
    | c :: rest =>
      if c = ofChar ']' then some ([], rest)
      else do
        let (item, rest) ← literal? fuel b
        match skipLayout false rest with
        | [] => none
        | d :: rest =>
          if d = ofChar ']' then some ([item], rest)
          else if d = ofChar ',' then
            let (items, rest) ← arrayItems? fuel (skipLayout false rest)
            some (item :: items, rest)
          else none

/-- The rest of an inline table, up to its closing brace. -/
def inlineEntries? : Nat → Bytes → Option (List (Key × Literal) × Bytes)
  | 0, _ => none
  | fuel + 1, b =>
    match b with
    | [] => none
    | c :: _ =>
      if c = ofChar '\x7d' then some ([], b.drop 1)
      else do
        let (key, rest) ← key? b.length b
        let (value, rest) ← literal? fuel (← expect? '=' rest)
        match skipLayout false rest with
        | [] => none
        | d :: rest =>
          if d = ofChar '\x7d' then some ([(key, value)], rest)
          else if d = ofChar ',' then
            let (entries, rest) ← inlineEntries? fuel (skipLayout false rest)
            some ((key, value) :: entries, rest)
          else none

end

/-! ## Documents -/

/-- The text of the next line, when nothing but blanks and a comment is left on this one. -/
def lineEnd? (b : Bytes) : Option Bytes :=
  match skipBlanks b with
  | [] => some []
  | c :: rest =>
    if isNewline c then some rest
    else if c = ofChar '#' then some (skipLayout true rest)
    else none

/-- A header, from after its first bracket. -/
def header? (b : Bytes) : Option (Line × Bytes) := do
  match b with
  | [] => none
  | c :: rest =>
    if c = ofChar '[' then
      let (key, rest) ← key? rest.length rest
      some (.tableArray key, ← expect? ']' (← expect? ']' rest))
    else
      let (key, rest) ← key? b.length b
      some (.table key, ← expect? ']' rest)

/-- An assignment. -/
def assignment? (b : Bytes) : Option (Line × Bytes) := do
  let (key, rest) ← key? b.length b
  let rest ← expect? '=' rest
  let (value, rest) ← literal? (2 * rest.length + 2) rest
  some (.assign key value, rest)

/-- The lines from a place between lines on. -/
def linesFrom? : Nat → Bytes → Option (List Line)
  | 0, _ => none
  | fuel + 1, b =>
    match skipLayout false b with
    | [] => some []
    | c :: rest => do
      let (line, rest) ← if c = ofChar '[' then header? rest else assignment? (c :: rest)
      let lines ← linesFrom? fuel (← lineEnd? rest)
      some (line :: lines)

/-- The lines of a document. -/
def lines? (b : Bytes) : Option (List Line) :=
  let b := withoutMark b
  if isClean b then linesFrom? (b.length + 1) b else none

end ObjectKernel.Toml
