import ObjectKernel.Dictionary
import ObjectKernel.Toml.Literal

/-!
# TOML documents

The tables that the lines of a document build, and the keys they mention in order. A header or a
dotted key makes the tables on its way, and these keys are only implied. An implied key may be defined
later, once: it keeps its table, unless an array was noted for it, which gives way to the new value.
Any other key that is defined twice, or used as a table without being one, makes the document invalid.

## Contents

* `Toml.Value`: values with their tables; `[[key]]` headers make lists of tables.
* `Toml.Builder`: the tables so far, with the keys that were only implied and those of arrays.
* `Toml.Document`, `Toml.parse?`: the tables and the mentioned keys of a text.
* `Toml.Document.defines`: whether a key has a value.
* `Toml.shown`: the written form of a key.
-/

namespace ObjectKernel.Toml

/-- A value. `tables` is what `[[key]]` headers build; its last table is the open one. -/
inductive Value where
  | text (b : Bytes)
  | integer (n : Int)
  | float
  | boolean (b : Bool)
  | datetime
  | array (items : List Value)
  | table (entries : List (Bytes × Value))
  | tables (items : List (List (Bytes × Value)))
  deriving Repr

/-- The entries of a table. -/
abbrev Table := Dictionary Bytes Value

/-- The table that a value is or has open. -/
def Value.open? : Value → Option Table
  | .table entries => some entries
  | .tables items => items.getLast?
  | _ => none

/-- The value with its table, or its open one, replaced. -/
def Value.withOpen (t : Table) : Value → Value
  | .tables items => .tables (items.dropLast ++ [t])
  | _ => .table t

/-- The table that a key leads to. -/
def Table.descend? : Table → Key → Option Table
  | t, [] => some t
  | t, k :: rest => do
    let next ← (← t.get? k).open?
    Table.descend? next rest

/-- The table with a change made to the table that a key leads to. -/
def Table.modify? (f : Table → Option Table) : Table → Key → Option Table
  | t, [] => f t
  | t, k :: rest => do
    let v ← t.get? k
    let next ← Table.modify? f (← v.open?) rest
    some (t.insert k (v.withOpen next))

/-- The tables so far, the keys that are only implied by others, the keys for which an array was noted
last, and the keys mentioned, the last one first. -/
structure Builder where
  root : Table := []
  implied : List Key := []
  arrays : List Key := []
  mentioned : List Key := []

namespace Builder

/-- Whether a key has a value. -/
def has (b : Builder) (context : Key) (k : Bytes) : Option Bool := do
  some ((← b.root.descend? context).get? k).isSome

/-- Sets a key without looking whether it has a value. -/
def put? (b : Builder) (context : Key) (k : Bytes) (v : Value) : Option Builder := do
  let root ← Table.modify? (fun t => some (t.insert k v)) b.root context
  some { b with root }

/-- Marks a key as implied. -/
def imply (b : Builder) (key : Key) : Builder := { b with implied := key :: b.implied }

/-- Takes back every such mark. -/
def confirm (b : Builder) (key : Key) : Builder :=
  { b with implied := b.implied.filter (· ≠ key) }

/-- Mentions a key. -/
def mention (b : Builder) (key : Key) : Builder := { b with mentioned := key :: b.mentioned }

/-- The key for which the kind of a value is noted. An empty part stands for the table it lies in,
except at the top. -/
def notedKey (context : Key) (k : Bytes) : Key :=
  if k = [] ∧ context ≠ [] then context else context ++ [k]

/-- Notes whether the value of a key is an array. -/
def note (b : Builder) (key : Key) (isArray : Bool) : Builder :=
  let others := b.arrays.filter (· ≠ key)
  { b with arrays := if isArray then key :: others else others }

/-- Defines a key. One that is only implied becomes defined: where an array was noted it takes the new
value, and otherwise it keeps its table. Any other key that has a value must not be defined again. -/
def define? (b : Builder) (context : Key) (k : Bytes) (v : Value) : Option Builder := do
  let key := context ++ [k]
  if ← b.has context k then
    if b.implied.contains key then
      if b.arrays.contains key then (b.confirm key).put? context k v else some (b.confirm key)
    else none
  else b.put? context k v

/-- Makes the tables on the way to a key, from a context on. -/
def ensure? (b : Builder) (context : Key) : Key → Option Builder
  | [] => some b
  | k :: rest => do
    let here := context ++ [k]
    let b ← if ← b.has context k then some b
      else (b.put? context k (.table [])).map (·.imply here)
    let _ ← b.root.descend? here
    ensure? b here rest

/-- Opens the table of a key. -/
def openTable? (b : Builder) (key : Key) : Option Builder := do
  let last ← key.getLast?
  let b ← b.ensure? [] key.dropLast
  b.define? key.dropLast last (.table [])

/-- Opens a further table in the list of a key. -/
def openNext? (b : Builder) (key : Key) : Option Builder := do
  let last ← key.getLast?
  let b ← b.ensure? [] key.dropLast
  match (← b.root.descend? key.dropLast).get? last with
  | none => b.put? key.dropLast last (.tables [[]])
  | some (.tables items) => b.put? key.dropLast last (.tables (items ++ [[]]))
  | some _ => none

/-- Opens the tables that a dotted key names before its last part, each below the one before. -/
def openDotted? (b : Builder) (context : Key) : Key → Option Builder
  | [] => some b
  | k :: rest => do
    let here := context ++ [k]
    let b ← (b.imply here).openTable? here
    openDotted? b here rest

/-- A table with a value at a dotted key. -/
def nest? (t : Table) (v : Value) : Key → Option Table
  | [] => none
  | [k] => some (t.insert k v)
  | k :: rest => do
    let inner : Table ← match t.get? k with
      | none => some []
      | some (.table entries) => some entries
      | some _ => none
    some (t.insert k (.table (← nest? inner v rest)))

mutual

/-- The value of a literal at a key, with the tables inside it made and their keys mentioned. The
flag says whether the literal is an element of an array. An array is noted before its elements are
looked at, since the tables among them are made under its key. -/
def value? (b : Builder) (context : Key) (k : Bytes) (element : Bool) :
    Literal → Option (Value × Builder)
  | .text s => some (.text s, b)
  | .integer n => some (.integer n, b)
  | .float => some (.float, b)
  | .boolean x => some (.boolean x, b)
  | .datetime => some (.datetime, b)
  | .array items => do
    let (values, b) ← values? (b.note (notedKey context k) true) context k items
    some (.array values, b)
  | .inline entries => do
    let here := context ++ [k]
    let b := b.imply here
    let b ← if element then b.openNext? here else b.openTable? here
    let (t, b) ← entries? b here [] entries
    some (.table t, b)

/-- The values of the elements of an array at a key. -/
def values? (b : Builder) (context : Key) (k : Bytes) : List Literal → Option (List Value × Builder)
  | [] => some ([], b)
  | item :: rest => do
    let (v, b) ← value? b context k true item
    let (vs, b) ← values? b context k rest
    some (v :: vs, b)

/-- The entries of an inline table at a key; `t` has the ones before. -/
def entries? (b : Builder) (here : Key) (t : Table) :
    List (Key × Literal) → Option (Table × Builder)
  | [] => some (t, b)
  | (key, literal) :: rest => do
    let last ← key.getLast?
    let context := here ++ key.dropLast
    let b ← b.openDotted? here key.dropLast
    let b := b.mention (context ++ [last])
    let (v, b) ← value? b context last false literal
    let b := (← b.define? context last v).note (notedKey context last) literal.isArray
    entries? b here (← nest? t v key) rest

end

/-- Takes an assignment below a context. -/
def assign? (b : Builder) (context : Key) (key : Key) (literal : Literal) : Option Builder := do
  let last ← key.getLast?
  let here := context ++ key.dropLast
  let b ← b.openDotted? context key.dropLast
  let b := b.mention (here ++ [last])
  let (v, b) ← b.value? here last false literal
  some ((← b.define? here last v).note (notedKey here last) literal.isArray)

/-- Takes the lines of a document; `context` is the table of the last header. -/
def lines? (b : Builder) (context : Key) : List Line → Option Builder
  | [] => some b
  | .table key :: rest => do
    lines? (((← b.openTable? key).note key false).mention key) key rest
  | .tableArray key :: rest => do
    lines? (((← b.openNext? key).note key false).mention key) key rest
  | .assign key literal :: rest => do lines? (← b.assign? context key literal) context rest

end Builder

/-- The tables of a document and the keys it mentions, in order. -/
structure Document where
  root : Table := []
  keys : List Key := []

/-- The document of a text. -/
def parse? (b : Bytes) : Option Document := do
  let built ← Builder.lines? {} [] (← lines? b)
  some ⟨built.root, built.mentioned.reverse⟩

/-- Whether a key has a value, by way of tables alone. -/
def Table.defines : Table → Key → Bool
  | _, [] => false
  | t, [k] => (t.get? k).isSome
  | t, k :: rest =>
    match t.get? k with
    | some (.table entries) => Table.defines entries rest
    | _ => false

/-! ## Written keys -/

/-- The escape of a character inside a quoted key part. -/
def escaped (c : UInt8) : Bytes :=
  if c = 0x22 ∨ c = 0x5C then [0x5C, c]
  else if c = 0x08 then "\\b"
  else if c = 0x09 then "\\t"
  else if c = 0x0A then "\\n"
  else if c = 0x0C then "\\f"
  else if c = 0x0D then "\\r"
  else if c.toNat < 0x20 ∨ c = 0x7F then "\\u" ++ Bytes.hexPadded 4 c.toNat
  else [c]

/-- A part of a key as it is written: in double quotes unless it is a bare word. -/
def shownPart (part : Bytes) : Bytes :=
  if part ≠ [] ∧ part.all isBare then part
  else [0x22] ++ part.flatMap escaped ++ [0x22]

/-- A key as it is written. -/
def shown (key : Key) : Bytes := Bytes.joinWith "." (key.map shownPart)

end ObjectKernel.Toml
