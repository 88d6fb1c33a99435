import ObjectKernel.Cbor.Reader
import ObjectKernel.Dictionary
import ObjectKernel.Text.Utf8

/-!
# Shutdown reports

A report lists the threads that a runtime started, as seen after its shutdown barrier. It is stored
as a CBOR map whose keys are small integers.

## Contents

* `ThreadRecord`, `Report`: the data. `threads = none` is a report without a thread list, which
  differs from one with an empty list.
* `Report.toItem`, `Report.encode`: the canonical bytes. An empty `uncaught` is left out.
* `Report.ofItem?`, `Report.decode?`: the reader. It also takes forms that the writer never
  produces: text keys that spell a field's number, unknown and repeated keys, tags, big numbers,
  `null` for an absent value.
-/

namespace ObjectKernel

/-- One thread's entry in a report. -/
structure ThreadRecord where
  id : Int64 := 0
  name : Bytes := []
  state : Bytes := []
  uncaught : Bytes := []
  deriving DecidableEq, Repr

/-- What a runtime says about its threads. Times are nanoseconds since 1970, and `barriers` counts
the barrier runs so far. -/
structure Report where
  session : Bytes := []
  startedAt : Int64 := 0
  finishedAt : Int64 := 0
  threads : Option (List ThreadRecord) := none
  barriers : Int64 := 0
  deriving DecidableEq, Repr

open Cbor (Item)

/-! ## Writing -/

/-- The map entry of a numbered field. -/
def Report.field (number : Nat) (value : Item) : Item × Item := (.unsigned number, value)

/-- The item of a thread's entry. -/
def ThreadRecord.toItem (t : ThreadRecord) : Item :=
  .map ([Report.field 1 (.ofInt t.id.toInt), Report.field 2 (.ofText t.name),
      Report.field 3 (.ofText t.state)] ++
    if t.uncaught = [] then [] else [Report.field 4 (.ofText t.uncaught)])

/-- The item of a thread list, `null` for none. -/
def Report.threadsItem : Option (List ThreadRecord) → Item
  | none => .null
  | some ts => .array (ts.map ThreadRecord.toItem)

/-- The item of a report. -/
def Report.toItem (r : Report) : Item :=
  .map [Report.field 1 (.ofText r.session), Report.field 2 (.ofInt r.startedAt.toInt),
    Report.field 3 (.ofInt r.finishedAt.toInt), Report.field 4 (Report.threadsItem r.threads),
    Report.field 5 (.ofInt r.barriers.toInt)]

/-- The canonical bytes of a report. -/
def Report.encode (r : Report) : Bytes := r.toItem.write

/-! ## Reading -/

namespace Cbor

/-- The tag that marks a document as CBOR and means nothing else. -/
def selfDescribed : Nat := 55799

/-- Whether the content of a tag has the type that the tag prescribes. -/
def tagFits (number : Nat) (content : Item) : Bool :=
  match number, content with
  | 0, .text _ => true
  | 0, _ => false
  | 1, .unsigned _ | 1, .negative _ | 1, .float _ => true
  | 1, _ => false
  | 2, .bytes _ | 3, .bytes _ => true
  | 2, _ | 3, _ => false
  | _, _ => true

/-- The item without its tags, except the tags of big numbers; none when a tag does not fit. -/
def Item.untagged? : Item → Option Item
  | .tag number content =>
    if number = selfDescribed then content.untagged?
    else if !tagFits number content then none
    else if number = 2 ∨ number = 3 then some (.tag number content)
    else content.untagged?
  | item => some item

/-- Whether an item stands for an absent value: `null` or `undefined`. -/
def Item.isAbsent : Item → Bool
  | .simple n => n == 22 || n == 23
  | _ => false

/-- A number as a 64-bit integer, none when it does not fit. -/
def int64? (n : Int) : Option Int64 :=
  if Number.fits n then some (Int64.ofInt n) else none

/-- The integer that an item holds. A simple value other than a truth value counts as its number,
and an absent value as zero. -/
def Item.int? (item : Item) : Option Int64 := do
  match ← item.untagged? with
  | .unsigned n => int64? n
  | .negative n => int64? (-1 - n)
  | .simple n =>
    if n = 22 ∨ n = 23 then some 0
    else if n = 20 ∨ n = 21 then none
    else int64? n
  | .tag 2 (.bytes chunks) => int64? (ofBigEndian chunks.flatten)
  | .tag 3 (.bytes chunks) => int64? (-1 - ofBigEndian chunks.flatten)
  | _ => none

/-- The text of chunks that are each well-formed. -/
def chunksText? (chunks : List Bytes) : Option Bytes :=
  if chunks.all Utf8.isValid then some chunks.flatten else none

/-- The text that an item holds, empty for an absent value. -/
def Item.text? (item : Item) : Option Bytes := do
  match ← item.untagged? with
  | .text chunks => chunksText? chunks
  | other => if other.isAbsent then some [] else none

/-- The field number that a map key names: `some none` for a key that names no field. -/
def Item.fieldNumber? (fields : List Nat) : Item → Option (Option Nat)
  | .unsigned n => some (if n ∈ fields then some n else none)
  | .negative n => if n < Number.signedLimit then some none else none
  | .text chunks => do
    let key ← chunksText? chunks
    some (fields.find? fun n => Bytes.ofNat n = key)
  | _ => none

/-- The values of the given fields in a map; the first value of a field counts. -/
def fieldValues? (fields : List Nat) : List (Item × Item) → Option (Dictionary Nat Item)
  | [] => some []
  | (key, value) :: rest => do
    let number ← key.fieldNumber? fields
    let later ← fieldValues? fields rest
    match number with
    | none => some later
    | some n => some (later.insert n value)

/-- Decodes a field, with a default for one that is missing. -/
def decodeField {α : Type} (values : Dictionary Nat Item) (number : Nat) (default : α)
    (decode : Item → Option α) : Option α :=
  match values.get? number with
  | none => some default
  | some item => decode item

end Cbor

open Cbor (fieldValues? decodeField)

/-- Reads a thread's entry; an absent value is an entry with nothing in it. -/
def ThreadRecord.ofItem? (item : Item) : Option ThreadRecord := do
  match ← item.untagged? with
  | .map entries =>
    let values ← fieldValues? [1, 2, 3, 4] entries
    some {
      id := ← decodeField values 1 0 Item.int?
      name := ← decodeField values 2 [] Item.text?
      state := ← decodeField values 3 [] Item.text?
      uncaught := ← decodeField values 4 [] Item.text? }
  | other => if other.isAbsent then some {} else none

/-- Reads a thread list; an absent value is no list. -/
def Report.threadsOfItem? (item : Item) : Option (Option (List ThreadRecord)) := do
  match ← item.untagged? with
  | .array items => some (some (← items.mapM ThreadRecord.ofItem?))
  | other => if other.isAbsent then some none else none

/-- Reads a report; an absent value is a report with nothing in it. -/
def Report.ofItem? (item : Item) : Option Report := do
  match ← item.untagged? with
  | .map entries =>
    let values ← fieldValues? [1, 2, 3, 4, 5] entries
    some {
      session := ← decodeField values 1 [] Item.text?
      startedAt := ← decodeField values 2 0 Item.int?
      finishedAt := ← decodeField values 3 0 Item.int?
      threads := ← decodeField values 4 none Report.threadsOfItem?
      barriers := ← decodeField values 5 0 Item.int? }
  | other => if other.isAbsent then some {} else none

/-- Reads the bytes of a report. -/
def Report.decode? (b : Bytes) : Option Report := do Report.ofItem? (← Cbor.read? b)

end ObjectKernel
