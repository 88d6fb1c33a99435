import ObjectKernel.Cbor.Item
import ObjectKernel.Text.Number

/-!
# Reading CBOR

A byte string is read as exactly one data item. Reading refuses what is not well-formed, nesting
deeper than `maxDepth`, and arrays and maps longer than `maxElements`. A head need not be the
shortest one.

## Contents

* `Cbor.Head`, `Cbor.head?`: the initial byte and the argument of an item.
* `Cbor.item?`: one item from the front of a byte string.
* `Cbor.read?`: the item that a whole byte string consists of.
-/

namespace ObjectKernel.Cbor

/-- The greatest number of arrays, maps and inner tags around an item. -/
def maxDepth : Nat := 32

/-- The greatest number of elements of an array and of entries of a map. -/
def maxElements : Nat := 131072

/-- The start of an item: its major type, the additional information of the initial byte, the
argument, and the bytes that spell the argument. -/
structure Head where
  major : Nat
  info : Nat
  argument : Nat
  spelled : Bytes
  deriving DecidableEq, Repr

/-- Splits off exactly `n` bytes. -/
def take? (n : Nat) (b : Bytes) : Option (Bytes × Bytes) :=
  if n ≤ b.length then some (b.take n, b.drop n) else none

/-- The number that bytes spell, the most significant one first. -/
def ofBigEndian (b : Bytes) : Nat := Bytes.ofDigits 256 (b.map UInt8.toNat)

/-- The number of argument bytes that follow an initial byte. -/
def argumentWidth? (info : Nat) : Option Nat :=
  match info with
  | 24 => some 1
  | 25 => some 2
  | 26 => some 4
  | 27 => some 8
  | _ => none

/-- The head at the front of a byte string. Additional information 31 is left to the items that may
have an indefinite length. -/
def head? : Bytes → Option (Head × Bytes)
  | [] => none
  | b :: rest =>
    let major := b.toNat / 32
    let info := b.toNat % 32
    if info < 24 then some (⟨major, info, info, []⟩, rest)
    else if info = 31 then
      if 2 ≤ major ∧ major ≤ 5 then some (⟨major, info, 0, []⟩, rest) else none
    else do
      let width ← argumentWidth? info
      let (spelled, rest) ← take? width rest
      let argument := ofBigEndian spelled
      if major = 7 ∧ info = 24 ∧ argument < 32 then none
      some (⟨major, info, argument, spelled⟩, rest)

/-- The byte that ends an item of indefinite length. -/
def breakByte : UInt8 := 0xFF

/-- The chunks of a string of indefinite length: definite strings of the same major type. -/
def chunks? (major : Nat) : Nat → List Bytes → Bytes → Option (List Bytes × Bytes)
  | 0, _, _ => none
  | _, _, [] => none
  | fuel + 1, acc, b@(first :: rest) =>
    if first = breakByte then some (acc.reverse, rest)
    else do
      let (h, after) ← head? b
      if h.major ≠ major ∨ h.info = 31 then none
      if h.argument ≥ Number.signedLimit then none
      let (chunk, after) ← take? h.argument after
      chunks? major fuel (chunk :: acc) after

/-- The entries of a map from its keys and values in turn. -/
def entries? : List Item → Option (List (Item × Item))
  | [] => some []
  | [_] => none
  | key :: value :: rest => (entries? rest).map ((key, value) :: ·)

mutual

/-- One item from the front of a byte string, inside `depth` levels. -/
def item? : Nat → Nat → Bytes → Option (Item × Bytes)
  | 0, _, _ => none
  | fuel + 1, depth, b => do
    let (h, rest) ← head? b
    match h.major with
    | 0 => some (.unsigned h.argument, rest)
    | 1 => some (.negative h.argument, rest)
    | 2 =>
      if h.info = 31 then
        let (chunks, rest) ← chunks? 2 fuel [] rest
        some (.bytes chunks, rest)
      else
        if h.argument ≥ Number.signedLimit then none
        let (chunk, rest) ← take? h.argument rest
        some (.bytes [chunk], rest)
    | 3 =>
      if h.info = 31 then
        let (chunks, rest) ← chunks? 3 fuel [] rest
        some (.text chunks, rest)
      else
        if h.argument ≥ Number.signedLimit then none
        let (chunk, rest) ← take? h.argument rest
        some (.text [chunk], rest)
    | 4 =>
      if depth + 1 > maxDepth then none
      if h.info = 31 then
        let (items, rest) ← itemsToBreak? fuel (depth + 1) [] rest
        if items.length > maxElements then none
        some (.array items, rest)
      else
        if h.argument > maxElements then none
        let (items, rest) ← items? fuel (depth + 1) h.argument [] rest
        some (.array items, rest)
    | 5 =>
      if depth + 1 > maxDepth then none
      if h.info = 31 then
        let (items, rest) ← itemsToBreak? fuel (depth + 1) [] rest
        if items.length / 2 > maxElements then none
        let entries ← entries? items
        some (.map entries, rest)
      else
        if h.argument > maxElements then none
        let (items, rest) ← items? fuel (depth + 1) (2 * h.argument) [] rest
        let entries ← entries? items
        some (.map entries, rest)
    | 6 =>
      let (content, rest) ← tagged? fuel depth rest
      some (.tag h.argument content, rest)
    | _ =>
      if 25 ≤ h.info ∧ h.info ≤ 27 then some (.float h.spelled, rest)
      else some (.simple h.argument, rest)

/-- The content of a tag. A tag directly inside a tag is a level of its own. -/
def tagged? : Nat → Nat → Bytes → Option (Item × Bytes)
  | 0, _, _ => none
  | fuel + 1, depth, b => do
    let (h, rest) ← head? b
    if h.major = 6 then
      if depth + 1 > maxDepth then none
      let (content, rest) ← tagged? fuel (depth + 1) rest
      some (.tag h.argument content, rest)
    else item? fuel depth b

/-- Exactly `n` items; `acc` holds the ones before them, the last one first. -/
def items? : Nat → Nat → Nat → List Item → Bytes → Option (List Item × Bytes)
  | 0, _, _, _, _ => none
  | fuel + 1, depth, n, acc, b =>
    match n with
    | 0 => some (acc.reverse, b)
    | n + 1 =>
      match item? fuel depth b with
      | none => none
      | some (item, rest) => items? fuel depth n (item :: acc) rest

/-- The items up to a break; `acc` holds the ones before them, the last one first. -/
def itemsToBreak? : Nat → Nat → List Item → Bytes → Option (List Item × Bytes)
  | 0, _, _, _ => none
  | fuel + 1, depth, acc, b =>
    match b with
    | [] => none
    | first :: rest =>
      if first = breakByte then some (acc.reverse, rest)
      else
        match item? fuel depth b with
        | none => none
        | some (item, rest) => itemsToBreak? fuel depth (item :: acc) rest

end

/-- The item that a whole byte string consists of. Every item takes a byte, and no item takes more
than two units of fuel beside those of its parts. -/
def read? (b : Bytes) : Option Item := do
  let (item, rest) ← item? (2 * b.length + 2) 0 b
  if rest = [] then some item else none

end ObjectKernel.Cbor
