import ObjectKernel.Text.Bytes

/-!
# CBOR data items

The tree of a CBOR document, and its canonical form: definite lengths and the shortest head for
every number.

## Contents

* `Cbor.Item`: a data item. A string keeps the chunks it was sent in.
* `Cbor.head`: the shortest head of a major type and an argument.
* `Cbor.Item.write`: the canonical bytes of an item.
-/

namespace ObjectKernel.Cbor

/-- A data item. `negative n` stands for `-1 - n`; a definite string has one chunk. -/
inductive Item where
  | unsigned (n : Nat)
  | negative (n : Nat)
  | bytes (chunks : List Bytes)
  | text (chunks : List Bytes)
  | array (items : List Item)
  | map (entries : List (Item × Item))
  | tag (number : Nat) (content : Item)
  | simple (n : Nat)
  | float (bits : Bytes)
  deriving Repr

/-- The simple value `null`. -/
def Item.null : Item := .simple 22

/-- The `width` low bytes of a number, the most significant one first. -/
def bigEndian : Nat → Nat → Bytes
  | 0, _ => []
  | width + 1, n => bigEndian width (n / 256) ++ [(n % 256).toUInt8]

/-- The shortest head of a major type with an argument below `2 ^ 64`. -/
def head (major n : Nat) : Bytes :=
  if n < 24 then [(major * 32 + n).toUInt8]
  else if n < 0x100 then (major * 32 + 24).toUInt8 :: bigEndian 1 n
  else if n < 0x10000 then (major * 32 + 25).toUInt8 :: bigEndian 2 n
  else if n < 0x100000000 then (major * 32 + 26).toUInt8 :: bigEndian 4 n
  else (major * 32 + 27).toUInt8 :: bigEndian 8 n

/-- The integer item of a number. -/
def Item.ofInt : Int → Item
  | .ofNat n => .unsigned n
  | .negSucc n => .negative n

/-- The text item of a byte string, which is not checked to be UTF-8. -/
def Item.ofText (b : Bytes) : Item := .text [b]

mutual

/-- The canonical bytes of an item. -/
def Item.write : Item → Bytes
  | .unsigned n => head 0 n
  | .negative n => head 1 n
  | .bytes chunks => head 2 chunks.flatten.length ++ chunks.flatten
  | .text chunks => head 3 chunks.flatten.length ++ chunks.flatten
  | .array items => head 4 items.length ++ Item.writeAll items
  | .map entries => head 5 entries.length ++ Item.writeEntries entries
  | .tag number content => head 6 number ++ content.write
  | .simple n => head 7 n
  | .float bits =>
    if bits.length = 2 then 0xF9 :: bits
    else if bits.length = 4 then 0xFA :: bits
    else 0xFB :: bits

/-- The bytes of a sequence of items. -/
def Item.writeAll : List Item → Bytes
  | [] => []
  | item :: rest => item.write ++ Item.writeAll rest

/-- The bytes of a sequence of map entries. -/
def Item.writeEntries : List (Item × Item) → Bytes
  | [] => []
  | (key, value) :: rest => key.write ++ value.write ++ Item.writeEntries rest

end

end ObjectKernel.Cbor
