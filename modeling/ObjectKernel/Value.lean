import ObjectKernel.Text.Quoted

/-!
# Values

What methods take and return: a type tag, 64 bits for primitives, and a reference for objects. A
program may combine the three freely, so no part determines the others.

## Contents

* `ObjId`: the identity of an object.
* `ValueType`: the tags, with a number and a name each.
* `Value` with its constructors and conversions.
* `Value.primitiveText`: the text of everything but an object.
-/

namespace ObjectKernel

/-- The identity of an object. -/
abbrev ObjId := Nat

/-- The type tag of a value. -/
inductive ValueType where
  | null
  | boolean
  | char
  | int
  | long
  | object
  | unknown (number : Int)
  deriving DecidableEq, Repr

namespace ValueType

/-- The tag with a given number. -/
def ofNumber (n : Int) : ValueType :=
  match n with
  | 0 => null
  | 1 => boolean
  | 2 => char
  | 3 => int
  | 4 => long
  | 5 => object
  | n => unknown n

/-- The name of a tag. -/
def name : ValueType → Bytes
  | null => "null"
  | boolean => "boolean"
  | char => "char"
  | int => "int"
  | long => "long"
  | object => "Object"
  | unknown _ => "unknown"

end ValueType

/-- A value that a method takes or returns. -/
structure Value where
  type : ValueType := .null
  bits : Int64 := 0
  ref : Option ObjId := none
  deriving DecidableEq, Repr

namespace Value

/-- The null reference. -/
def null : Value := {}

/-- A truth value. -/
def ofBool (b : Bool) : Value := { type := .boolean, bits := if b then 1 else 0 }

/-- A character. -/
def ofRune (r : Rune) : Value := { type := .char, bits := r.toInt64 }

/-- A 32-bit integer. -/
def ofInt32 (n : Int32) : Value := { type := .int, bits := n.toInt64 }

/-- A 64-bit integer. -/
def ofInt64 (n : Int64) : Value := { type := .long, bits := n }

/-- A reference to an object. -/
def ofObject (o : ObjId) : Value := { type := .object, ref := some o }

/-- A reference to an object, null for none. -/
def ofRef : Option ObjId → Value
  | none => null
  | some o => ofObject o

/-- Whether a value is the null reference. -/
def isNull (v : Value) : Bool := v.type == .null || (v.type == .object && v.ref.isNone)

/-- The truth of a value: a primitive other than zero, or an object. -/
def asBool (v : Value) : Bool :=
  match v.type with
  | .boolean | .char | .int | .long => v.bits != 0
  | .object => v.ref.isSome
  | .null | .unknown _ => false

/-- The value as a character. -/
def asRune (v : Value) : Rune := v.bits.toInt32

/-- The value as a 32-bit integer. -/
def asInt32 (v : Value) : Int32 := v.bits.toInt32

/-- The value as a 64-bit integer. -/
def asInt64 (v : Value) : Int64 := v.bits

/-- The object that a value refers to, none for primitives and null. -/
def asObject (v : Value) : Option ObjId := if v.type = .object then v.ref else none

/-- The text of a value that needs no dispatch; none when there is an object to ask. -/
def primitiveText (v : Value) : Option Bytes :=
  match v.type with
  | .null => some "null"
  | .boolean => some (if v.bits != 0 then "true" else "false")
  | .char => some (Utf8.encodeRune v.asRune)
  | .int | .long => some (Bytes.ofInt v.bits.toInt)
  | .object | .unknown _ => if v.ref.isNone then some "null" else none

end Value

end ObjectKernel
