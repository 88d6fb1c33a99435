import ObjectKernel.Error

/-!
# Character sequences

The content of a string object: its characters, and the bytes of its text. The characters may
include numbers that are no Unicode scalar value; the text has U+FFFD in their place.

## Contents

* `CharSeq`, `CharSeq.ofBytes`, `CharSeq.ofRunes`.
* `CharSeq.charAt`, `concat`, `hashCode`.
* `CharSeq.bounded`: the length limit of a runtime.
-/

namespace ObjectKernel

/-- The content of a string. -/
structure CharSeq where
  chars : List Rune
  text : Bytes
  deriving DecidableEq, Repr

namespace CharSeq

/-- The sequence with the given text. -/
def ofBytes (b : Bytes) : CharSeq := ⟨Utf8.decode b, b⟩

/-- The sequence of the given characters. -/
def ofRunes (rs : List Rune) : CharSeq := ⟨rs, Utf8.encode rs⟩

/-- The number of characters. -/
def length (s : CharSeq) : Nat := s.chars.length

/-- The character at an index. -/
def charAt (s : CharSeq) (index : Int) : Except Fault Rune :=
  if index < 0 then .error (.indexOutOfBounds index s.length)
  else match s.chars[index.toNat]? with
  | some r => .ok r
  | none => .error (.indexOutOfBounds index s.length)

/-- The polynomial in 31 of the characters, in 32-bit arithmetic. -/
def hashCode (s : CharSeq) : Int32 := s.chars.foldl (fun h c => 31 * h + c) 0

/-- Refuses a number of characters above the limit of a configuration. -/
def bounded (c : Config) (op : Bytes) (n : Nat) : Except Fault Unit :=
  match c.exceeded? n with
  | some limit => .error (.tooLong op n limit)
  | none => .ok ()

end CharSeq

end ObjectKernel
