import ObjectKernel.Dictionary
import ObjectKernel.Text.Bytes

/-!
# Selectors

A selector is the number of a method signature such as `equals(Object)`. Every table starts with the
same well-known signatures, so that their numbers are constants; others are numbered as they come.

## Contents

* `Selector.equals` and its like: the numbers of the well-known signatures.
* `SelectorTable`: signatures by number and numbers by signature.
* `SelectorTable.find?`, `insert`, `intern`: interning is a look-up and, when it fails, an insertion
  that looks again.
-/

namespace ObjectKernel

/-- The number of a method signature; programs may use numbers that no signature has. -/
abbrev Selector := Int

namespace Selector

/-- The number of `equals(Object)`. -/
def equals : Selector := 0

/-- The number of `toString()`. -/
def toText : Selector := 1

/-- The number of `hashCode()`. -/
def hashCode : Selector := 2

/-- The number of `charAt(int)`. -/
def charAt : Selector := 3

/-- The number of `length()`. -/
def length : Selector := 4

/-- The number of `run()`. -/
def run : Selector := 5

/-- The number of `start()`. -/
def start : Selector := 6

/-- The number of `join()`. -/
def join : Selector := 7

/-- The number of `join(long)`. -/
def joinMillis : Selector := 8

/-- The number of `join(long,int)`. -/
def joinNanos : Selector := 9

/-- The number of `isAlive()`. -/
def isAlive : Selector := 10

/-- The number of `append(Object)`. -/
def appendObject : Selector := 11

/-- The number of `append(int)`. -/
def appendInt : Selector := 12

/-- The number of `append(long)`. -/
def appendLong : Selector := 13

/-- The well-known signatures, each at the place of its number. -/
def wellKnown : List Bytes :=
  ["equals(Object)", "toString()", "hashCode()", "charAt(int)", "length()", "run()", "start()",
   "join()", "join(long)", "join(long,int)", "isAlive()", "append(Object)", "append(int)",
   "append(long)"]

end Selector

/-- The signatures interned so far: names by number, and numbers by name. -/
structure SelectorTable where
  names : Array Bytes := #[]
  numbers : Dictionary Bytes Nat := []
  deriving DecidableEq, Repr

namespace SelectorTable

/-- The number of a signature, none when it was never interned. -/
def find? (t : SelectorTable) (name : Bytes) : Option Nat := t.numbers.get? name

/-- Gives a signature the next number unless it has one; returns its number. -/
def insert (t : SelectorTable) (name : Bytes) : Nat × SelectorTable :=
  match t.find? name with
  | some n => (n, t)
  | none =>
    (t.names.size,
      { names := t.names.push name, numbers := t.numbers.insert name t.names.size })

/-- The number of a signature, a new one if it has none. -/
def intern (t : SelectorTable) (name : Bytes) : Nat × SelectorTable :=
  match t.find? name with
  | some n => (n, t)
  | none => t.insert name

/-- The number of a signature, -1 when it was never interned. -/
def lookup (t : SelectorTable) (name : Bytes) : Selector :=
  match t.find? name with
  | some n => n
  | none => -1

/-- The signature with a number, empty for a number that none has. -/
def name (t : SelectorTable) (s : Selector) : Bytes :=
  if 0 ≤ s then (t.names[s.toNat]?).getD [] else []

/-- The number of signatures. -/
def size (t : SelectorTable) : Nat := t.names.size

/-- A table with the well-known signatures. -/
def initial : SelectorTable := Selector.wellKnown.foldl (fun t name => (t.intern name).2) {}

end SelectorTable

end ObjectKernel
