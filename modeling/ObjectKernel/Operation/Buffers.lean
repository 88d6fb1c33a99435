import ObjectKernel.Operation.Texts

/-!
# Buffers

Appending never fails by itself: a buffer that may not grow keeps the failure, which `toString()` and
the calls through dispatch report. A call appends and looks at the failure in two steps.

## Contents

* `Op.append`, `Op.appendText`, `Op.appendObject`: appending directly.
* `Op.appended`: what a call through dispatch answers.
* `Op.bufferText`, `Op.newBufferFrom`.
-/

namespace ObjectKernel.Op

/-- An object that has to be a buffer. -/
def needBuffer (o : Option ObjId) : Op ObjId :=
  match o with
  | none => defect .nullDereference
  | some o => do
    match ← observe fun w => (w.buffer? o, w.shapeOf o) with
    | (some _, _) => pure o
    | (none, shape) => defect (.wrongShape shape "*runtime.StringBuffer")

/-- The runtime of a buffer. -/
def bufferHome (o : ObjId) : Op (Option RuntimeId) :=
  observe fun w => (w.buffer? o).bind Prod.fst

/-- Appends characters. -/
def append (o : ObjId) (cs : List Rune) : Op Unit := do ofPanic (← perform (.append o cs))

/-- Appends the characters of a text. -/
def appendBytes (o : ObjId) (b : Bytes) : Op Unit := append o (Utf8.decode b)

/-- Appends the characters of a string, or of null. -/
def appendText (o : ObjId) (s : Option ObjId) : Op Unit := do
  let s ← match s with
    | some s => pure s
    | none => nullText (← bufferHome o)
  append o (← needText (some s)).2.chars

/-- Appends the rendering of an object. A rendering that fails leaves the buffer as it is. -/
def appendObject (o : ObjId) (other : Option ObjId) : Op Unit := do
  let s ← renderObject (← bufferHome o) other
  appendText o (some s)

/-- The answer of an appending call: the failure that stopped the buffer, or the buffer. -/
def appended (o : ObjId) : Op Value := do
  match ← observe fun w => (w.buffer? o).bind (·.2.failure) with
  | some e => throw e
  | none => pure (.ofObject o)

/-- A new string with the content of a buffer. -/
def bufferText (o : ObjId) : Op ObjId := do ofStop (← perform (.bufferText o))

/-- A new buffer. -/
def newBuffer (home : Option RuntimeId) : Op ObjId := do
  let home ← need home
  ofPanic (← perform (.newBuffer home))

/-- A new buffer with the content of a string, if there is one. -/
def newBufferFrom (home : Option RuntimeId) (s : Option ObjId) : Op ObjId := do
  let o ← newBuffer home
  if s.isSome then appendText o s
  return o

end ObjectKernel.Op
