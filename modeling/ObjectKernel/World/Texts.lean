import ObjectKernel.Class.Builtin
import ObjectKernel.World.Objects

/-!
# Strings and buffers

A runtime bounds the length of the strings it makes. The string of a literal is made once and shared;
the text of null is shared in the same way and is exempt from the bound.

## Contents

* `World.config`: the settings of a runtime.
* `World.makeText`, `World.makeNullText`, `World.constant?`, `World.shareConstant`.
* `World.newBuffer`, `World.append`, `World.bufferText`.
-/

namespace ObjectKernel

/-- Why a section of an operation ends without a result. -/
inductive Stop where
  | error (e : Err)
  | panic (p : Panic)
  deriving DecidableEq, Repr

namespace World

/-- The settings of a runtime. -/
def config (w : World) (home : RuntimeId) : Config :=
  match w.runtime? home with
  | some r => r.config
  | none => {}

/-! ## Strings -/

/-- A new string, unless it is longer than its runtime allows. -/
def makeText (w : World) (home : RuntimeId) (op : Bytes) (s : CharSeq) :
    Except Fault (ObjId × World) := do
  CharSeq.bounded (w.config home) op s.length
  return w.create (.text home s) (Builtin.textClass home)

/-- The text of null. -/
def nullLiteral : Bytes := "null"

/-- A new string with the text of null, of whatever length the runtime allows. -/
def makeNullText (w : World) (home : RuntimeId) : ObjId × World :=
  w.create (.text home (.ofBytes nullLiteral)) (Builtin.textClass home)

/-- The shared string of a literal. -/
def constant? (w : World) (home : RuntimeId) (literal : Bytes) : Option ObjId :=
  (w.runtime? home).bind (·.constants.get? literal)

/-- Shares a string under a literal, unless the literal already has one; the shared one is returned. -/
def shareConstant (w : World) (home : RuntimeId) (literal : Bytes) (o : ObjId) : ObjId × World :=
  match w.constant? home literal with
  | some shared => (shared, w)
  | none =>
    (o, w.modifyRuntime home fun r => { r with constants := r.constants.insert literal o })

/-! ## Buffers -/

/-- A new empty buffer, unless there can be no memory for its capacity. -/
def newBuffer (w : World) (home : RuntimeId) : Except Panic (ObjId × World) :=
  let capacity := (w.config home).initialCapacity
  if Memory.hasRoom capacity Memory.characterSize then
    .ok (w.create (.buffer (some home) (.empty capacity)) (Builtin.bufferClass home))
  else .error (.defect .tooManyPlaces)

/-- The world with the content of a buffer changed. -/
def setBuffer (w : World) (o : ObjId) (b : Buffer) : World :=
  w.modifyObject o fun obj =>
    match obj.payload with
    | .buffer home _ => { obj with payload := .buffer home b }
    | _ => obj

/-- Appends characters to a buffer. A buffer without a home cannot grow, for it has no limit to grow
to. -/
def append (w : World) (o : ObjId) (cs : List Rune) : Except Panic World :=
  match w.buffer? o with
  | none => .error (.defect .nullDereference)
  | some (some home, b) => .ok (w.setBuffer o (b.append (w.config home).growthLimit cs))
  | some (none, b) =>
    if b.failure.isSome ∨ b.length + cs.length ≤ b.capacity then .ok (w.setBuffer o (b.append 0 cs))
    else .error (.defect .nullDereference)

/-- A new string with the content of a buffer, or the failure that stopped the buffer. -/
def bufferText (w : World) (o : ObjId) : Except Stop (ObjId × World) :=
  match w.buffer? o with
  | none => .error (.panic (.defect .nullDereference))
  | some (home, b) =>
    match b.failure, home with
    | some e, _ => .error (.error e)
    | none, none => .error (.panic (.defect .nullDereference))
    | none, some home =>
      match w.makeText home "StringBuffer.toString" (.ofRunes b.chars) with
      | .ok r => .ok r
      | .error f => .error (.error (.fault f))

end World

end ObjectKernel
