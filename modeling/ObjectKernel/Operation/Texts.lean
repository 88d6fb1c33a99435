import ObjectKernel.Operation.Dispatch

/-!
# Strings and renderings

A value is rendered as its base-ten form, its character, or the string that its `toString()` returns.
Strings are compared by their characters with the rendering of anything.

## Contents

* `Op.newText`, `Op.constant`, `Op.nullText`: making strings.
* `Op.renderObject`, `Op.render`.
* `Op.contentEquals`, `Op.concat`, `Op.charAt`.
-/

namespace ObjectKernel.Op

/-- An object that has to be a string. -/
def needText (o : Option ObjId) : Op (RuntimeId × CharSeq) :=
  match o with
  | none => defect .nullDereference
  | some o => do
    match ← observe fun w => (w.text? o, w.shapeOf o) with
    | (some s, _) => pure s
    | (none, shape) => defect (.wrongShape shape "*runtime.String")

/-- A new string of bounded length. -/
def makeText (home : Option RuntimeId) (op : Bytes) (s : CharSeq) : Op ObjId := do
  let home ← need home
  ofFault (← perform (.makeText home op s))

/-- A new string with the given text. -/
def newText (home : Option RuntimeId) (b : Bytes) : Op ObjId :=
  makeText home "String.<init>" (.ofBytes b)

/-- The shared string of a literal. One that is too long is a defect of the program. -/
def constant (home : Option RuntimeId) (literal : Bytes) : Op ObjId := do
  let r ← need home
  match ← observe fun w => w.constant? r literal with
  | some o => pure o
  | none =>
    match ← result (newText home literal) with
    | .error e => panic (.error e)
    | .ok o => perform (.shareConstant r literal o)

/-- The shared text of null. -/
def nullText (home : Option RuntimeId) : Op ObjId := do
  let r ← need home
  match ← observe fun w => w.constant? r World.nullLiteral with
  | some o => pure o
  | none =>
    let o ← perform (.makeNullText r)
    perform (.shareConstant r World.nullLiteral o)

/-- The string that an object is rendered as. Null is, and so is a `toString()` that returns null. -/
def renderObject (home : Option RuntimeId) (o : Option ObjId) : Op ObjId :=
  match o with
  | none => nullText home
  | some obj => do
    if ← observe fun w => (w.text? obj).isSome then pure obj
    else
      let v ← dispatch home o Selector.toText []
      if v.isNull then nullText home
      else
        match ← observe fun w => v.asObject.filter fun s => (w.text? s).isSome with
        | some s => pure s
        | none =>
          let c ← receiverClass "classOf" o
          fault (.notText c.name (← observe (·.shown v)))

/-- The content of the string that an object is rendered as. -/
def rendering (home : Option RuntimeId) (o : Option ObjId) : Op CharSeq := do
  let s ← renderObject home o
  return (← needText (some s)).2

/-- The text of a value. -/
def render (home : Option RuntimeId) (v : Value) : Op Bytes :=
  match v.primitiveText with
  | some b => pure b
  | none => do return (← rendering home v.ref).text

/-- Whether a string of a runtime has the same characters as the rendering of an object. -/
def contentEquals (home : RuntimeId) (s : CharSeq) (other : Option ObjId) : Op Bool :=
  match other with
  | none => pure false
  | some o => do return (← rendering (some home) (some o)).chars = s.chars

/-- A string followed by another; nothing is made when the other is missing or empty. -/
def concat (self : ObjId) (other : Option ObjId) : Op ObjId := do
  let (home, s) ← needText (some self)
  match other with
  | none => pure self
  | some o =>
    let (_, t) ← needText (some o)
    if t.chars = [] then pure self
    else makeText (some home) "String.concat" (.ofRunes (s.chars ++ t.chars))

end ObjectKernel.Op
