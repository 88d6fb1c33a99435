import ObjectKernel.Operation.Builtins
import ObjectKernel.Operation.Classes

/-!
# Operands

How a step finds the values, objects, classes and runtimes that it names. A variable that was never
set holds null, and a class that is not there is passed on as missing.

## Contents

* `Context`: where a step stands.
* `World.operand`, `World.objectOperand`, `World.runtimeOperand`, `Op.classOperand`.
* `StepResult` and the ways to make one.
-/

namespace ObjectKernel

/-- Where a step stands: the runtime of the enclosing body, and its local variables. The main script
has none. -/
structure Context where
  home : Option RuntimeId
  scope : Option ScopeId := none
  deriving DecidableEq, Repr

namespace World

/-- The runtime that a step names, else the one of the enclosing body. -/
def runtimeOperand (w : World) (ctx : Context) : Option Name → Option RuntimeId
  | none => ctx.home
  | some name => w.scene.runtimes.get? name

/-- The object that a step names. -/
def objectOperand (w : World) (ctx : Context) : ObjectOperand → Option ObjId
  | none => none
  | some x => (w.scene.lookup ctx.scope x).asObject

/-- The value that a step names. -/
def operand (w : World) (ctx : Context) : Operand → Value
  | .null => .null
  | .boolean b => .ofBool b
  | .char n => .ofRune n.toInt32
  | .int n => .ofInt32 n.toInt32
  | .long n => .ofInt64 n
  | .ref none => .null
  | .ref (some x) => w.scene.lookup ctx.scope x
  | .raw type bits x => { type := .ofNumber type, bits, ref := w.objectOperand ctx x }

end World

/-- What a step results in: its reply, and the value to be bound to a variable. -/
abbrev StepResult := Reply × Option Value

namespace Op

/-- A result without content. -/
def nothing : Op StepResult := pure (.nothing, none)

/-- A result that is only a reply. -/
def reply (r : Reply) : Op StepResult := pure (r, none)

/-- A result that is a value. -/
def answer (v : Value) : Op StepResult := do return (.value (← observe (·.view v)), some v)

/-- A result that is an object. -/
def answerObject (o : ObjId) : Op StepResult := answer (.ofObject o)

/-- Changes the scene. -/
def edit (e : SceneEdit) : Op Unit := perform (.edit e)

/-- An object that has to be one of a program, with fields. -/
def needFields (o : Option ObjId) : Op (ObjId × Dictionary Name Value) :=
  match o with
  | none => defect .nullDereference
  | some o => do
    match ← observe fun w => (w.fields? o, w.shapeOf o) with
    | (some fields, _) => pure (o, fields)
    | (none, shape) => defect (.wrongShape shape "*main.plainObject")

/-- An object that has to be there. -/
def needObject (o : Option ObjId) : Op ObjId :=
  match o with
  | some o => pure o
  | none => defect .nullDereference

/-- The class that a step names, from the runtime named with it. The runtime that the step itself
works on does not count here. -/
def classOperand (ctx : Context) (c : ClassOperand) : Op (Option Class) :=
  match c.name with
  | none => pure none
  | some name => do
    let home ← need (← observe (·.runtimeOperand ctx c.runtime))
    observe fun w => (w.classes home).get? name

/-- A class that has to be there. -/
def needClass (c : Option Class) : Op Class :=
  match c with
  | some c => pure c
  | none => defect .nullDereference

end Op

end ObjectKernel
