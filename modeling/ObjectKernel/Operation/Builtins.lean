import ObjectKernel.Operation.Barrier
import ObjectKernel.Operation.Buffers

/-!
# Built-in methods

The bodies of the methods of the built-in classes. A receiver of another shape than a body needs is a
defect of the program.

## Contents

* `Builtin.argument`: the arguments of a call.
* `Builtin.run`: the bodies.
-/

namespace ObjectKernel

open Op

/-- An argument of a call; the arity was checked before. -/
def Builtin.argument (args : List Value) (i : Nat) : Value := args.getD i .null

/-- Runs a built-in method body. -/
def Builtin.run (home : RuntimeId) (self : Option ObjId) (args : List Value) : Builtin → Op Value
  | .objectEquals =>
    match (argument args 0).asObject with
    | none => pure (.ofBool false)
    | some other => do
      let mine ← renderObject (some home) self
      let (home, s) ← needText (some mine)
      return .ofBool (← contentEquals home s (some other))
  | .objectToText => do
    let c ← receiverClass "classOf" self
    let hash ← observe fun w => (self.map w.hashOf).getD 0
    return .ofObject (← newText (some home) (c.name ++ "@" ++ Bytes.hexOfNat hash.toNat))
  | .objectHashCode => do
    let hash ← observe fun w => (self.map w.hashOf).getD 0
    return .ofInt32 hash.toInt32
  | .textEquals => do
    let (home, s) ← needText self
    return .ofBool (← contentEquals home s (argument args 0).asObject)
  | .textToText => pure (.ofRef self)
  | .textCharAt => do
    let (_, s) ← needText self
    return .ofRune (← ofFault (s.charAt (argument args 0).asInt32.toInt))
  | .textLength => do
    let (_, s) ← needText self
    return .ofInt32 (Int32.ofNat s.length)
  | .textHashCode => do
    let (_, s) ← needText self
    return .ofInt32 s.hashCode
  | .bufferAppendObject => do
    let o ← needBuffer self
    let text ← render (some home) (argument args 0)
    appendBytes o text
    appended o
  | .bufferAppendInt => do
    let o ← needBuffer self
    appendBytes o (Bytes.ofInt (argument args 0).asInt32.toInt)
    appended o
  | .bufferAppendLong => do
    let o ← needBuffer self
    appendBytes o (Bytes.ofInt (argument args 0).asInt64.toInt)
    appended o
  | .bufferToText => do
    let o ← needBuffer self
    return .ofObject (← bufferText o)
  | .bufferLength => do
    let o ← needBuffer self
    let length ← observe fun w => match w.buffer? o with
      | some (_, b) => b.length
      | none => 0
    return .ofInt32 (Int32.ofNat length)
  | .threadRun => do
    let o ← needThread self
    match (← threadOf o).target with
    | none => pure .null
    | some target => dispatch (some home) (some target) Selector.run []
  | .threadStart => do
    start (← needThread self)
    return .null
  | .threadJoin => do
    join (← needThread self)
    return .null
  | .threadJoinMillis => do
    joinTimeout (← needThread self) (argument args 0).asInt64 0
    return .null
  | .threadJoinNanos => do
    joinTimeout (← needThread self) (argument args 0).asInt64 (argument args 1).asInt32
    return .null
  | .threadIsAlive => do
    return .ofBool (← threadOf (← needThread self)).state.isAlive
  | .threadToText => do
    return .ofObject (← threadText (← needThread self))
  | .runnableRun => do
    match self with
    | none => defect .nullDereference
    | some o =>
      match ← observe fun w => (w.runnable? o, w.shapeOf o) with
      | (none, shape) => defect (.wrongShape shape "*runtime.RunnableFunc")
      | (some none, _) => pure .null
      | (some (some code), _) =>
        let _ ← call (.code code none [])
        return .null

end ObjectKernel
