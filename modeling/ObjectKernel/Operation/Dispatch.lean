import ObjectKernel.Program

/-!
# Dispatch

A call looks up the selector in the receiver's class and then along its chain. A receiver that is
null or has no class is a defect of the program and ends in a panic, while a missing method or a
wrong number of arguments is an error.

## Contents

* `Op.receiverClass`: the class of a receiver.
* `Op.invoke`: the call of a method that was found.
* `Op.dispatch`, `Op.send`, `Op.dispatchSuper`.
-/

namespace ObjectKernel.Op

/-- The class of a receiver, which has to be there and to have one. -/
def receiverClass (op : Bytes) (o : Option ObjId) : Op Class :=
  match o with
  | none => panic (.error (.fault (.nullReceiver op)))
  | some o => do
    match ← observe fun w => (w.classOf? o, w.shapeOf o) with
    | (some c, _) => pure c
    | (none, shape) => panic (.error (.fault (.unboundReceiver op shape)))

/-- Calls a method with the number of arguments that it takes. -/
def invoke (owner : Class) (m : Method) (self : Option ObjId) (args : List Value) : Op Value :=
  if (args.length : Int) = m.arity then call (.code m.code self args)
  else fault (.wrongArity (owner.name ++ "." ++ m.name) m.arity args.length)

/-- Fails because a class has no method for a selector. -/
def noMethod {α : Type} (home : Option RuntimeId) (c : Class) (s : Selector) : Op α := do
  let home ← need home
  let signature ← observe fun w => (w.selectors home).name s
  fault (.noMethod c.name signature s)

/-- Calls the method that a class has for a selector. -/
def invokeFrom (home : Option RuntimeId) (c : Class) (s : Selector) (self : Option ObjId)
    (args : List Value) : Op Value :=
  match c.find? s with
  | some (owner, m) => invoke owner m self args
  | none => noMethod home c s

/-- Calls by selector. -/
def dispatch (home : Option RuntimeId) (o : Option ObjId) (s : Selector) (args : List Value) :
    Op Value := do
  let c ← receiverClass "dispatch" o
  invokeFrom home c s o args

/-- Calls by signature, which has to be interned. -/
def send (home : Option RuntimeId) (o : Option ObjId) (signature : Bytes) (args : List Value) :
    Op Value := do
  let c ← receiverClass "send" o
  let r ← need home
  let s ← observe fun w => (w.selectors r).lookup signature
  if s < 0 then fault (.noSignature c.name signature) else dispatch home o s args

/-- Calls by selector from above a class, as its own methods do. -/
def dispatchSuper (home : Option RuntimeId) (o : Option ObjId) (origin : Option Class)
    (s : Selector) (args : List Value) : Op Value := do
  let _ ← receiverClass "dispatchSuper" o
  match origin.bind Class.parent? with
  | none => fault (.noSuperclass (origin.map Class.name))
  | some c => invokeFrom home c s o args

end ObjectKernel.Op
