import ObjectKernel.World

/-!
# Objects

An object is allocated without a class and bound to one class for good when it is constructed. The
n-th construction of a process gives the hash n, modulo 2^32.

## Contents

* `World.allocate`, `World.construct`, `World.create`.
* `World.setField`, `World.field`: the fields of a program's objects.
-/

namespace ObjectKernel.World

/-- A new object without a class. -/
def allocate (w : World) (p : Payload) : ObjId × World :=
  (w.objects.size, { w with objects := w.objects.push { payload := p } })

/-- The world in which an object is bound to a class. -/
def bindClass (w : World) (o : ObjId) (c : Class) : World :=
  { w.modifyObject (w.header o) fun obj =>
      { obj with cls := some c, hash := w.constructed + 1 } with
    constructed := w.constructed + 1 }

/-- Binds an object to a class. An object is bound once, and both have to be there. -/
def construct (w : World) (o : Option ObjId) (c : Option Class) : Except Fault World :=
  match o, c with
  | none, _ => .error .nullObject
  | some _, none => .error .nullClass
  | some o, some c =>
    match w.classOf? o with
    | some current => .error (.alreadyBound current.name c.name)
    | none => .ok (w.bindClass o c)

/-- A new object that is bound to a class from the start. -/
def create (w : World) (p : Payload) (c : Class) : ObjId × World :=
  let (o, w) := w.allocate p
  (o, w.bindClass o c)

/-- The world with a field of a program's object set. -/
def setField (w : World) (o : ObjId) (name : Name) (v : Value) : World :=
  w.modifyObject o fun obj =>
    match obj.payload with
    | .plain fields => { obj with payload := .plain (fields.insert name v) }
    | _ => obj

/-- The fields of a program's object. -/
def fields? (w : World) (o : ObjId) : Option (Dictionary Name Value) :=
  match w.object? o with
  | some ⟨_, _, .plain fields⟩ => some fields
  | _ => none

end ObjectKernel.World
