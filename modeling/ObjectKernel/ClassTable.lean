import ObjectKernel.Class

/-!
# Class tables

The classes of a runtime by name. A name is defined once: its entry goes from being built to one of
three final states and never changes again.

## Contents

* `ClassEntry`, `ClassTable`: the state of each name.
* `ClassTable.get?`, `names`: the classes that are defined.
* `ClassTable.reserve`, `settle`: the beginning and the end of a definition.
* `ClassTable.accept`: whether a superclass belongs to the table.
* `ClassTable.answer`: what a finished entry answers to a definition.
-/

namespace ObjectKernel

/-- The state of a class name. -/
inductive ClassEntry where
  /-- The definition is under way. -/
  | building
  /-- The definition was cut short by a panic. -/
  | abandoned
  /-- The definition failed, and always will. -/
  | failed (e : Err)
  /-- The class is defined. -/
  | defined (c : Class)

/-- The class of an entry. -/
def ClassEntry.class? : ClassEntry → Option Class
  | .defined c => some c
  | _ => none

/-- Whether an entry is final. -/
def ClassEntry.isFinal : ClassEntry → Bool
  | .building => false
  | _ => true

/-- The classes of a runtime; `root` is what a class without a superclass extends. -/
structure ClassTable where
  entries : Dictionary Bytes ClassEntry := []
  root : Option Class := none

namespace ClassTable

/-- The class with a name. -/
def get? (t : ClassTable) (name : Bytes) : Option Class := (t.entries.get? name).bind (·.class?)

/-- The names that have a class, sorted. -/
def names (t : ClassTable) : List Bytes :=
  Bytes.sort ((t.entries.filter fun p => p.2.class?.isSome).map Prod.fst)

/-- The number of classes. -/
def count (t : ClassTable) : Nat := t.names.length

/-- The table in which a name is under definition, unless it has an entry. -/
def reserve (t : ClassTable) (name : Bytes) : ClassTable :=
  match t.entries.get? name with
  | some _ => t
  | none => { t with entries := t.entries.insert name .building }

/-- The table in which the definition of a name has ended; an entry that is final stays. -/
def settle (t : ClassTable) (name : Bytes) (e : ClassEntry) : ClassTable :=
  match t.entries.get? name with
  | some .building => { t with entries := t.entries.insert name e }
  | _ => t

/-- The superclass that a definition is to have: the root when none is given. One that is not a
class of the table is refused. -/
def accept (t : ClassTable) (name : Bytes) (superclass : Option Class) :
    Except Fault (Option Class) :=
  match superclass with
  | none => .ok t.root
  | some c =>
    if Class.isSame? (t.get? c.name) (some c) then .ok (some c)
    else .error (.foreignSuperclass c.name name)

/-- What a final entry answers to a definition with a given superclass. -/
def answer (name : Bytes) (superclass : Option Class) : ClassEntry → Except Err Class
  | .failed e => .error e
  | .defined c =>
    if superclass.isNone ∨ Class.isSame? c.parent? superclass then .ok c
    else .error (.fault (.superclassConflict name (c.parent?.map Class.name)))
  | .building | .abandoned => .error (.fault (.definitionIncomplete name))

end ClassTable

end ObjectKernel
