import ObjectKernel.Operation.Dispatch

/-!
# Interning signatures and defining classes

A signature is interned by looking it up and, if that fails, by an insertion that looks again. A
class name is defined once: whoever reserves it first builds the class, and everyone waits for that.

## Contents

* `Op.intern`.
* `Op.addMethod`: a method under a number or a signature.
* `Op.defineClass`: the definition with its initialiser.
-/

namespace ObjectKernel.Op

/-- The number of a signature, a new one if it has none. -/
def intern (home : RuntimeId) (signature : Bytes) : Op Nat := do
  match ← observe fun w => (w.selectors home).find? signature with
  | some n => pure n
  | none => perform (.insertSelector home signature)

/-- Adds a method to a table; the number of its selector. -/
def addMethod (table : TableId) (heading : MethodHeading) (code : Code) : Op Selector := do
  match ← observe fun w => w.tables[table]? with
  | none => defect .nullDereference
  | some t =>
    let s : Selector ← match heading.key with
      | .number s => pure s
      | .signature name => do pure (Int.ofNat (← intern t.home name))
    ofPanic (← perform (.addMethod table s heading.arity code))
    return s

/-- Builds a class whose name was reserved. The initialiser fills its method table; if it panics, the
name has no class for good. -/
def buildClass (home : RuntimeId) (name : Bytes) (parent : Option Class)
    (init : TableId → Op Unit) : Op Unit := do
  let table ← perform (.newTable home)
  protect
    (do
      init table
      let _ ← ofPanic (← perform (.completeClass home name parent table)))
    (perform (.settleClass home name .abandoned))

/-- Defines a class once; the class, and whether the initialiser was run for it. -/
def defineClass (home : Option RuntimeId) (name : Bytes) (superclass : Option Class)
    (init : TableId → Op Unit) : Op (Class × Bool) := do
  let r ← need home
  if name = [] then fault .emptyClassName
  let reserved ← perform (.reserveClass r name)
  if reserved then
    match ← observe fun w => (w.classes r).accept name superclass with
    | .error f => perform (.settleClass r name (.failed (.fault f)))
    | .ok parent => buildClass r name parent init
  else
    let _ ← await (.settled r name) none
  match ← observe fun w => (w.classes r).entries.get? name with
  | none => fault (.definitionIncomplete name)
  | some e =>
    let c ← ofExcept (ClassTable.answer name superclass e)
    return (c, reserved)

end ObjectKernel.Op
