import ObjectKernel.World.Texts

/-!
# Selectors and class definitions

The sections of interning a signature and of defining a class. A definition first reserves its
name; the first one builds the class, and everyone else finds the entry it leaves.

## Contents

* `World.selectors`, `World.insertSelector`.
* `World.reserveClass`, `World.newTable`, `World.addMethod`, `World.completeClass`,
  `World.settleClass`.
-/

namespace ObjectKernel

/-- The number of a method table. -/
abbrev TableId := Nat

namespace World

/-- The selector table of a runtime. -/
def selectors (w : World) (home : RuntimeId) : SelectorTable :=
  match w.runtime? home with
  | some r => r.selectors
  | none => {}

/-- Gives a signature a number unless it has one; its number. -/
def insertSelector (w : World) (home : RuntimeId) (name : Bytes) : Nat × World :=
  let (n, t) := (w.selectors home).insert name
  (n, w.modifyRuntime home fun r => { r with selectors := t })

/-- The class table of a runtime. -/
def classes (w : World) (home : RuntimeId) : ClassTable :=
  match w.runtime? home with
  | some r => r.classes
  | none => {}

/-- Ends the definition of a class name with an entry. -/
def settleClass (w : World) (home : RuntimeId) (name : Bytes) (e : ClassEntry) : World :=
  w.modifyRuntime home fun r => { r with classes := r.classes.settle name e }

/-- Reserves a class name for a definition; whether it was free. -/
def reserveClass (w : World) (home : RuntimeId) (name : Bytes) : Bool × World :=
  match (w.classes home).entries.get? name with
  | some _ => (false, w)
  | none => (true, w.modifyRuntime home fun r => { r with classes := r.classes.reserve name })

/-- A new method table. -/
def newTable (w : World) (home : RuntimeId) : TableId × World :=
  (w.tables.size, { w with tables := w.tables.push { home } })

/-- Adds a method to a table that is not complete. It is named as its selector is then. -/
def addMethod (w : World) (table : TableId) (s : Selector) (arity : Int) (code : Code) :
    Except Panic World :=
  match w.tables[table]? with
  | none => .error (.defect .nullDereference)
  | some t =>
    let name := (w.selectors t.home).name s
    if t.complete then .error (.error (.fault (.tableSealed name)))
    else .ok { w with tables := w.tables.modify table (·.add s { name, arity, code }) }

/-- The world in which a method table takes no more methods. -/
def completeTable (w : World) (table : TableId) : World :=
  { w with tables := w.tables.modify table fun t => { t with complete := true } }

/-- Completes a method table and defines its class. -/
def completeClass (w : World) (home : RuntimeId) (name : Bytes) (parent : Option Class)
    (table : TableId) : Except Panic Class × World :=
  let w := w.completeTable table
  match w.tables[table]? with
  | none => (.error (.defect .nullDereference), w)
  | some t =>
    match t.defect? with
    | some d => (.error (.defect d), w)
    | none =>
      let c := Class.make { home, name, methods := t.methods } parent
      (.ok c, w.settleClass home name (.defined c))

end World

end ObjectKernel
