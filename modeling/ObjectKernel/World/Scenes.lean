import ObjectKernel.World.Runtimes

/-!
# Scenes

What scripts share with each other: named runtimes, variables, gates and the record. A name that
begins with a dollar sign is a global variable, and outside of every scope so is any other.

## Contents

* `Scene.lookup`, `Scene.assign`: variables in scopes.
* `SceneEdit`, `Scene.apply`: the changes that scripts make.
-/

namespace ObjectKernel

/-- Whether a variable is global wherever it is used. -/
def isGlobalName (name : Name) : Bool := name.head? == some (Bytes.ofChar '$')

namespace Scene

/-- The local variables of a scope. -/
def locals (s : Scene) : Option ScopeId → Dictionary Name Value
  | none => []
  | some n => (s.scopes[n]?).getD []

/-- The value of a variable: a local one if there is one, else a global one, else null. -/
def lookup (s : Scene) (scope : Option ScopeId) (name : Name) : Value :=
  match (s.locals scope).get? name with
  | some v => v
  | none => (s.globals.get? name).getD .null

/-- The scene with a variable set. -/
def assign (s : Scene) (scope : Option ScopeId) (name : Name) (v : Value) : Scene :=
  match scope with
  | none => { s with globals := s.globals.insert name v }
  | some n =>
    if isGlobalName name then { s with globals := s.globals.insert name v }
    else { s with scopes := s.scopes.modify n (·.insert name v) }

/-- The variables of a call: the receiver and the arguments in order. -/
def callVariables (self : Option ObjId) (args : List Value) : Dictionary Name Value :=
  ((Bytes.ofString "self"), Value.ofRef self) ::
    args.zipIdx.map fun (v, i) => ("arg" ++ Bytes.ofNat i, v)

end Scene

/-- A change to a scene. -/
inductive SceneEdit where
  | nameRuntime (name : Name) (home : RuntimeId)
  | assign (scope : Option ScopeId) (name : Name) (v : Value)
  | keepTable (name : Name) (table : TableId)
  | openGate (gate : Name)
  | log (e : Entry)
  | answer (e : Entry)
  | print (b : Bytes)
  | note (name : Bytes)
  deriving DecidableEq, Repr

/-- The scene after a change. -/
def Scene.apply (s : Scene) : SceneEdit → Scene
  | .nameRuntime name home => { s with runtimes := s.runtimes.insert name home }
  | .assign scope name v => s.assign scope name v
  | .keepTable name table => { s with tables := s.tables.insert name table }
  | .openGate gate => { s with openGates := gate :: s.openGates }
  | .log e => { s with log := e :: s.log }
  | .answer e => { s with answers := e :: s.answers }
  | .print b => { s with output := b :: s.output }
  | .note name => { s with noted := name }

namespace World

/-- The world after a change to its scene. -/
def edit (w : World) (e : SceneEdit) : World := { w with scene := w.scene.apply e }

/-- A new scope with the given variables. -/
def openScope (w : World) (bindings : Dictionary Name Value) : ScopeId × World :=
  (w.scene.scopes.size, { w with scene.scopes := w.scene.scopes.push bindings })

/-- Takes the reports that were written for the embedding program, in order. -/
def takeErrorReports (w : World) : List ErrorReport × World :=
  ((w.errorReports.filter (·.sink = .embedder)).reverse,
    { w with errorReports := w.errorReports.filter (·.sink ≠ .embedder) })

end World

end ObjectKernel
