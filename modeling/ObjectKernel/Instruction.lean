import ObjectKernel.World.Scenes

/-!
# Instructions

The changes that a task can make to the state of a process, as data. Other tasks see an instruction
as one change: whatever the operations of the kernel are, they are made of these and of reading.

## Contents

* `Instr`: the instructions.
* `Instr.Answer`: what each of them answers.
* `Instr.exec`: what each of them does.
-/

namespace ObjectKernel

/-- A change that a task makes in one go. -/
inductive Instr where
  | allocate (p : Payload)
  | construct (o : Option ObjId) (c : Option Class)
  | create (p : Payload) (c : Class)
  | setField (o : ObjId) (name : Name) (v : Value)
  | makeText (home : RuntimeId) (op : Bytes) (s : CharSeq)
  | makeNullText (home : RuntimeId)
  | shareConstant (home : RuntimeId) (literal : Bytes) (o : ObjId)
  | newBuffer (home : RuntimeId)
  | append (o : ObjId) (cs : List Rune)
  | bufferText (o : ObjId)
  | initThread (home : RuntimeId) (o : Option ObjId) (c : Option Class) (target : Option ObjId)
  | adopt (home : RuntimeId) (task : TaskId)
  | freshTask
  | reserveStart (o : ObjId)
  | setState (o : ObjId) (s : ThreadState)
  | register (o : ObjId)
  | bindTask (o : ObjId)
  | unbindTask (o : ObjId)
  | recordUncaught (o : ObjId) (e : Err)
  | endThread (o : ObjId)
  | rename (o : ObjId) (name : Bytes)
  | writeError (home : RuntimeId) (text : Bytes) (stack : Bool)
  | takeErrorReports
  | insertSelector (home : RuntimeId) (name : Bytes)
  | reserveClass (home : RuntimeId) (name : Bytes)
  | newTable (home : RuntimeId)
  | addMethod (table : TableId) (s : Selector) (arity : Int) (code : Code)
  | completeClass (home : RuntimeId) (name : Bytes) (parent : Option Class) (table : TableId)
  | settleClass (home : RuntimeId) (name : Bytes) (e : ClassEntry)
  | newRuntime (config : Option Config)
  | initGlobal (config : Option Config)
  | closeGlobal
  | countBarrier (home : RuntimeId)
  | takeReport (home : RuntimeId)
  | writeFile (path content : Bytes)
  | openScope (bindings : Dictionary Name Value)
  | edit (e : SceneEdit)

/-- What an instruction answers. -/
abbrev Instr.Answer : Instr → Type
  | allocate _ | create .. | makeNullText _ | shareConstant .. | adopt .. => ObjId
  | newBuffer _ => Except Panic ObjId
  | construct .. | initThread .. => Except Fault Unit
  | makeText .. => Except Fault ObjId
  | bufferText _ => Except Stop ObjId
  | append .. | endThread _ | addMethod .. => Except Panic Unit
  | completeClass .. => Except Panic Class
  | freshTask => TaskId
  | reserveStart _ | reserveClass .. => Bool
  | recordUncaught .. => Bytes
  | takeErrorReports => List ErrorReport
  | insertSelector .. => Nat
  | newTable _ => TableId
  | newRuntime _ => Except ConfigError RuntimeId
  | initGlobal _ => Except ConfigError Unit
  | takeReport _ => Report
  | writeFile .. => Except FileError Unit
  | openScope _ => ScopeId
  | setField .. | setState .. | register _ | bindTask _ | unbindTask _ | rename .. | writeError ..
  | settleClass .. | closeGlobal | countBarrier _ | edit _ => Unit

/-- A change that may be refused; a refusal leaves the world as it is. -/
def World.attempt {ε : Type} (w : World) : Except ε World → Except ε Unit × World
  | .ok w => (.ok (), w)
  | .error e => (.error e, w)

/-- A change with a result that may be refused; a refusal leaves the world as it is. -/
def World.attemptResult {ε α : Type} (w : World) : Except ε (α × World) → Except ε α × World
  | .ok (a, w) => (.ok a, w)
  | .error e => (.error e, w)

/-- Executes an instruction for a task. -/
def Instr.exec (task : TaskId) (w : World) : (i : Instr) → i.Answer × World
  | allocate p => w.allocate p
  | construct o c => w.attempt (w.construct o c)
  | create p c => w.create p c
  | setField o name v => ((), w.setField o name v)
  | makeText home op s => w.attemptResult (w.makeText home op s)
  | makeNullText home => w.makeNullText home
  | shareConstant home literal o => w.shareConstant home literal o
  | newBuffer home => w.attemptResult (w.newBuffer home)
  | append o cs => w.attempt (w.append o cs)
  | bufferText o => w.attemptResult (w.bufferText o)
  | initThread home o c target => w.attempt (w.initThread home o c target)
  | adopt home t => w.adopt home t
  | freshTask => (w.tasks, { w with tasks := w.tasks + 1 })
  | reserveStart o => w.reserveStart o
  | setState o s => ((), w.setState o s)
  | register o => ((), w.register o)
  | bindTask o => ((), w.bindTask o task)
  | unbindTask o => ((), w.unbindTask o task)
  | recordUncaught o e => w.recordUncaught o e
  | endThread o => w.attempt (w.endThread o)
  | rename o name => ((), w.rename o name)
  | writeError home text stack => ((), w.writeError home text stack)
  | takeErrorReports => w.takeErrorReports
  | insertSelector home name => w.insertSelector home name
  | reserveClass home name => w.reserveClass home name
  | newTable home => w.newTable home
  | addMethod table s arity code => w.attempt (w.addMethod table s arity code)
  | completeClass home name parent table => w.completeClass home name parent table
  | settleClass home name e => ((), w.settleClass home name e)
  | newRuntime config => w.attemptResult (w.newRuntime config)
  | initGlobal config => w.initGlobal config
  | closeGlobal => ((), w.closeGlobal)
  | countBarrier home => ((), w.countBarrier home)
  | takeReport home => w.takeReport home
  | writeFile path content => w.attempt (w.writeFile path content)
  | openScope bindings => w.openScope bindings
  | edit e => ((), w.edit e)

end ObjectKernel
