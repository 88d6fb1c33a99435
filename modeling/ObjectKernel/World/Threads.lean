import ObjectKernel.World.Texts

/-!
# Threads

The sections of a thread's life, each of which other tasks see as one change: initialisation, the
reservation that decides between several starts, each change of state, registration, the binding to a task,
the record of a failure, and the end.

## Contents

* `World.initThread`, `World.adopt`: threads of a program, and of tasks that the runtime did not
  start.
* `World.reserveStart`, `World.setState`, `World.register`, `World.bindTask`, `World.unbindTask`,
  `World.recordUncaught`, `World.endThread`, `World.rename`.
* `World.startedThreads`, `World.liveThreads`.
* `World.writeError`: reports on the error sink of a runtime.
-/

namespace ObjectKernel.World

/-- The world with a thread changed. -/
def modifyThread (w : World) (o : ObjId) (f : Thread → Thread) : World :=
  w.modifyObject o fun obj =>
    match obj.payload with
    | .thread t => { obj with payload := .thread (f t) }
    | _ => obj

/-- The registry of a runtime. -/
def registry (w : World) (home : RuntimeId) : Registry :=
  match w.runtime? home with
  | some r => r.registry
  | none => {}

/-- The world with the registry of a runtime changed. -/
def modifyRegistry (w : World) (home : RuntimeId) (f : Registry → Registry) : World :=
  w.modifyRuntime home fun r => { r with registry := f r.registry }

/-! ## Initialisation -/

/-- Constructs a thread, or an object that has one as its part, as an instance of a thread class of
the runtime. -/
def initThread (w : World) (home : RuntimeId) (o : Option ObjId) (c : Option Class)
    (target : Option ObjId) : Except Fault World := do
  match c with
  | none => throw (.notThreadClass none)
  | some cls =>
    if !cls.isSubclassOf (Builtin.threadClass home) then throw (.notThreadClass (some cls.name))
  let w ← w.construct o c
  let (id, registry) := (w.registry home).nextId
  let (name, registry) := registry.nextName
  let w := w.modifyRegistry home fun _ => registry
  match o with
  | none => return w
  | some part => return w.modifyThread (w.header part) fun t =>
    { t with home := some home, self := o, target, id, name, ended := false }

/-- The thread of a task that the runtime did not start, made on first use. The task may have got one
in the meantime. -/
def adopt (w : World) (home : RuntimeId) (task : TaskId) : ObjId × World :=
  match (w.registry home).bound? task with
  | some o => (o, w)
  | none =>
    let name := (w.registry home).adoptedName task
    let (id, registry) := (w.registry home).nextId
    let t : Thread :=
      { home := some home, id, name, adopted := true, started := true, state := .runnable }
    let (o, w) := w.create (.thread t) (Builtin.threadClass home)
    let w := w.modifyThread o fun t => { t with self := some o }
    (o, w.modifyRegistry home fun _ =>
      { registry.bind task o with adopted := registry.adopted + 1 })

/-! ## Starting, running and ending -/

/-- Reserves the one start of a thread; whether it was free. -/
def reserveStart (w : World) (o : ObjId) : Bool × World :=
  match w.thread? o with
  | none => (false, w)
  | some t =>
    if t.started then (false, w) else (true, w.modifyThread o fun t => { t with started := true })

/-- Puts a thread at a stage. -/
def setState (w : World) (o : ObjId) (s : ThreadState) : World :=
  w.modifyThread o fun t => { t with state := s }

/-- The world with the registry of a thread's home changed. -/
def modifyHomeRegistry (w : World) (o : ObjId) (f : Registry → Registry) : World :=
  match (w.thread? o).bind (·.home) with
  | some home => w.modifyRegistry home f
  | none => w

/-- Adds a thread to the started threads of its home. -/
def register (w : World) (o : ObjId) : World := w.modifyHomeRegistry o (·.register o)

/-- Binds a thread to the task that runs it. -/
def bindTask (w : World) (o : ObjId) (task : TaskId) : World :=
  w.modifyHomeRegistry o (·.bind task o)

/-- Ends the binding of a thread to its task. -/
def unbindTask (w : World) (o : ObjId) (task : TaskId) : World :=
  w.modifyHomeRegistry o (·.unbind task)

/-- Keeps the first failure that escapes a thread; the name that the thread has then. -/
def recordUncaught (w : World) (o : ObjId) (e : Err) : Bytes × World :=
  let name : Bytes := match w.thread? o with
    | some t => t.name
    | none => []
  (name, w.modifyThread o fun t => { t with uncaught := t.uncaught.or (some e) })

/-- Marks a thread as over, which happens once. -/
def endThread (w : World) (o : ObjId) : Except Panic World :=
  match w.thread? o with
  | some t =>
    if t.ended then .error (.defect .endedTwice)
    else .ok (w.modifyThread o fun t => { t with ended := true })
  | none => .error (.defect .nullDereference)

/-- Gives a thread a name. -/
def rename (w : World) (o : ObjId) (name : Bytes) : World :=
  w.modifyThread o fun t => { t with name }

/-- Whether a thread is over. -/
def hasEnded (w : World) (o : ObjId) : Bool :=
  match w.thread? o with
  | some t => t.ended
  | none => false

/-! ## Listings -/

/-- The started threads of a runtime in start order. -/
def startedThreads (w : World) (home : RuntimeId) : List ObjId := (w.registry home).started

/-- Whether a thread has terminated. -/
def isTerminated (w : World) (o : ObjId) : Bool :=
  match w.thread? o with
  | some t => t.state == .terminated
  | none => false

/-- The started threads that have not terminated, in start order. -/
def liveThreads (w : World) (home : RuntimeId) : List ObjId :=
  (w.startedThreads home).filter fun o => !w.isTerminated o

/-- The live threads other than a given one. -/
def pendingThreads (w : World) (home : RuntimeId) (self : Option ObjId) : List ObjId :=
  (w.liveThreads home).filter fun o => some o ≠ self

/-- The thread of a task when the runtime started it. -/
def ownThread? (w : World) (home : RuntimeId) (task : TaskId) : Option ObjId :=
  match (w.registry home).bound? task with
  | some o =>
    match w.thread? o with
    | some t => if t.adopted then none else some o
    | none => none
  | none => none

/-! ## Error reports -/

/-- Writes a report to the error sink of a runtime. -/
def writeError (w : World) (home : RuntimeId) (text : Bytes) (stack : Bool) : World :=
  { w with errorReports := ⟨text, stack, (w.config home).errorSink⟩ :: w.errorReports }

end ObjectKernel.World
