import ObjectKernel.Operation.Texts

/-!
# Threads

Starting a thread reserves it, marks it as started, registers it and spawns its task, in that order and
in separate steps. The task binds itself, runs `run()`, records a failure, unbinds itself, and only
then marks the thread as terminated and over.

## Contents

* `Op.initThread`, `Op.newThread`, `Op.newRunnable`.
* `Op.start`, `Op.execute`, `Op.runThread`.
* `Op.join`, `Op.joinTimeout`, `Op.joinBounded`, `Op.sleep`.
* `Op.currentThread`, `Op.dumpStack`, `Op.threadText`.
-/

namespace ObjectKernel.Op

/-- The thread that an object has to be, or to have as its part. -/
def needThread (o : Option ObjId) : Op ObjId :=
  match o with
  | none => defect .nullDereference
  | some o => do
    match ← observe fun w => (w.thread? (w.header o), w.header o, w.shapeOf o) with
    | (some _, t, _) => pure t
    | (none, _, shape) => defect (.notThread shape)

/-- What a thread knows about itself. -/
def threadOf (o : ObjId) : Op Thread := observe fun w => (w.thread? o).getD {}

/-! ## Making threads -/

/-- Constructs a thread as an instance of a class. -/
def initThread (home : Option RuntimeId) (o : Option ObjId) (c : Option Class)
    (target : Option ObjId) : Op Unit := do
  match c, home with
  | none, _ => fault (.notThreadClass none)
  | some _, none => defect .nullDereference
  | some _, some r => ofFault (← perform (.initThread r o c target))

/-- A new thread that runs a work item, or nothing. -/
def newThread (home : Option RuntimeId) (target : Option ObjId) : Op ObjId := do
  let r ← need home
  let o ← perform (.allocate (.thread {}))
  match ← result (initThread home (some o) (some (Builtin.threadClass r)) target) with
  | .ok _ => pure o
  | .error e => panic (.error e)

/-- A new work item. -/
def newRunnable (home : Option RuntimeId) (code : Option Code) : Op ObjId := do
  let r ← need home
  perform (.create (.runnable code) (Builtin.runnableClass r))

/-! ## Starting and running -/

/-- Starts a thread on a task of its own. -/
def start (o : ObjId) : Op Unit := do
  let t ← threadOf o
  if t.home.isNone then fault (.notInitialized "Thread.start")
  if t.adopted then fault (.alreadyStarted t.name)
  if ← perform (.reserveStart o) then
    perform (.setState o .started)
    perform (.register o)
    spawn o
  else fault (.alreadyStarted (← threadOf o).name)

/-- Keeps and reports a failure that escaped a thread. -/
def uncaught (o : ObjId) (e : Err) (stack : Bool) : Op Unit := do
  let name ← perform (.recordUncaught o e)
  let home ← need (← threadOf o).home
  perform (.writeError home ("Exception in thread " ++ Quoted.text name ++ " " ++ e.message) stack)

/-- The error that stands for a panic of a thread. -/
def panicError (p : Panic) : Err := .plain ("panic: " ++ p.message)

/-- What the task of a thread does. -/
def execute (o : ObjId) : Op Unit := do
  let t ← threadOf o
  perform (.bindTask o)
  let outcome ← guard do
    perform (.setState o .runnable)
    match ← result (dispatch t.home t.self Selector.run []) with
    | .ok _ => pure ()
    | .error e => uncaught o e false
  match outcome with
  | .panic p => uncaught o (panicError p) true
  | .value _ | .error _ => pure ()
  perform (.unbindTask o)
  perform (.setState o .terminated)
  ofPanic (← perform (.endThread o))

/-- Runs a thread's `run()` on the calling task. -/
def runThread (o : ObjId) : Op Unit := do
  let t ← threadOf o
  if t.home.isNone then fault (.notInitialized "Thread.run")
  let _ ← dispatch t.home t.self Selector.run []

/-! ## Waiting -/

/-- Waits until a thread is over. -/
def join (o : ObjId) : Op Unit := do
  ofFault (← threadOf o).joinable
  let _ ← await (.ended o) none

/-- Waits until a thread is over or a time has passed; a time of zero is no bound. -/
def joinTimeout (o : ObjId) (millis : Int64) (nanos : Int32) : Op Unit := do
  let d ← ofFault (Timeout.duration "Thread.join" millis nanos)
  ofFault (← threadOf o).joinable
  let _ ← await (.ended o) (if d = 0 then none else some .deadline)

/-- Waits until a thread is over or a bound is reached, which is an error. -/
def joinBounded (o : ObjId) (bound : Option Expiry) : Op Unit := do
  ofFault (← threadOf o).joinable
  match ← await (.ended o) bound, bound with
  | false, some e => throw (.expired e)
  | _, _ => pure ()

/-- Sleeps. Time passes for nobody else, so that nothing is left to do once the arguments are
checked. -/
def sleep (millis : Int64) (nanos : Int32) : Op Unit := do
  let _ ← ofFault (Timeout.sleep millis nanos)

/-! ## The current thread -/

/-- The thread of a task; a task that the runtime did not start gets one on first use. -/
def threadOfTask (home : RuntimeId) (task : TaskId) : Op ObjId := do
  match ← observe fun w => (w.registry home).bound? task with
  | some o => pure o
  | none => perform (.adopt home task)

/-- The thread of the calling task. -/
def currentThread (home : Option RuntimeId) : Op ObjId := do
  let r ← need home
  threadOfTask r (← task)

/-- Reports where the calling task is. -/
def dumpStack (home : Option RuntimeId) : Op Unit := do
  let r ← need home
  let t ← threadOf (← currentThread home)
  perform (.writeError r ("Stack trace of thread " ++ Quoted.text t.name ++ ":") true)

/-- A new string that shows a thread by its name. -/
def threadText (o : ObjId) : Op ObjId := do
  let t ← threadOf o
  newText t.home ("Thread[" ++ t.name ++ "]")

end ObjectKernel.Op
