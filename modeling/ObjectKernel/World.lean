import ObjectKernel.Buffer
import ObjectKernel.ClassTable
import ObjectKernel.Registry
import ObjectKernel.Script.Reply

/-!
# The state of a process

Objects, runtimes and everything else that the tasks of a process share. It is plain data; the
modules on objects, classes, texts, buffers, threads and runtimes say how it changes.

## Contents

* `Payload`, `Obj`: an object is its class, its identity hash and its own content.
* `Runtime`: what belongs to one runtime.
* `Scene`: what belongs to the scripts that run: variables, gates, and the record they keep.
* `World`: all of it, with look-ups.
-/

namespace ObjectKernel

/-- The content of an object besides its class and its hash. -/
inductive Payload where
  /-- A string of a runtime. -/
  | text (home : RuntimeId) (content : CharSeq)
  /-- A buffer; one without a home was allocated but not created by a runtime. -/
  | buffer (home : Option RuntimeId) (content : Buffer)
  /-- A thread. -/
  | thread (content : Thread)
  /-- An object of a program that has a thread as its part. The two share a class and a hash, which
  the thread keeps. -/
  | extended (part : ObjId)
  /-- A work item with its code, if any. -/
  | runnable (code : Option Code)
  /-- An object of a program, with fields. -/
  | plain (fields : Dictionary Name Value)

/-- How the type of an object is written in messages. -/
def Payload.shape : Payload → Bytes
  | .text .. => "*runtime.String"
  | .buffer .. => "*runtime.StringBuffer"
  | .thread _ => "*runtime.Thread"
  | .extended _ => "*main.workerThread"
  | .runnable _ => "*runtime.RunnableFunc"
  | .plain _ => "*main.plainObject"

/-- An object. It has no class and the hash zero until it is constructed. -/
structure Obj where
  cls : Option Class := none
  hash : UInt32 := 0
  payload : Payload

/-- What belongs to one runtime. -/
structure Runtime where
  config : Config
  session : Bytes
  startedAt : Int64
  selectors : SelectorTable := .initial
  classes : ClassTable := {}
  /-- The string of each literal that has one. -/
  constants : Dictionary Bytes ObjId := []
  registry : Registry := {}
  /-- How often the shutdown barrier has run. -/
  barriers : Int32 := 0

/-- A report written to an error sink: its text, and whether a stack follows. -/
structure ErrorReport where
  text : Bytes
  stack : Bool
  sink : ErrorSink
  deriving DecidableEq, Repr

/-- The first line of a report. -/
def ErrorReport.line (r : ErrorReport) : Bytes := r.text.takeWhile (· ≠ Bytes.ofChar '\n')

/-- How a stack begins. -/
def ErrorReport.stackHeading : Bytes := "goroutine "

/-- What is written after the first line of a report, as far as the beginning of the stack. -/
def ErrorReport.continuation (r : ErrorReport) : Bytes :=
  let written := r.text ++ [Bytes.ofChar '\n'] ++ if r.stack then stackHeading else []
  written.drop (r.line.length + 1)

/-- Whether a stack seems to follow the first line of a report. A text of several lines hides the
stack, and may look like one itself. -/
def ErrorReport.showsStack (r : ErrorReport) : Bool :=
  (Bytes.after? stackHeading r.continuation).isSome

/-- The number of a scope of local variables. -/
abbrev ScopeId := Nat

/-- What belongs to the scripts that run. -/
structure Scene where
  runtimes : Dictionary Name RuntimeId := []
  globals : Dictionary Name Value := []
  scopes : Array (Dictionary Name Value) := #[]
  /-- The method tables that scripts have kept. -/
  tables : Dictionary Name Nat := []
  openGates : List Name := []
  /-- The entries of the log, last first. -/
  log : List Entry := []
  /-- The outcomes of the steps of the main script, last first. -/
  answers : List Entry := []
  /-- What was printed, last first. -/
  output : List Bytes := []
  /-- The name of a thread that was noted last. -/
  noted : Bytes := []

/-- Everything that the tasks of a process share. -/
structure World where
  objects : Array Obj := #[]
  /-- How many objects have been constructed, modulo 2^32. -/
  constructed : UInt32 := 0
  runtimes : Array Runtime := #[]
  tables : Array MethodTable := #[]
  globalRuntime : Option RuntimeId := none
  /-- Whether the process checks the order of locks. -/
  lockChecking : Bool := true
  environment : Environment := []
  files : Files := {}
  /-- A clock that advances with each reading. -/
  clock : Nat := 0
  /-- How many tasks there have been. -/
  tasks : Nat := 1
  /-- The reports written so far, last first. -/
  errorReports : List ErrorReport := []
  scene : Scene := {}

namespace World

/-- An object. -/
def object? (w : World) (o : ObjId) : Option Obj := w.objects[o]?

/-- A runtime. -/
def runtime? (w : World) (r : RuntimeId) : Option Runtime := w.runtimes[r]?

/-- The world with an object changed. -/
def modifyObject (w : World) (o : ObjId) (f : Obj → Obj) : World :=
  { w with objects := w.objects.modify o f }

/-- The world with a runtime changed. -/
def modifyRuntime (w : World) (r : RuntimeId) (f : Runtime → Runtime) : World :=
  { w with runtimes := w.runtimes.modify r f }

/-- The object that keeps the class and the hash of an object: itself, or the thread that it has as
its part. -/
def header (w : World) (o : ObjId) : ObjId :=
  match w.object? o with
  | some ⟨_, _, .extended part⟩ => part
  | _ => o

/-- The class of an object. -/
def classOf? (w : World) (o : ObjId) : Option Class := (w.object? (w.header o)).bind (·.cls)

/-- The identity hash of an object. -/
def hashOf (w : World) (o : ObjId) : UInt32 :=
  match w.object? (w.header o) with
  | some obj => obj.hash
  | none => 0

/-- The shape of an object. -/
def shapeOf (w : World) (o : ObjId) : Bytes :=
  match w.object? o with
  | some obj => obj.payload.shape
  | none => []

/-- The string that an object is. -/
def text? (w : World) (o : ObjId) : Option (RuntimeId × CharSeq) :=
  match w.object? o with
  | some ⟨_, _, .text home content⟩ => some (home, content)
  | _ => none

/-- The buffer that an object is. -/
def buffer? (w : World) (o : ObjId) : Option (Option RuntimeId × Buffer) :=
  match w.object? o with
  | some ⟨_, _, .buffer home content⟩ => some (home, content)
  | _ => none

/-- The thread that an object is. -/
def thread? (w : World) (o : ObjId) : Option Thread :=
  match w.object? o with
  | some ⟨_, _, .thread content⟩ => some content
  | _ => none

/-- The code of a work item. -/
def runnable? (w : World) (o : ObjId) : Option (Option Code) :=
  match w.object? o with
  | some ⟨_, _, .runnable code⟩ => some code
  | _ => none

/-- The text of a value for messages; objects are shown by class and hash, without a call. -/
def shown (w : World) (v : Value) : Bytes :=
  match v.primitiveText, v.ref with
  | some b, _ => if v.type = .char then Quoted.char v.asRune else b
  | none, none => []
  | none, some o =>
    let className : Bytes := match w.classOf? o with
      | some c => c.name
      | none => "unbound"
    "<" ++ className ++ "@" ++ Bytes.hexOfNat (w.hashOf o).toNat ++ ">"

/-- What a record keeps of a value. -/
def view (w : World) (v : Value) : View :=
  match v.type with
  | .null => .null
  | .boolean => .boolean (v.bits != 0)
  | .char | .int | .long => .number v.type v.bits
  | .object | .unknown _ =>
    match v.ref with
    | none => .missing v.type
    | some o =>
      .object v.type ((w.classOf? o).map Class.name) (w.hashOf o)
        ((w.text? o).map fun t => t.2.text)

end World

end ObjectKernel
