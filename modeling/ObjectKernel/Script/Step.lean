import ObjectKernel.Error
import ObjectKernel.Selector
import ObjectKernel.Value

/-!
# Scripts

The programs that run on the kernel. A script is a list of steps; a step performs one operation of
the kernel on operands that are named by variables, and may bind its result to a variable.

## Contents

* `Operand`, `ClassOperand`: how a step names values and classes.
* The operations by subject: `RuntimeAction`, `SelectorAction`, `ClassAction`, `ObjectAction`,
  `CallAction`, `TextAction`, `BufferAction`, `ThreadAction`, `HostAction`.
* `Step`: an operation, or control flow with steps inside.
-/

namespace ObjectKernel

/-- The name of a variable, a field, a gate or a runtime. -/
abbrev Name := Bytes

/-- A variable that holds an object, or none for the null object. -/
abbrev ObjectOperand := Option Name

/-- A value in a step. -/
inductive Operand where
  | null
  | boolean (b : Bool)
  | char (n : Int64)
  | int (n : Int64)
  | long (n : Int64)
  | ref (x : ObjectOperand)
  | raw (type : Int) (bits : Int64) (x : ObjectOperand)
  deriving DecidableEq, Repr

/-- A class in a step: its name, and the runtime to look it up in when it is not the one of the
enclosing body. -/
structure ClassOperand where
  name : Option Bytes := none
  runtime : Option Name := none
  deriving DecidableEq, Repr

/-- Settings that replace defaults. -/
structure ConfigPatch where
  maxStringLength : Option Int := none
  bufferInitialCapacity : Option Int := none
  maxBufferCapacity : Option Int := none
  shutdownTimeout : Option Duration := none
  reportPath : Bytes := []
  lockChecking : Option Bool := none
  deriving DecidableEq, Repr

/-- The settings with a patch applied, reporting failures to the embedding program. -/
def ConfigPatch.apply (p : ConfigPatch) (c : Config) : Config :=
  { c with
    maxStringLength := p.maxStringLength.getD c.maxStringLength
    bufferInitialCapacity := p.bufferInitialCapacity.getD c.bufferInitialCapacity
    maxBufferCapacity := p.maxBufferCapacity.getD c.maxBufferCapacity
    shutdownTimeout := p.shutdownTimeout.getD c.shutdownTimeout
    reportPath := p.reportPath
    lockChecking := p.lockChecking.getD c.lockChecking
    errorSink := .embedder }

/-- Operations on runtimes. An absent patch stands for the default settings. `globalRun` runs a thread
whose work is `noteThread`: to note the name of the thread that it runs on. -/
inductive RuntimeAction where
  | create (name : Name) (patch : ConfigPatch)
  | lockChecking
  | config
  | initGlobal (patch : Option ConfigPatch)
  | closeGlobal
  | globalThread
  | globalJoinAll
  | globalRun
  | noteThread
  | joinAll
  | close
  | report
  | readReport (path : Bytes)
  | writeReport (path : Bytes)
  deriving DecidableEq, Repr

/-- Operations on the selector table. -/
inductive SelectorAction where
  | intern (signature : Bytes)
  | lookup (signature : Bytes)
  | name (n : Selector)
  | count
  deriving DecidableEq, Repr

/-- Questions about classes. -/
inductive ClassAction where
  | inspect (c : ClassOperand)
  | names
  | count
  | root
  | lookup (c : ClassOperand) (s : Selector)
  | lookupLocal (c : ClassOperand) (s : Selector)
  | hasMethod (c : ClassOperand) (s : Selector)
  | isSubclass (c other : ClassOperand)
  deriving DecidableEq, Repr

/-- The shapes that an object can be allocated in before it has a class. -/
inductive Shape where
  | plain
  | worker
  | thread
  | buffer
  deriving DecidableEq, Repr

/-- Operations on objects. -/
inductive ObjectAction where
  | allocate (shape : Shape)
  | construct (obj : ObjectOperand) (c : ClassOperand)
  | create (c : ClassOperand)
  | setField (obj : ObjectOperand) (field : Name) (v : Operand)
  | getField (obj : ObjectOperand) (field : Name)
  | classOf (obj : ObjectOperand)
  | instanceOf (obj : ObjectOperand) (c : ClassOperand)
  | identityHash (obj : ObjectOperand)
  | same (obj other : ObjectOperand)
  deriving DecidableEq, Repr

/-- Calls and renderings. -/
inductive CallAction where
  | dispatch (obj : ObjectOperand) (s : Selector) (args : List Operand)
  | send (obj : ObjectOperand) (signature : Bytes) (args : List Operand)
  | super (obj : ObjectOperand) (origin : ClassOperand) (s : Selector) (args : List Operand)
  | renderObject (obj : ObjectOperand)
  | render (v : Operand)
  | describe (v : Operand)
  deriving DecidableEq, Repr

/-- Operations on strings. -/
inductive TextAction where
  | create (text : Bytes)
  | constant (text : Bytes)
  | length (obj : ObjectOperand)
  | charAt (obj : ObjectOperand) (index : Int)
  | chars (obj : ObjectOperand)
  | contentEquals (obj other : ObjectOperand)
  | hashCode (obj : ObjectOperand)
  | concat (obj other : ObjectOperand)
  | toText (obj : ObjectOperand)
  deriving DecidableEq, Repr

/-- Operations on buffers. `check` fails with the failure that stopped the buffer, if any. -/
inductive BufferAction where
  | create
  | createFrom (other : ObjectOperand)
  | appendObject (obj other : ObjectOperand)
  | appendText (obj other : ObjectOperand)
  | appendInt (obj : ObjectOperand) (n : Operand)
  | appendLong (obj : ObjectOperand) (n : Int64)
  | appendChar (obj : ObjectOperand) (r : Rune)
  | appendBool (obj : ObjectOperand) (b : Bool)
  | inspect (obj : ObjectOperand)
  | toText (obj : ObjectOperand)
  | check (obj : ObjectOperand)
  deriving DecidableEq, Repr

/-- What bounds a join: nothing, a context that is already cancelled, or a deadline. -/
inductive JoinBound where
  | unbounded
  | cancelled
  | deadline (millis : Int)
  deriving DecidableEq, Repr

/-- Operations on threads. `check` fails with the failure that escaped the thread, if any. -/
inductive ThreadAction where
  | create (target : ObjectOperand)
  | init (obj : ObjectOperand) (c : ClassOperand) (target : ObjectOperand)
  | start (obj : ObjectOperand)
  | run (obj : ObjectOperand)
  | join (obj : ObjectOperand)
  | joinMillis (obj : ObjectOperand) (millis : Int64)
  | joinTimeout (obj : ObjectOperand) (millis : Int64) (nanos : Int32)
  | joinContext (obj : ObjectOperand) (bound : JoinBound)
  | interrupt (obj : ObjectOperand)
  | setName (obj : ObjectOperand) (name : Bytes)
  | toText (obj : ObjectOperand)
  | inspect (obj : ObjectOperand)
  | check (obj : ObjectOperand)
  | interrupted
  | holdsLock (obj : ObjectOperand)
  | sleep (millis : Int64) (nanos : Int32)
  | yield
  | current
  | currentOfHost
  | dumpStack
  | all
  deriving DecidableEq, Repr

/-- A piece of output: literal bytes, or something that a variable's object knows. -/
inductive OutputPiece where
  | literal (b : Bytes)
  | threadName (x : Name)
  | textLength (x : Name)
  | textHash (x : Name)
  | textContent (x : Name)
  deriving DecidableEq, Repr

/-- Operations of the surroundings: output, the record, and gates that threads wait at. -/
inductive HostAction where
  | bind (v : Operand)
  | log (v : Operand)
  | raise (e : Err)
  | panic (p : Panic)
  | print (pieces : List OutputPiece)
  | errorReports
  | waitGate (gate : Name)
  | openGate (gate : Name)
  deriving DecidableEq, Repr

/-- An operation of the kernel. Where a runtime is not named, the current one is meant. -/
inductive Action where
  | runtime (rt : Option Name) (a : RuntimeAction)
  | selector (rt : Option Name) (a : SelectorAction)
  | cls (rt : Option Name) (a : ClassAction)
  | object (a : ObjectAction)
  | call (rt : Option Name) (a : CallAction)
  | text (rt : Option Name) (a : TextAction)
  | buffer (rt : Option Name) (a : BufferAction)
  | thread (rt : Option Name) (a : ThreadAction)
  | host (a : HostAction)
  deriving DecidableEq, Repr

/-- How a method is added: under a signature, which is interned, or under a number. -/
inductive MethodKey where
  | signature (text : Bytes)
  | number (s : Selector)
  deriving DecidableEq, Repr

/-- The heading of a method. -/
structure MethodHeading where
  key : MethodKey
  arity : Int
  deriving DecidableEq, Repr

/-- The heading of a class definition. `leak` names a variable that keeps the method table. -/
structure ClassHeading where
  runtime : Option Name := none
  name : Bytes
  superclass : ClassOperand := {}
  leak : Option Name := none
  deriving DecidableEq, Repr

/-- What a step does with its outcome: the variable to bind, and whether a failure is recorded
instead of ending the script. -/
structure Disposition where
  target : Option Name := none
  attempt : Bool := false
  deriving DecidableEq, Repr

/-- One step of a script. -/
inductive Step where
  | action (a : Action) (d : Disposition)
  | return (v : Operand) (d : Disposition)
  | branch (v : Operand) (yes no : List Step) (d : Disposition)
  | times (count : Nat) (counter : Name) (body : List Step)
  | defineClass (heading : ClassHeading) (methods : List (MethodHeading × List Step))
      (init : List Step) (d : Disposition)
  | addMethod (table : Name) (heading : MethodHeading) (body : List Step) (d : Disposition)
  | newRunnable (rt : Option Name) (body : Option (List Step)) (d : Disposition)
  deriving Repr

/-- A program: its steps in order. -/
abbrev Script := List Step

end ObjectKernel
