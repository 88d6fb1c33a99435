import ObjectKernel.Config
import ObjectKernel.Files
import ObjectKernel.Text.Quoted

/-!
# Failures

An operation fails with an `Err`: a fault that the kernel itself raises, an error raised by a
program, or an error of its surroundings. A program defect ends in a `Panic` instead, which unwinds
to whoever guards against it. The wording of everything is in this module.

## Contents

* `Kind`: the category of a runtime error.
* `Fault`: the causes that the kernel raises, each with its kind, operation, detail and value.
* `Err`, `Err.message`, `Err.causes`: errors and what they wrap.
* `Err.hasKind`, `Err.label`: the tests that programs apply to an error.
* `Defect`, `Panic`: what a program defect unwinds with.
-/

namespace ObjectKernel

/-- The category of a runtime error. -/
inductive Kind where
  | bounds
  | overflow
  | illegalState
  | illegalArgument
  | allocation
  | noSuchMethod
  | unsupported
  | contract
  | other (name : Bytes)
  deriving DecidableEq, Repr

namespace Kind

/-- The kinds of the kernel's own errors. -/
def builtIn : List Kind :=
  [bounds, overflow, illegalState, illegalArgument, allocation, noSuchMethod, unsupported, contract]

/-- How a kind is written. -/
def name : Kind → Bytes
  | bounds => "bounds"
  | overflow => "overflow"
  | illegalState => "illegal_state"
  | illegalArgument => "illegal_argument"
  | allocation => "allocation"
  | noSuchMethod => "no_such_method"
  | unsupported => "unsupported"
  | contract => "contract"
  | other n => n

/-- The kind with a given name. -/
def ofName (n : Bytes) : Kind := (builtIn.find? fun k => k.name = n).getD (other n)

end Kind

/-- Something attached to an error for programs to look at. -/
inductive Datum where
  | number (n : Int)
  | text (b : Bytes)
  deriving DecidableEq, Repr

/-- The name of a class, or of the absence of one. -/
def shownClass : Option Bytes → Bytes
  | none => "<nil>"
  | some name => name

/-- A failure that the kernel raises. -/
inductive Fault where
  /-- A class without a name. -/
  | emptyClassName
  /-- A superclass that another runtime defined. -/
  | foreignSuperclass (superclass name : Bytes)
  /-- A class whose definition was cut short by a panic. -/
  | definitionIncomplete (name : Bytes)
  /-- A class that is defined with another superclass. -/
  | superclassConflict (name : Bytes) (superclass : Option Bytes)
  /-- A method added to a class that is complete. -/
  | tableSealed (signature : Bytes)
  /-- Construction of nothing. -/
  | nullObject
  /-- Construction without a class. -/
  | nullClass
  /-- Construction of an object that has a class. -/
  | alreadyBound (current requested : Bytes)
  /-- A call on nothing. -/
  | nullReceiver (op : Bytes)
  /-- A call on an object that has no class. -/
  | unboundReceiver (op shape : Bytes)
  /-- A selector that no class of the chain answers. -/
  | noMethod (className signature : Bytes) (selector : Int)
  /-- A signature that was never interned. -/
  | noSignature (className signature : Bytes)
  /-- A super call from a class without a superclass. -/
  | noSuperclass (origin : Option Bytes)
  /-- A call with the wrong number of arguments. -/
  | wrongArity (method : Bytes) (expected : Int) (given : Nat)
  /-- A `toString()` that returned something else. -/
  | notText (className shown : Bytes)
  /-- An index outside a string. -/
  | indexOutOfBounds (index : Int) (length : Nat)
  /-- A string longer than the runtime allows. -/
  | tooLong (op : Bytes) (length limit : Nat)
  /-- A buffer that may not grow as far as needed. -/
  | bufferFull (needed limit : Nat)
  /-- A thread of a class that is no thread class. -/
  | notThreadClass (shown : Option Bytes)
  /-- A thread used before it was initialised. -/
  | notInitialized (op : Bytes)
  /-- A thread started twice, or one that the runtime did not make. -/
  | alreadyStarted (name : Bytes)
  /-- A join of a thread that the runtime did not start itself. -/
  | notJoinable (name : Bytes)
  /-- A join of a thread that was never started. -/
  | neverStarted (name : Bytes)
  /-- A negative number of milliseconds. -/
  | negativeTimeout (op : Bytes) (millis : Int)
  /-- A number of nanoseconds outside a millisecond. -/
  | nanosOutOfRange (op : Bytes) (nanos : Int)
  /-- Thread interruption, which is declared only. -/
  | interruptionUnsupported (op : Bytes)
  /-- Monitor ownership, which is not tracked. -/
  | monitorsUntracked
  deriving DecidableEq, Repr

namespace Fault

/-- The category of a fault. -/
def kind : Fault → Kind
  | emptyClassName | foreignSuperclass .. | nullObject | nullClass | wrongArity ..
  | notThreadClass _ | negativeTimeout .. | nanosOutOfRange .. => .illegalArgument
  | definitionIncomplete _ | superclassConflict .. | alreadyBound .. | notText ..
  | notInitialized _ | alreadyStarted _ | notJoinable _ | neverStarted _ => .illegalState
  | tableSealed _ | nullReceiver _ | unboundReceiver .. => .contract
  | noMethod .. | noSignature .. | noSuperclass _ => .noSuchMethod
  | indexOutOfBounds .. => .bounds
  | tooLong .. => .overflow
  | bufferFull .. => .allocation
  | interruptionUnsupported _ | monitorsUntracked => .unsupported

/-- The operation that failed. -/
def op : Fault → Bytes
  | emptyClassName | foreignSuperclass .. | definitionIncomplete _ | superclassConflict .. =>
    "defineClass"
  | tableSealed _ => "MethodTable.AddMethod"
  | nullObject | nullClass | alreadyBound .. => "construct"
  | nullReceiver op | unboundReceiver op _ => op
  | noMethod .. => "dispatch"
  | noSignature .. => "send"
  | noSuperclass _ => "dispatchSuper"
  | wrongArity method .. => method
  | notText className _ => className ++ ".toString"
  | indexOutOfBounds .. => "String.charAt"
  | tooLong op .. => op
  | bufferFull .. => "StringBuffer.append"
  | notThreadClass _ => "Thread.<init>"
  | notInitialized op => op
  | alreadyStarted _ => "Thread.start"
  | notJoinable _ | neverStarted _ => "Thread.join"
  | negativeTimeout op _ | nanosOutOfRange op _ => op
  | interruptionUnsupported op => op
  | monitorsUntracked => "Thread.holdsLock"

/-- What went wrong, in words. -/
def detail : Fault → Bytes
  | emptyClassName => "empty class name"
  | foreignSuperclass superclass name =>
    "superclass " ++ superclass ++ " of " ++ name ++ " is not defined in this runtime"
  | definitionIncomplete name => "definition of " ++ name ++ " did not complete"
  | superclassConflict name superclass =>
    name ++ " already defined with superclass " ++ shownClass superclass
  | tableSealed signature => "class already sealed (selector " ++ Quoted.text signature ++ ")"
  | nullObject => "nil object"
  | nullClass => "nil class"
  | alreadyBound current _ => "object already bound to " ++ current
  | nullReceiver _ => "null receiver"
  | unboundReceiver _ shape => "receiver " ++ shape ++ " has no bound class"
  | noMethod className signature selector =>
    className ++ "." ++ (if signature = [] then "#" ++ Bytes.ofInt selector else signature)
  | noSignature className signature => className ++ "." ++ signature
  | noSuperclass origin => "no superclass for " ++ shownClass origin
  | wrongArity _ expected given =>
    "expected " ++ Bytes.ofInt expected ++ " arguments, got " ++ Bytes.ofNat given
  | notText _ shown => "returned " ++ shown ++ ", not a String"
  | indexOutOfBounds index length =>
    "index " ++ Bytes.ofInt index ++ " out of bounds for length " ++ Bytes.ofNat length
  | tooLong _ length limit =>
    "length " ++ Bytes.ofNat length ++ " exceeds maximum " ++ Bytes.ofNat limit
  | bufferFull needed limit =>
    "buffer capacity " ++ Bytes.ofNat needed ++ " exceeds limit " ++ Bytes.ofNat limit
  | notThreadClass shown => shownClass shown ++ " is not a subclass of java.lang.Thread"
  | notInitialized _ => "thread was not initialized"
  | alreadyStarted name => name ++ " already started"
  | notJoinable name => name ++ " is not a runtime thread and cannot be joined"
  | neverStarted name => name ++ " was never started"
  | negativeTimeout _ millis => "timeout value is negative: " ++ Bytes.ofInt millis
  | nanosOutOfRange _ nanos => "nanosecond timeout value out of range: " ++ Bytes.ofInt nanos
  | interruptionUnsupported _ => "thread interruption is not implemented"
  | monitorsUntracked => "monitor ownership is not tracked"

/-- What is attached for programs to look at. -/
def value : Fault → Option Datum
  | alreadyBound _ requested => some (.text requested)
  | noMethod _ _ selector => some (.number selector)
  | indexOutOfBounds index _ => some (.number index)
  | tooLong _ length _ => some (.number length)
  | bufferFull needed _ => some (.number needed)
  | _ => none

end Fault

/-- What ends a bounded wait. -/
inductive Expiry where
  | deadline
  | cancelled
  deriving DecidableEq, Repr

/-- A failure that an operation returns. -/
inductive Err where
  /-- A fault of the kernel. -/
  | fault (f : Fault)
  /-- A runtime error raised by a program. -/
  | raised (kind : Kind) (op detail : Bytes)
  /-- A runtime error raised by a program on account of another failure. -/
  | raisedBy (kind : Kind) (op detail : Bytes) (cause : Err)
  /-- A failure of the program's own, known by its text alone. -/
  | plain (text : Bytes)
  /-- A bounded wait that ran out. -/
  | expired (e : Expiry)
  /-- The shutdown barrier gave up while a thread was running. -/
  | barrierInterrupted (thread : Bytes) (cause : Err)
  /-- A failure to which a second one was added. -/
  | followedBy (first : Err) (second : Bytes)
  /-- A worker thread ended with a failure. -/
  | workerFailed (name : Bytes) (cause : Err)
  /-- Settings that a runtime cannot honour. -/
  | invalidConfig (e : ConfigError)
  /-- A report that could not be written. -/
  | reportNotWritten (path : Bytes) (e : FileError)
  /-- A report that could not be read. -/
  | reportNotRead (path : Bytes) (e : FileError)
  /-- Bytes that are no report. -/
  | reportMalformed
  deriving DecidableEq, Repr

namespace Err

/-- The text of a runtime error without its cause. -/
def heading (kind : Kind) (op detail : Bytes) : Bytes :=
  let place : Bytes := if op = [] then [] else " in " ++ op
  let reason : Bytes := if detail = [] then [] else ": " ++ detail
  "rjava: " ++ kind.name ++ place ++ reason

/-- The text of an error. -/
def message : Err → Bytes
  | fault f => heading f.kind f.op f.detail
  | raised kind op detail => heading kind op detail
  | raisedBy kind op detail cause =>
    heading kind op detail ++ " (caused by: " ++ cause.message ++ ")"
  | plain text => text
  | expired .deadline => "context deadline exceeded"
  | expired .cancelled => "context canceled"
  | barrierInterrupted thread cause =>
    "join-all interrupted waiting for " ++ thread ++ ": " ++ cause.message
  | followedBy first second => first.message ++ "; " ++ second
  | workerFailed name cause => name ++ " failed: " ++ cause.message
  | invalidConfig e => "invalid runtime config: " ++ e.message
  | reportNotWritten path e => "runtime: write report " ++ path ++ ": " ++ e.message
  | reportNotRead path e => "runtime: read report " ++ path ++ ": " ++ e.message
  | reportMalformed => "runtime: unmarshal report"

/-- The error that an error wraps. -/
def cause? : Err → Option Err
  | raisedBy _ _ _ cause | barrierInterrupted _ cause | workerFailed _ cause => some cause
  | followedBy first _ => some first
  | _ => none

/-- An error followed by what it wraps, outermost first. -/
def causes : Err → List Err
  | raisedBy k o d cause => raisedBy k o d cause :: cause.causes
  | barrierInterrupted t cause => barrierInterrupted t cause :: cause.causes
  | workerFailed n cause => workerFailed n cause :: cause.causes
  | followedBy first s => followedBy first s :: first.causes
  | e => [e]

/-- The kind of a runtime error, none for any other error. -/
def kind? : Err → Option Kind
  | fault f => some f.kind
  | raised kind _ _ | raisedBy kind _ _ _ => some kind
  | _ => none

/-- Whether an error or something it wraps is a runtime error of a kind. -/
def hasKind (e : Err) (k : Kind) : Bool := e.causes.any fun c => c.kind? == some k

/-- Whether an error is or wraps the expiry of a deadline. -/
def isDeadline (e : Err) : Bool := e.causes.any fun c => c == expired .deadline

/-- The value attached to the outermost runtime error. -/
def value? (e : Err) : Option Datum :=
  match e.causes.find? fun c => c.kind?.isSome with
  | some (fault f) => f.value
  | _ => none

/-- The one word that classifies an error: the kind of the outermost runtime error, else how a wait
ended. -/
inductive Label where
  | kind (k : Kind)
  | expired (e : Expiry)
  | other
  deriving DecidableEq, Repr

/-- The classification of an error. -/
def label (e : Err) : Label :=
  match e.causes.findSome? kind? with
  | some k => .kind k
  | none =>
    if e.causes.any (· == expired .deadline) then .expired .deadline
    else if e.causes.any (· == expired .cancelled) then .expired .cancelled
    else .other

/-- How a classification is written. -/
def Label.name : Label → Bytes
  | .kind k => k.name
  | .expired .deadline => "deadline"
  | .expired .cancelled => "canceled"
  | .other => "other"

end Err

/-- A defect that the kernel meets in the program it runs. -/
inductive Defect where
  /-- A runtime or an object that is not there was used. -/
  | nullDereference
  /-- An object has another shape than an operation needs. -/
  | wrongShape (actual expected : Bytes)
  /-- An object is no thread. -/
  | notThread (actual : Bytes)
  /-- A method table index below zero. -/
  | indexOutOfRange (index : Int)
  /-- More places were asked for than there can be memory for. -/
  | tooManyPlaces
  /-- A thread was marked as over for a second time. -/
  | endedTwice
  deriving DecidableEq, Repr

/-- The wording of a defect. -/
def Defect.message : Defect → Bytes
  | nullDereference => "runtime error: invalid memory address or nil pointer dereference"
  | wrongShape actual expected =>
    "interface conversion: runtime.Object is " ++ actual ++ ", not " ++ expected
  | notThread actual =>
    "interface conversion: " ++ actual ++ " is not runtime.ThreadObject: missing method JavaThread"
  | indexOutOfRange index => "runtime error: index out of range [" ++ Bytes.ofInt index ++ "]"
  | tooManyPlaces => "runtime error: makeslice: len out of range"
  | endedTwice => "close of closed channel"

/-- What a panic carries. -/
inductive Panic where
  | error (e : Err)
  | text (b : Bytes)
  | defect (d : Defect)
  deriving DecidableEq, Repr

/-- The text of what a panic carries. -/
def Panic.message : Panic → Bytes
  | .error e => e.message
  | .text b => b
  | .defect d => d.message

end ObjectKernel
