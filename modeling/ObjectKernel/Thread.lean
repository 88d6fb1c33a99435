import ObjectKernel.Error
import ObjectKernel.Report
import ObjectKernel.Value

/-!
# Threads

A thread passes through four stages in order. Its `started` mark decides which of several starts
takes effect, and its `ended` mark is what joins wait for.

## Contents

* `ThreadState`: the stages, with a number and a name each.
* `Thread`: what a thread object knows about itself.
* `Timeout.duration`: how a number of milliseconds and nanoseconds bounds a wait.
* `Thread.joinable`: the threads that can be joined.
-/

namespace ObjectKernel

/-- The stages of a thread's life. -/
inductive ThreadState where
  | new
  | started
  | runnable
  | terminated
  deriving DecidableEq, Repr

namespace ThreadState

/-- The stage with a number. -/
def ofNumber? : Int → Option ThreadState
  | 0 => some new
  | 1 => some started
  | 2 => some runnable
  | 3 => some terminated
  | _ => none

/-- The number of a stage. -/
def number : ThreadState → Nat
  | new => 0
  | started => 1
  | runnable => 2
  | terminated => 3

/-- The name of a stage. -/
def name : ThreadState → Bytes
  | new => "NEW"
  | started => "STARTED"
  | runnable => "RUNNABLE"
  | terminated => "TERMINATED"

/-- The name of the stage with a number, which may be none. -/
def nameOfNumber (n : Int32) : Bytes :=
  match ofNumber? n.toInt with
  | some s => s.name
  | none => "UNKNOWN"

/-- Whether a thread at this stage counts as alive. -/
def isAlive : ThreadState → Bool
  | started | runnable => true
  | new | terminated => false

end ThreadState

/-- What a thread knows about itself. A thread without a home was never initialised. -/
structure Thread where
  /-- The runtime it was initialised in. -/
  home : Option Nat := none
  /-- The outermost object, on which `run()` is called. -/
  self : Option ObjId := none
  /-- The work item. -/
  target : Option ObjId := none
  id : Int64 := 0
  name : Bytes := []
  /-- Whether it stands for a task that the runtime did not start. -/
  adopted : Bool := false
  /-- Whether a start has taken effect. -/
  started : Bool := false
  state : ThreadState := .new
  /-- Whether it is over; joins wait for this. -/
  ended : Bool := false
  /-- The failure that escaped `run()`. -/
  uncaught : Option Err := none
  deriving DecidableEq, Repr

/-- Refuses a join of a thread that the runtime did not start. -/
def Thread.joinable (t : Thread) : Except Fault Unit :=
  if t.adopted then .error (.notJoinable t.name)
  else if t.home.isNone ∨ !t.started then .error (.neverStarted t.name)
  else .ok ()

/-- How a thread is shown in a listing. -/
def Thread.record (t : Thread) : ThreadRecord :=
  { id := t.id
    name := t.name
    state := t.state.name
    uncaught := match t.uncaught with
      | some e => e.message
      | none => [] }

/-! ## Timeouts -/

namespace Timeout

/-- The nanoseconds in a millisecond. -/
def perMilli : Int64 := 1000000

/-- The length of a wait in nanoseconds, in 64-bit arithmetic. Zero means no bound, and so does a wait
longer than the greatest 64-bit number. -/
def duration (op : Bytes) (millis : Int64) (nanos : Int32) : Except Fault Int64 :=
  if millis < 0 then .error (.negativeTimeout op millis.toInt)
  else if nanos < 0 ∨ 999999 < nanos then .error (.nanosOutOfRange op nanos.toInt)
  else if (Int64.maxValue - nanos.toInt64) / perMilli < millis then .ok 0
  else .ok (millis * perMilli + nanos.toInt64)

/-- The length of a sleep: one that would be longer than the greatest 64-bit number is cut to it. -/
def sleep (millis : Int64) (nanos : Int32) : Except Fault Int64 := do
  let d ← duration "Thread.sleep" millis nanos
  return if d = 0 ∧ 0 < millis then Int64.maxValue else d

end Timeout

end ObjectKernel
