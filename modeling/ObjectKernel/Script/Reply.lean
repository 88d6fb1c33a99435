import ObjectKernel.Script.Step
import ObjectKernel.Thread

/-!
# Replies

What the steps of a script answer, as data. A reply keeps what was true when the step ended: objects
change afterwards, records do not.

## Contents

* `View`: what a record keeps of a value.
* `Reply`: the answers of the steps.
* `Entry`: the outcome of a step in a record.
-/

namespace ObjectKernel

/-- What a record keeps of a value. -/
inductive View where
  | null
  | boolean (b : Bool)
  | number (type : ValueType) (bits : Int64)
  | missing (type : ValueType)
  | object (type : ValueType) (className : Option Bytes) (hash : UInt32) (text : Option Bytes)
  deriving DecidableEq, Repr

/-- What a record keeps of a class. -/
structure ClassView where
  name : Bytes
  superclass : Option Bytes
  selectors : List Selector
  deriving DecidableEq, Repr

/-- What a record keeps of a method. -/
structure MethodView where
  selector : Selector
  name : Bytes
  arity : Int
  owner : Bytes
  deriving DecidableEq, Repr

/-- A value from every side. -/
structure ValueFacts where
  type : Bytes
  shown : Bytes
  isNull : Bool
  truth : Bool
  char : Rune
  int : Int32
  long : Int64
  hasObject : Bool
  deriving DecidableEq, Repr

/-- What a record keeps of a thread. -/
structure ThreadView where
  id : Int64
  name : Bytes
  state : ThreadState
  uncaught : Option Err
  deriving DecidableEq, Repr

/-- The answer of a step. -/
inductive Reply where
  | nothing
  | flag (b : Bool)
  | number (n : Int)
  | text (b : Bytes)
  | texts (names : List Bytes)
  | chars (rs : List Rune)
  | value (v : View)
  | facts (f : ValueFacts)
  | config (c : Config)
  | cls (c : Option ClassView)
  | definition (c : ClassView) (built : Bool)
  | method (m : Option MethodView)
  | buffer (length capacity : Nat) (failure : Option Err)
  | thread (t : ThreadView)
  | hostThread (id : Int64) (name : Bytes)
  | threads (all live : List ThreadView)
  | errorReports (reports : List (Bytes × Bool))
  | report (own ordered : Bool) (r : Report)
  deriving DecidableEq, Repr

/-- The outcome of a step in a record. -/
inductive Entry where
  | seen (v : View)
  | done (r : Reply)
  | failed (e : Err)
  | panicked (p : Panic)
  deriving DecidableEq, Repr

/-- A report without what differs from run to run. -/
def Report.anonymous (r : Report) : Report := { r with session := "s", startedAt := 0, finishedAt := 0 }

end ObjectKernel
