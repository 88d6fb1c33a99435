import ObjectKernel.Instruction

/-!
# Programs

What a task does, as a tree: a program reads the state, performs an instruction, waits, calls, or
ends. Between any two of these another task may run. Operations of the kernel are written as `Op`s,
which say how a program goes on from a result or an error; a panic ends the program at once and
unwinds to the nearest guard.

## Contents

* `Outcome`, `Condition`, `Activation`, `Prog`.
* `Op` with `observe`, `perform`, `await`, `call`, `spawn`, `pause`, `panic` and `protect`.
-/

namespace ObjectKernel

/-- How a program ends. -/
inductive Outcome where
  | value (v : Value)
  | error (e : Err)
  | panic (p : Panic)
  deriving DecidableEq, Repr

/-- What a task can wait for. -/
inductive Condition where
  /-- A gate is open. -/
  | gate (g : Name)
  /-- A thread is over. -/
  | ended (o : ObjId)
  /-- Every started thread of a runtime but a given one has terminated. -/
  | quiet (home : RuntimeId) (self : Option ObjId)
  /-- The definition of a class has come to an end. -/
  | settled (home : RuntimeId) (name : Bytes)
  deriving DecidableEq, Repr

/-- Whether a condition holds. -/
def Condition.holds (w : World) : Condition → Bool
  | gate g => w.scene.openGates.contains g
  | ended o => w.hasEnded o
  | quiet home self => (w.pendingThreads home self).isEmpty
  | settled home name =>
    match (w.classes home).entries.get? name with
    | some e => e.isFinal
    | none => false

/-- Something to be run, looked up when it is called. -/
inductive Activation where
  /-- A method or work item with its receiver and arguments. -/
  | code (c : Code) (self : Option ObjId) (args : List Value)
  /-- A thread, on a task of its own. -/
  | thread (o : ObjId)
  /-- Waiting until every started thread of a runtime but a given one has terminated. -/
  | joinAll (home : RuntimeId) (self : Option ObjId) (bound : Option Expiry)

/-- The rest of what a task does. -/
inductive Prog where
  /-- Ends with an outcome. -/
  | finish (o : Outcome)
  /-- Goes on as the state says. -/
  | observe (f : TaskId → World → Prog)
  /-- Performs an instruction. -/
  | perform (i : Instr) (k : i.Answer → Prog)
  /-- Waits for a condition; a bounded wait may end before it holds, which the continuation is told. -/
  | await (c : Condition) (bound : Option Expiry) (k : Bool → Prog)
  /-- Calls; a panic of the callee passes through. -/
  | call (a : Activation) (k : Except Err Value → Prog)
  /-- Runs a program to its outcome, whatever it is. -/
  | guard (body : Prog) (k : Outcome → Prog)
  /-- Starts a task that runs a thread. -/
  | spawn (o : ObjId) (k : Prog)
  /-- Goes on, at a place where a task that was started may well come first. -/
  | pause (k : Prog)

/-- Programs that look at the world are equal if they go on alike. -/
theorem Prog.observe_congr {f g} (h : ∀ id w, f id w = g id w) :
    Prog.observe f = Prog.observe g := congrArg Prog.observe (funext fun id => funext (h id))

/-- An operation: a program that lacks what follows its result. -/
def Op (α : Type) : Type := (Except Err α → Prog) → Prog

namespace Op

instance : Monad Op where
  pure a := fun k => k (.ok a)
  bind x f := fun k => x fun
    | .ok a => f a k
    | .error e => k (.error e)

instance : MonadExcept Err Op where
  throw e := fun k => k (.error e)
  tryCatch x h := fun k => x fun
    | .ok a => k (.ok a)
    | .error e => h e k

/-- The result of an operation, whether a value or an error. -/
def result {α : Type} (x : Op α) : Op (Except Err α) := fun k => x fun r => k (.ok r)

/-- The operation with a given result. -/
def ofExcept {α : Type} (r : Except Err α) : Op α := fun k => k r

/-- Fails with a fault of the kernel. -/
def fault {α : Type} (f : Fault) : Op α := throw (.fault f)

/-- The operation with a given result or fault. -/
def ofFault {α : Type} : Except Fault α → Op α
  | .ok a => pure a
  | .error f => fault f

/-- Ends the program with a panic. -/
def panic {α : Type} (p : Panic) : Op α := fun _ => .finish (.panic p)

/-- Ends the program with a defect. -/
def defect {α : Type} (d : Defect) : Op α := panic (.defect d)

/-- The operation with a given result or panic. -/
def ofPanic {α : Type} : Except Panic α → Op α
  | .ok a => pure a
  | .error p => panic p

/-- The operation with the result of a section. -/
def ofStop {α : Type} : Except Stop α → Op α
  | .ok a => pure a
  | .error (.error e) => throw e
  | .error (.panic p) => panic p

/-- Reads the state. -/
def observe {α : Type} (f : World → α) : Op α := fun k => .observe fun _ w => k (.ok (f w))

/-- The task that runs. -/
def task : Op TaskId := fun k => .observe fun t _ => k (.ok t)

/-- Performs an instruction. -/
def perform (i : Instr) : Op i.Answer := fun k => .perform i fun a => k (.ok a)

/-- Waits for a condition; whether it held when the wait ended. -/
def await (c : Condition) (bound : Option Expiry) : Op Bool :=
  fun k => .await c bound fun b => k (.ok b)

/-- Calls. -/
def call (a : Activation) : Op Value := fun k => .call a k

/-- Starts a task that runs a thread. -/
def spawn (o : ObjId) : Op Unit := fun k => .spawn o (k (.ok ()))

/-- Goes on, at a place where a task that was started may well come first. -/
def pause : Op Unit := fun k => .pause (k (.ok ()))

/-- The program of an operation on its own. -/
def toProg (x : Op Value) : Prog := x fun
  | .ok v => .finish (.value v)
  | .error e => .finish (.error e)

/-- The program of an operation whose result does not matter. -/
def toProgUnit (x : Op Unit) : Prog := toProg do
  x
  return .null

/-- Runs an operation to its outcome, whatever it is. -/
def guard (x : Op Unit) : Op Outcome := fun k => .guard x.toProgUnit fun o => k (.ok o)

/-- Runs an operation; if it panics, cleans up and panics again. -/
def protect (x cleanup : Op Unit) : Op Unit := do
  match ← guard x with
  | .value _ => pure ()
  | .error e => throw e
  | .panic p => do
    cleanup
    panic p

/-- A runtime that has to be there. -/
def need (home : Option RuntimeId) : Op RuntimeId :=
  match home with
  | some r => pure r
  | none => defect .nullDereference

end Op

end ObjectKernel
