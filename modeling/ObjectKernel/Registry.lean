import ObjectKernel.Dictionary
import ObjectKernel.Thread

/-!
# Thread registries

A runtime remembers the threads it started, in start order, and which task runs which thread. It also
hands out thread ids and the numbers in default names.

## Contents

* `TaskId`: the number of a task, whether it runs a thread or belongs to the host.
* `Registry` with `nextId`, `nextNumber`, `register`, `bind`, `unbind`, `bound?`.
-/

namespace ObjectKernel

/-- The number of a task. -/
abbrev TaskId := Nat

/-- The threads of a runtime. -/
structure Registry where
  /-- The started threads in start order. -/
  started : List ObjId := []
  /-- The thread of each task that has one. -/
  tasks : Dictionary TaskId ObjId := []
  /-- How many tasks of the host have been given a thread. -/
  adopted : Nat := 0
  /-- How many ids have been handed out. -/
  ids : Nat := 0
  /-- How many numbers for default names have been handed out. -/
  numbers : Nat := 0
  deriving DecidableEq, Repr

namespace Registry

/-- The next thread id; they start at one. -/
def nextId (r : Registry) : Int64 × Registry :=
  (Int64.ofNat (r.ids + 1), { r with ids := r.ids + 1 })

/-- The next default name; they are numbered from zero. -/
def nextName (r : Registry) : Bytes × Registry :=
  ("Thread-" ++ Bytes.ofNat r.numbers, { r with numbers := r.numbers + 1 })

/-- The registry with a thread added at the end of the started ones. -/
def register (r : Registry) (t : ObjId) : Registry := { r with started := r.started ++ [t] }

/-- The registry with a thread bound to the task that runs it. -/
def bind (r : Registry) (task : TaskId) (t : ObjId) : Registry :=
  { r with tasks := r.tasks.insert task t }

/-- The registry without the thread of a task. -/
def unbind (r : Registry) (task : TaskId) : Registry := { r with tasks := r.tasks.erase task }

/-- The thread of a task. -/
def bound? (r : Registry) (task : TaskId) : Option ObjId := r.tasks.get? task

/-- The name that the next adopted thread gets: the first is `main`, others are named for their
task. -/
def adoptedName (r : Registry) (task : TaskId) : Bytes :=
  if r.adopted = 0 then "main" else "host-" ++ Bytes.ofNat task

end Registry

end ObjectKernel
