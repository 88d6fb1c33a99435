import ObjectKernel.Machine

/-!
# The scheduler

One way to choose the tasks of a machine, so that a script has one outcome. A task that starts another
one is suspended at its next pause, last one first, until the other ends or has to wait. Tasks whose
wait is over queue up and come before suspended ones.

## Contents

* `Scheduler`: the machine with the running task, the started, suspended, ready and waiting ones.
* `Scheduler.advance`: the running task takes a step.
* `Scheduler.run`: steps until the first task is over or nothing can go on.
-/

namespace ObjectKernel

/-- A machine with an order among its tasks. Tasks are named by their places. -/
structure Scheduler where
  machine : Machine
  current : Nat := 0
  /-- The tasks that were started and have not run, in order. -/
  started : List Nat := []
  /-- The suspended tasks, the one to go on first in front. -/
  suspended : List Nat := []
  /-- The tasks whose wait is over, in order. -/
  ready : List Nat := []
  /-- The waiting tasks in the order of their arrival. -/
  waiting : List Nat := []

namespace Scheduler

/-- The condition that a task waits for. -/
def condition? (s : Scheduler) (i : Nat) : Option Condition :=
  match (s.machine.tasks[i]?).map Task.prog with
  | some (.await c _ _) => some c
  | _ => none

/-- Whether the condition of a waiting task holds. -/
def isWoken (s : Scheduler) (i : Nat) : Bool :=
  match s.condition? i with
  | some c => c.holds s.machine.world
  | none => true

/-- Whether a task waits for the end of a thread. -/
def isJoining (s : Scheduler) (i : Nat) : Bool :=
  match s.condition? i with
  | some (.ended _) => true
  | _ => false

/-- Queues the waiting tasks whose wait is over: those that wait for a thread, then the others. -/
def wake (s : Scheduler) : Scheduler :=
  let woken := s.waiting.filter s.isWoken
  { s with
    ready := s.ready ++ woken.filter s.isJoining ++ woken.filter (!s.isJoining ·)
    waiting := s.waiting.filter (!s.isWoken ·) }

/-- Passes control to the first started task, else to the first ready one, else to the last suspended
one; none when there is no such task. -/
def pass (s : Scheduler) : Option Scheduler :=
  match s.started, s.ready, s.suspended with
  | i :: rest, _, _ => some { s with current := i, started := rest }
  | [], i :: rest, _ => some { s with current := i, ready := rest }
  | [], [], i :: rest => some { s with current := i, suspended := rest }
  | [], [], [] => none

/-- Lets the running task wait. One that has just started another task waits for nothing else and goes
on as soon as that is over. -/
def park (s : Scheduler) : Scheduler :=
  if s.started.isEmpty then { s with waiting := s.waiting ++ [s.current] }
  else { s with ready := s.current :: s.ready }

/-- What a step of the running task means for the order of tasks. -/
inductive Event where
  | other
  | spawned
  | paused
  | openedGate (g : Name)
  deriving DecidableEq, Repr

/-- The event that the next step of a program is. -/
def eventOf : Prog → Event
  | .spawn _ _ => .spawned
  | .pause _ => .paused
  | .perform (.edit (.openGate g)) _ => .openedGate g
  | _ => .other

/-- Lets other tasks run after a step that calls for it: at a pause a task that was started runs, and
at a gate that opens the tasks that waited there. -/
def settle (s : Scheduler) : Event → Scheduler
  | .other => s
  | .spawned => { s with started := s.started ++ [s.machine.tasks.size - 1] }
  | .paused =>
    if s.started.isEmpty then s
    else
      let s := { s with suspended := s.current :: s.suspended }
      s.pass.getD s
  | .openedGate g =>
    let arrived := s.waiting.filter fun i => s.condition? i = some (.gate g)
    if arrived.isEmpty then s
    else
      let s :=
        { s with
          ready := s.ready ++ arrived
          waiting := s.waiting.filter (· ∉ arrived)
          suspended := s.current :: s.suspended }
      s.pass.getD s

/-- The running task takes a step. A bounded wait ends at once, for nobody else runs meanwhile; any
other wait, or the end of the task, passes control on. None when nothing can go on. -/
def advance (s : Scheduler) : Option Scheduler :=
  match s.machine.tasks[s.current]? with
  | none => none
  | some t =>
    match s.machine.step s.current with
    | some m => some ({ s with machine := m }.settle (eventOf t.prog))
    | none =>
      match s.machine.expire s.current with
      | some m => some { s with machine := m }
      | none =>
        if t.isOver then s.wake.pass
        else s.park.pass

/-- Whether the first task is over. -/
def isOver (s : Scheduler) : Bool :=
  match s.machine.tasks[0]? with
  | some t => t.isOver
  | none => true

/-- Runs until the first task is over, nothing can go on, or the fuel is used up. -/
def run : Nat → Scheduler → Scheduler
  | 0, s => s
  | fuel + 1, s =>
    if s.isOver then s
    else match s.advance with
    | some s => run fuel s
    | none => s

/-- More steps than any script that ends takes in practice. -/
def ample : Nat := 0x4000000000000000

/-- How the first task ended. -/
def outcome? (s : Scheduler) : Option Outcome :=
  match s.machine.tasks[0]? with
  | some t =>
    match t.prog, t.frames with
    | .finish o, [] => some o
    | _, _ => none
  | none => none

/-- Runs a program by itself in a world: the world it leaves, and how it ended. -/
def runProg (w : World) (p : Prog) : World × Option Outcome :=
  let s := run ample { machine := .start w p }
  (s.machine.world, s.outcome?)

end Scheduler

end ObjectKernel
