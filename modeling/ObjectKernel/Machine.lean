import ObjectKernel.Script.Interpreter

/-!
# The machine

Tasks that share a world. A step of the machine is a step of one task, and nothing says which task
comes next: every sequence of steps is a possible run.

## Contents

* `Frame`, `Task`, `Machine`.
* `Task.resume`: how a finished program returns to its caller or its guard.
* `Machine.step`: one step of one task; none when it is over or has to wait.
* `Machine.expire`: the end of a bounded wait before its condition holds.
* `Machine.Move`, `Machine.Run`: the possible runs.
-/

namespace ObjectKernel

/-- What a task goes back to when a program ends. -/
inductive Frame where
  | caller (k : Except Err Value → Prog)
  | guard (k : Outcome → Prog)

/-- A task: the rest of its program and what it goes back to. -/
structure Task where
  id : TaskId
  prog : Prog
  frames : List Frame := []

/-- What a task does after a program ended. -/
def Frame.resume (o : Outcome) : Frame → Prog
  | .guard k => k o
  | .caller k =>
    match o with
    | .value v => k (.ok v)
    | .error e => k (.error e)
    | .panic p => .finish (.panic p)

/-- Whether a task is over. -/
def Task.isOver (t : Task) : Bool :=
  match t.prog, t.frames with
  | .finish _, [] => true
  | _, _ => false

/-- Tasks that share a world. -/
structure Machine where
  world : World
  tasks : Array Task

namespace Machine

/-- The machine with a task replaced. -/
def setTask (m : Machine) (i : Nat) (t : Task) : Machine :=
  { m with tasks := m.tasks.setIfInBounds i t }

/-- One step of one task; none when it is over or has to wait. -/
def step (m : Machine) (i : Nat) : Option Machine := do
  let t ← m.tasks[i]?
  match t.prog with
  | .finish o =>
    match t.frames with
    | [] => none
    | f :: rest => some (m.setTask i { t with prog := f.resume o, frames := rest })
  | .observe f => some (m.setTask i { t with prog := f t.id m.world })
  | .perform instr k =>
    let (a, w) := instr.exec t.id m.world
    some { m.setTask i { t with prog := k a } with world := w }
  | .await c _ k =>
    if c.holds m.world then some (m.setTask i { t with prog := k true }) else none
  | .call a k => some (m.setTask i { t with prog := a.program, frames := .caller k :: t.frames })
  | .guard body k => some (m.setTask i { t with prog := body, frames := .guard k :: t.frames })
  | .spawn o k =>
    let m := m.setTask i { t with prog := k }
    let child : Task := { id := m.world.tasks, prog := (Activation.thread o).program }
    some { world := { m.world with tasks := m.world.tasks + 1 }, tasks := m.tasks.push child }
  | .pause k => some (m.setTask i { t with prog := k })

/-- The end of a bounded wait before its condition holds; none when the task is not in one. -/
def expire (m : Machine) (i : Nat) : Option Machine := do
  let t ← m.tasks[i]?
  match t.prog with
  | .await _ (some _) k => some (m.setTask i { t with prog := k false })
  | _ => none

/-- A move of a machine: some task takes a step, or a bounded wait ends. -/
inductive Move : Machine → Machine → Prop where
  | step {m n : Machine} (i : Nat) (h : m.step i = some n) : Move m n
  | expire {m n : Machine} (i : Nat) (h : m.expire i = some n) : Move m n

/-- The runs of a machine. -/
inductive Run : Machine → Machine → Prop where
  | refl (m : Machine) : Run m m
  | tail {m n p : Machine} (run : Run m n) (move : Move n p) : Run m p

/-- A machine with one task. -/
def start (w : World) (p : Prog) : Machine := { world := w, tasks := #[{ id := mainTask, prog := p }] }

end Machine

end ObjectKernel
