import ObjectKernel.Script.Action

/-!
# Running scripts

The steps of a body run in order until one returns or fails. A step that is only an attempt never
fails: what comes of it goes to the log instead. The main script is different in that every step is
answered and none ends it.

## Contents

* `Flow`: whether the steps go on.
* `Op.dispose`: what becomes of the result of a step.
* `Step.toOp`, `Script.toOp`: steps and bodies.
* `Script.call`: a body as a method.
* `Script.main`: a main script.
* `Activation.program`: what is run for a call.
-/

namespace ObjectKernel

/-- Whether the steps of a body go on. -/
inductive Flow where
  | proceed
  | returned (v : Value)
  deriving DecidableEq, Repr

namespace Op

/-- Binds the value of a step, if the step has a value and a variable for it. -/
def bindTarget (ctx : Context) (target : Option Name) (v : Option Value) : Op Unit :=
  match target, v with
  | some x, some v => edit (.assign ctx.scope x v)
  | _, _ => pure ()

/-- Completes a step: binds its value, lets a thread that it started run and, for an attempt, logs what
came of it. -/
def dispose (ctx : Context) (attempts : Bool) (d : Disposition) (x : Op (Flow × StepResult)) :
    Op (Flow × StepResult) := do
  let completed : Op (Flow × StepResult) := do
    let (flow, r, v) ← x
    bindTarget ctx d.target v
    pause
    return (flow, r, v)
  if attempts && d.attempt then
    match ← result completed with
    | .ok (flow, r, v) =>
      edit (.log (.done r))
      return (flow, r, v)
    | .error e =>
      edit (.log (.failed e))
      return (.proceed, .nothing, none)
  else completed

/-- The result of a step after which the next one follows. -/
def proceeding (x : Op StepResult) : Op (Flow × StepResult) := do return (.proceed, ← x)

/-- Repeats a body with a counter until it returns. -/
def repeated (body : Nat → Op Flow) (start : Nat) : Nat → Op Flow
  | 0 => pure .proceed
  | count + 1 => do
    match ← body start with
    | .proceed => repeated body (start + 1) count
    | .returned v => return .returned v

/-- Adds the methods of a class definition to its table. -/
def addMethods (home : RuntimeId) (table : TableId) :
    List (MethodHeading × List Step) → Op Unit
  | [] => pure ()
  | (heading, body) :: rest => do
    let _ ← addMethod table heading (.script home body)
    addMethods home table rest

/-- Runs an operation whose errors are defects of the program. -/
def insist (x : Op Unit) : Op Unit := do
  match ← result x with
  | .ok _ => pure ()
  | .error e => panic (.error e)

end Op

open Op

mutual

/-- Runs a step; `attempts` says whether an attempt counts as one here. -/
def Step.toOp (ctx : Context) (attempts : Bool) : Step → Op (Flow × StepResult)
  | .action a d => dispose ctx attempts d (proceeding (a.toOp ctx))
  | .return v d => dispose ctx attempts d do
    return (.returned (← observe (·.operand ctx v)), .nothing, none)
  | .branch v yes no d => dispose ctx attempts d do
    let chosen ← observe fun w => (w.operand ctx v).asBool
    let flow ← if chosen then stepsToOp ctx yes else stepsToOp ctx no
    return (flow, .nothing, none)
  | .times count counter body => do
    let flow ← repeated
      (fun i => do
        edit (.assign ctx.scope counter (.ofInt32 (Int32.ofNat i)))
        stepsToOp ctx body)
      0 count
    return (flow, .nothing, none)
  | .defineClass heading methods init d => dispose ctx attempts d (proceeding do
    let home ← observe (·.runtimeOperand ctx heading.runtime)
    let superclass ← classOperand ctx heading.superclass
    let (c, built) ← Op.defineClass home heading.name superclass fun table => do
      match heading.leak with
      | some x => edit (.keepTable x table)
      | none => pure ()
      addMethods (← need home) table methods
      insist do
        let _ ← stepsToOp ctx init
    reply (.definition c.view built))
  | .addMethod table heading body d => dispose ctx attempts d (proceeding do
    match ← observe fun w => (w.scene.tables.get? table).bind fun t =>
        (w.tables[t]?).map fun m => (t, m.home) with
    | none => defect .nullDereference
    | some (t, home) => reply (.number (← Op.addMethod t heading (.script home body))))
  | .newRunnable rt body d => dispose ctx attempts d (proceeding do
    let home ← need (← observe (·.runtimeOperand ctx rt))
    answerObject (← Op.newRunnable (some home) (body.map (.script home))))

/-- Runs the steps of a body. -/
def stepsToOp (ctx : Context) : List Step → Op Flow
  | [] => pure .proceed
  | s :: rest => do
    let (flow, _) ← s.toOp ctx true
    match flow with
    | .proceed => stepsToOp ctx rest
    | .returned v => return .returned v

end

/-- Runs a body as a method: falling off its end returns null. -/
def Script.call (home : RuntimeId) (body : Script) (self : Option ObjId) (args : List Value) :
    Op Value := do
  let scope ← perform (.openScope (Scene.callVariables self args))
  match ← stepsToOp { home := some home, scope := some scope } body with
  | .proceed => return .null
  | .returned v => return v

/-- Runs a main script: every step is answered, whatever comes of it. -/
def Script.main (ctx : Context) : Script → Op Unit
  | [] => pure ()
  | s :: rest => do
    let outcome ← guard do
      let (_, r, _) ← s.toOp ctx false
      edit (.answer (.done r))
    match outcome with
    | .value _ => pure ()
    | .error e => edit (.answer (.failed e))
    | .panic p => edit (.answer (.panicked p))
    Script.main ctx rest

/-- What is run for a call. -/
def Activation.program : Activation → Prog
  | .code (.builtin home b) self args => (b.run home self args).toProg
  | .code (.script home body) self args => (Script.call home body self args).toProg
  | .thread o => (execute o).toProgUnit
  | .joinAll home self bound => (Op.joinAll home self bound).toProgUnit

end ObjectKernel
