import ObjectKernel.Manifest
import ObjectKernel.Scheduler

/-!
# The demonstration program

A small program with threads: workers append their progress to a shared buffer, a greeter says which
thread it is, and the main program joins them all, prints the buffer and passes the shutdown barrier.

## Contents

* `Demo.Options`, `Demo.Failure`.
* `Demo.config`: the settings from the nearest manifest and the options.
* `Demo.openLog`: the log file, opened before anything runs.
* `Demo.workerBody`, `Demo.preparation`, `Demo.script`: the program as scripts.
* `Demo.run`: the whole program in a world.
-/

namespace ObjectKernel.Demo

/-- What the program can be told. -/
structure Options where
  configDir : Bytes := "."
  workers : Int := 4
  rounds : Int := 3
  report : Bytes := []
  verbose : Bool := false
  deriving DecidableEq, Repr

/-- Why the program ends early. -/
inductive Failure where
  | badCounts
  | manifest (e : ManifestError)
  | log (e : FileError)
  | failed (e : Err)
  | panicked (p : Panic)
  deriving DecidableEq, Repr

/-- The wording of a failure. -/
def Failure.message : Failure → Bytes
  | badCounts => "need at least one thread and a non-negative round count"
  | manifest e => e.message
  | log e => "log file error: " ++ e.message
  | failed e => e.message
  | panicked p => p.message

/-! ## Settings -/

/-- The verbosity that the verbose option asks for at least. -/
def verboseLevel : Int := 2

/-- The settings with the options laid over them. -/
def overlay (o : Options) (c : Config) : Config :=
  { c with
    reportPath := if o.report = [] then c.reportPath else o.report
    verbosity := if o.verbose ∧ c.verbosity < verboseLevel then verboseLevel else c.verbosity }

/-- The settings of the nearest manifest, or the default ones, with the options laid over them. -/
def config (env : Environment) (fs : Files) (o : Options) : Except ManifestError Config := do
  match ← Manifest.find fs o.configDir with
  | some m => return overlay o (← m.config env)
  | none => return overlay o (.default env)

/-- The verbosity at and below which nothing is logged. -/
def silentLevel : Int := -4

/-- Opens the log file, if there is one and anything is logged at all. -/
def openLog (c : Config) (fs : Files) : Except FileError Files :=
  if c.logFile = [] ∨ c.verbosity ≤ silentLevel then .ok fs else fs.openToAppend c.logFile

/-! ## The program -/

/-- A step without a result to keep. -/
def act (a : Action) : Step := .action a {}

/-- A step whose result is kept in a variable. -/
def keep (x : Name) (a : Action) : Step := .action a { target := some x }

/-- The class of the workers. -/
def workerClass : ClassOperand := { name := some "demo.Worker" }

/-- The variable with the buffer that the workers share. -/
def shared : Name := "$shared"

/-- The variable with a worker. -/
def workerName (i : Nat) : Name := "$worker-" ++ Bytes.ofNat i

/-- What a worker does in one round. -/
def roundBody : Script :=
  [keep "line" (.buffer none .create),
   keep "opening" (.text none (.constant "[")),
   act (.buffer none (.appendText (some "line") (some "opening"))),
   act (.buffer none (.appendObject (some "line") (some "self"))),
   act (.buffer none (.appendChar (some "line") 32)),
   act (.buffer none (.appendInt (some "line") (.ref (some "round")))),
   keep "closing" (.text none (.constant "]")),
   act (.buffer none (.appendText (some "line") (some "closing"))),
   keep "piece" (.buffer none (.toText (some "line"))),
   act (.buffer none (.appendText (some shared) (some "piece"))),
   act (.thread none .yield)]

/-- What a worker does. -/
def workerBody (rounds : Nat) : Script :=
  [.times rounds "round" roundBody,
   act (.buffer none (.check (some shared)))]

/-- The definition of the class of the workers. -/
def defineWorker (rounds : Nat) : Step :=
  .defineClass { name := "demo.Worker", superclass := { name := some "java.lang.Thread" } }
    [({ key := .number Selector.run, arity := 0 }, workerBody rounds)] [] {}

/-- Makes a worker. -/
def makeWorker (i : Nat) : Script :=
  [keep (workerName i) (.object (.allocate .worker)),
   act (.thread none (.init (some (workerName i)) workerClass none)),
   act (.thread none (.setName (some (workerName i)) ("worker-" ++ Bytes.ofNat i)))]

/-- Starts a worker. -/
def startWorker (i : Nat) : Step :=
  act (.call none (.dispatch (some (workerName i)) Selector.start []))

/-- Waits for a worker, which must not have failed. -/
def joinWorker (i : Nat) : Script :=
  [act (.thread none (.join (some (workerName i)))),
   act (.thread none (.check (some (workerName i))))]

/-- What the greeter does. -/
def greeterBody : Script :=
  [keep "me" (.runtime none .globalThread),
   act (.host (.print [.literal "hello from ", .threadName "me", .literal "\n"]))]

/-- How long the main program waits for the greeter, in milliseconds. -/
def greeterPatience : Int64 := 1000

/-- What the main program does before it makes the workers. -/
def preparation (rounds : Nat) : Script :=
  [defineWorker rounds, keep shared (.buffer none .create)]

/-- The main program from the workers on. -/
def script (workers : Nat) : Script :=
  (List.range workers).flatMap makeWorker ++
  [.newRunnable none (some greeterBody) { target := some "greeting" },
   keep "greeter" (.thread none (.create (some "greeting")))] ++
  (List.range workers).map startWorker ++
  [act (.thread none (.start (some "greeter"))),
   act (.thread none (.joinMillis (some "greeter") greeterPatience))] ++
  (List.range workers).flatMap joinWorker ++
  [keep "text" (.buffer none (.toText (some shared))),
   act (.host (.print [.textLength "text", .literal " characters, hash ", .textHash "text",
     .literal "\n"])),
   act (.host (.print [.textContent "text", .literal "\n"])),
   act (.runtime none .globalJoinAll)]

open Op in
/-- The program with given settings: it makes the shared runtime, runs the scripts on it, and discards
the runtime whatever came of them. There has to be memory for the list of workers. -/
def program (c : Config) (workers rounds : Nat) : Op Unit := do
  match ← perform (.initGlobal (some c)) with
  | .error e => throw (.invalidConfig e)
  | .ok _ => pure ()
  let home ← observe (·.globalRuntime)
  let outcome ← guard do
    let _ ← stepsToOp { home } (preparation rounds)
    if !Memory.hasRoom workers Memory.referenceSize then defect .tooManyPlaces
    let _ ← stepsToOp { home } (script workers)
  perform .closeGlobal
  match outcome with
  | .value _ => pure ()
  | .error e => throw e
  | .panic p => panic p

/-- Runs the program in a world. -/
def run (w : World) (o : Options) : Except Failure Unit × World :=
  if o.workers < 1 ∨ o.rounds < 0 then (.error .badCounts, w)
  else match config w.environment w.files o with
  | .error e => (.error (.manifest e), w)
  | .ok c =>
    match openLog c w.files with
    | .error e => (.error (.log e), w)
    | .ok files =>
      let task := (program c o.workers.toNat o.rounds.toNat).toProgUnit
      match Scheduler.runProg { w with files } task with
      | (w, some (.error e)) => (.error (.failed e), w)
      | (w, some (.panic p)) => (.error (.panicked p), w)
      | (w, _) => (.ok (), w)

end ObjectKernel.Demo
