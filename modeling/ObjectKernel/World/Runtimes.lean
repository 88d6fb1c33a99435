import ObjectKernel.World.Classes
import ObjectKernel.World.Threads

/-!
# Runtimes

Making runtimes, the one that the process shares, and the shutdown report. A failed attempt to make
the shared runtime has applied its lock checking all the same, while a failed attempt to make another
one has not.

## Contents

* `World.newRuntime`, `World.initGlobal`, `World.closeGlobal`.
* `World.countBarrier`, `World.takeReport`, `World.writeFile`.
-/

namespace ObjectKernel.World

/-- Reads the clock. -/
def now (w : World) : Int64 × World := (Int64.ofNat w.clock, { w with clock := w.clock + 1 })

/-- The session with a number. -/
def sessionName (n : Nat) : Bytes := "00000000-0000-4000-8000-" ++ Bytes.hexPadded 12 n

/-- The sessions that are in use: those of runtimes, and those of reports on file. -/
def sessions (w : World) : List Bytes :=
  w.runtimes.toList.map (·.session) ++
    w.files.contents.filterMap fun content => (Report.decode? content).map (·.session)

/-- The first session from a number on that is not among given ones, if it is one of as many as the
fuel says. -/
def seekSession (used : List Bytes) : Nat → Nat → Bytes
  | 0, n => sessionName n
  | fuel + 1, n =>
    if used.contains (sessionName n) then seekSession used fuel (n + 1) else sessionName n

/-- A session that is not in use. Each one in use rules out one number, so that there are enough
numbers to look at. -/
def freshSession (w : World) : Bytes := seekSession w.sessions w.sessions.length w.runtimes.size

/-- The table with the built-in classes. -/
def builtinClasses (home : RuntimeId) : ClassTable :=
  { entries := (Builtin.classes home).map fun c => (c.name, .defined c)
    root := some (Builtin.rootClass home) }

/-- A new runtime; absent settings are the default ones. Settings that it cannot honour are refused,
and lock checking is applied only after that. -/
def newRuntime (w : World) (config : Option Config) : Except ConfigError (RuntimeId × World) := do
  let config := config.getD (.default w.environment)
  config.validate
  let home := w.runtimes.size
  let (startedAt, w) := w.now
  let r : Runtime :=
    { config, session := w.freshSession, startedAt, classes := builtinClasses home }
  return (home, { w with runtimes := w.runtimes.push r, lockChecking := config.lockChecking })

/-- Makes the runtime that the process shares, unless there is one. -/
def initGlobal (w : World) (config : Option Config) : Except ConfigError Unit × World :=
  match w.globalRuntime with
  | some _ => (.ok (), w)
  | none =>
    let config := config.getD (.default w.environment)
    let w := { w with lockChecking := config.lockChecking }
    match w.newRuntime (some config) with
    | .error e => (.error e, w)
    | .ok (home, w) => (.ok (), { w with globalRuntime := some home })

/-- Discards the runtime that the process shares. -/
def closeGlobal (w : World) : World := { w with globalRuntime := none }

/-! ## Reports -/

/-- Counts a run of the shutdown barrier. -/
def countBarrier (w : World) (home : RuntimeId) : World :=
  w.modifyRuntime home fun r => { r with barriers := r.barriers + 1 }

/-- The entries of the started threads of a runtime. -/
def threadRecords (w : World) (home : RuntimeId) : List ThreadRecord :=
  (w.startedThreads home).filterMap fun o => (w.thread? o).map Thread.record

/-- The report on a runtime as it is. -/
def takeReport (w : World) (home : RuntimeId) : Report × World :=
  let (finishedAt, w) := w.now
  match w.runtime? home with
  | none => ({}, w)
  | some r =>
    ({ session := r.session
       startedAt := r.startedAt
       finishedAt
       threads := some (w.threadRecords home)
       barriers := r.barriers.toInt64 }, w)

/-- Writes a file. -/
def writeFile (w : World) (path content : Bytes) : Except FileError World := do
  return { w with files := ← w.files.write path content }

end ObjectKernel.World
