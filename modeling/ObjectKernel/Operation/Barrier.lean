import ObjectKernel.Operation.Threads
import ObjectKernel.Report.File

/-!
# The shutdown barrier

The barrier waits for every started thread, including those that are started while it waits. It looks
at the live threads, waits for each of them, and looks again until there is none. Then it is counted,
whatever came of it, and the report is written if a place for it is configured.

## Contents

* `Op.joinPending`, `Op.joinAll`: waiting in passes.
* `Op.barrier`, `Op.globalBarrier`.
* `Op.writeReport`, `Op.readReport`.
-/

namespace ObjectKernel.Op

/-- Waits for threads in turn. -/
def joinPending (bound : Option Expiry) : List ObjId → Op Unit
  | [] => pure ()
  | o :: rest => do
    match ← result (joinBounded o bound) with
    | .ok _ => joinPending bound rest
    | .error e => throw (.barrierInterrupted (← threadOf o).name e)

/-- One pass of waiting, followed by another one unless there was nothing to wait for. -/
def joinAll (home : RuntimeId) (self : Option ObjId) (bound : Option Expiry) : Op Unit := do
  let pending ← observe fun w => w.pendingThreads home self
  if pending.isEmpty then pure ()
  else
    joinPending bound pending
    let _ ← call (.joinAll home self bound)

/-- Writes a report to a file. -/
def writeReport (path : Bytes) (r : Report) : Op Unit := do
  match ← perform (.writeFile path r.encode) with
  | .ok _ => pure ()
  | .error e => throw (.reportNotWritten path e)

/-- Reads a report from a file. -/
def readReport (path : Bytes) : Op Report := do
  ofExcept (← observe fun w => Report.load w.files path)

/-- The shutdown barrier of a runtime with a bound on its waiting. -/
def barrierBounded (home : RuntimeId) (bound : Option Expiry) : Op Unit := do
  let t ← task
  let self ← observe fun w => w.ownThread? home t
  let joined ← result (call (.joinAll home self bound))
  perform (.countBarrier home)
  let path ← observe fun w => (w.config home).reportPath
  let written ← result do
    if path ≠ [] then writeReport path (← perform (.takeReport home))
  match joined, written with
  | .ok _, .ok _ => pure ()
  | .error e, .ok _ => throw e
  | .ok _, .error e => throw e
  | .error e, .error f => throw (.followedBy e f.message)

/-- The shutdown barrier of a runtime, bounded as its settings say. -/
def barrier (home : Option RuntimeId) : Op Unit := do
  let r ← need home
  let timeout ← observe fun w => (w.config r).shutdownTimeout
  barrierBounded r (if 0 < timeout then some .deadline else none)

/-- The shutdown barrier of the runtime that the process shares, if there is one. -/
def globalBarrier : Op Unit := do
  match ← observe (·.globalRuntime) with
  | some r => barrier (some r)
  | none => pure ()

/-- The thread of the calling task in the runtime that the process shares, if there is one. -/
def globalThread : Op (Option ObjId) := do
  match ← observe (·.globalRuntime) with
  | some r => return some (← currentThread (some r))
  | none => pure none

end ObjectKernel.Op
