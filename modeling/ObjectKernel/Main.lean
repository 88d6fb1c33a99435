import ObjectKernel.CommandLine

/-!
# The executable

Brings the program to the operating system: the files it may look at are read beforehand, and the
files it has written are stored afterwards.

## Contents

* `Executable.environment`, `Executable.files`: the surroundings of a run.
* `Executable.store`: the files that a run has written.
* `main`.
-/

namespace ObjectKernel.Executable

/-- The text of a path. -/
def pathText (b : Bytes) : String := (String.fromUTF8? (ByteArray.mk b.toArray)).getD ""

/-- The environment variables that the program looks at. -/
def environment : IO Environment := do
  let mut env : Environment := []
  for name in ["RJAVA_MAX_STRING", "RJAVA_DEBUG"] do
    if let some value ← IO.getEnv name then
      env := env ++ [(Bytes.ofString name, Bytes.ofString value)]
  return env

/-- Adds what the operating system has at an absolute path. -/
def copy (fs : Files) (path : Bytes) : IO Files := do
  let p := (← IO.currentDir) / pathText path
  if ← p.isDir then return fs.install path .directory
  else if ← p.pathExists then
    try return fs.install path (.file (← IO.FS.readBinFile p).data.toList)
    catch _ => return fs.install path .sealed
  else return fs

/-- The files that the program may look at. -/
def files (env : Environment) (o : Demo.Options) : IO Files := do
  let workingDir := Bytes.ofString (← IO.currentDir).toString
  let mut fs : Files := { workingDir := (Path.cleanParts workingDir).reverse }
  for dir in Path.ancestors workingDir do
    fs := fs.install dir .directory
  for dir in Path.ancestors (Path.absolute workingDir o.configDir) do
    fs ← copy fs dir
    fs ← copy fs (Manifest.pathIn dir)
  if let .ok c := Demo.config env fs o then
    for path in [c.reportPath, c.logFile] do
      for above in Path.ancestors (Path.absolute workingDir path) do
        fs ← copy fs above
  return fs

/-- Stores the files that differ from what was there before. -/
def store (before after : Files) : IO Unit := do
  for (place, node) in after.nodes do
    if let .file content := node then
      if before.node? place ≠ some node then
        let path := pathText (Path.ofParts true place.reverse)
        IO.FS.writeBinFile path (ByteArray.mk content.toArray)

end ObjectKernel.Executable

open ObjectKernel in
/-- Runs the demonstration program. -/
def main (args : List String) : IO UInt32 := do
  let args := args.map Bytes.ofString
  let env ← Executable.environment
  let o := (CommandLine.parse {} args).toOption.getD {}
  let fs ← Executable.files env o
  let r := CommandLine.run env fs args
  (← IO.getStdout).write (ByteArray.mk r.output.toArray)
  (← IO.getStderr).write (ByteArray.mk r.errors.toArray)
  Executable.store fs r.files
  return r.exitCode.toUInt32
