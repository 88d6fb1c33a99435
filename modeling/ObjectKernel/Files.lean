import ObjectKernel.Dictionary
import ObjectKernel.Path

/-!
# Files

A tree of files and directories with a working directory, and the operations that the kernel performs
on it: asking whether a path names something, reading a whole file, writing one and opening one to add
to it. A path is followed part by part from the root or the working directory, so a missing or
non-directory part is met where it stands.

## Contents

* `Files`, `Files.Node`: the tree, as a dictionary from part lists.
* `FileError` and its message.
* `Files.walk`, `Files.locate`: following a path.
* `Files.exists?`, `Files.read`, `Files.write`, `Files.openToAppend`; `Files.install` sets up a tree.
-/

namespace ObjectKernel

/-- Why the operating system refuses a path. -/
inductive FileError.Cause where
  | missing
  | notDirectory
  | isDirectory
  | invalid
  | nameTooLong
  | denied
  deriving DecidableEq, Repr

/-- The operation that a refusal names. -/
inductive FileError.Operation where
  | opening
  | reading
  deriving DecidableEq, Repr

/-- A failed file operation. -/
structure FileError where
  operation : FileError.Operation
  path : Bytes
  cause : FileError.Cause
  deriving DecidableEq, Repr

/-- The wording of a failed file operation. -/
def FileError.message (e : FileError) : Bytes :=
  let verb : Bytes := match e.operation with
    | .opening => "open "
    | .reading => "read "
  let reason : Bytes := match e.cause with
    | .missing => "no such file or directory"
    | .notDirectory => "not a directory"
    | .isDirectory => "is a directory"
    | .invalid => "invalid argument"
    | .nameTooLong => "file name too long"
    | .denied => "permission denied"
  verb ++ e.path ++ ": " ++ reason

/-- A file with its content, a file that may be neither read nor written, or a directory. -/
inductive Files.Node where
  | file (content : Bytes)
  | sealed
  | directory
  deriving DecidableEq, Repr

/-- Files and directories by the parts of their absolute paths; the root is always there. -/
structure Files where
  nodes : Dictionary (List Bytes) Files.Node := []
  workingDir : List Bytes := []
  deriving DecidableEq, Repr

namespace Files

/-- What stands at an absolute place. -/
def node? (fs : Files) (place : List Bytes) : Option Node :=
  if place = [] then some .directory else fs.nodes.get? place

/-- The working directory as a path. -/
def workingPath (fs : Files) : Bytes := Path.ofParts true fs.workingDir.reverse

/-- Follows one part from a directory. -/
def enter (fs : Files) (place : List Bytes) (part : Bytes) :
    Except FileError.Cause (List Bytes) :=
  if part = [] ∨ part = Path.dot then .ok place
  else if part = Path.dotDot then .ok place.dropLast
  else if part.length > 255 then .error .nameTooLong
  else match fs.node? (place ++ [part]) with
  | none => .error .missing
  | some _ => .ok (place ++ [part])

/-- Follows parts from a place, each of which has to be entered from a directory. -/
def walk (fs : Files) : List Bytes → List Bytes → Except FileError.Cause (List Bytes)
  | place, [] => .ok place
  | place, part :: rest =>
    match fs.node? place with
    | some .directory => do walk fs (← fs.enter place part) rest
    | some (.file _) | some .sealed => .error .notDirectory
    | none => .error .missing

/-- Refuses the paths that name nothing on any system. -/
def admissible (p : Bytes) : Except FileError.Cause Unit :=
  if p.contains 0 then .error .invalid
  else if p = [] then .error .missing
  else if p.length ≥ 4096 then .error .nameTooLong
  else .ok ()

/-- Where following a path starts. -/
def start (fs : Files) (p : Bytes) : List Bytes := if Path.isAbsolute p then [] else fs.workingDir

/-- The place that a path names. -/
def locate (fs : Files) (p : Bytes) : Except FileError.Cause (List Bytes) := do
  admissible p
  fs.walk (fs.start p) (Path.parts p)

/-- Whether a path names a file or a directory. -/
def exists? (fs : Files) (p : Bytes) : Bool := (fs.locate p).isOk

/-- The content of a file. -/
def read (fs : Files) (p : Bytes) : Except FileError Bytes :=
  match fs.locate p with
  | .error c => .error ⟨.opening, p, c⟩
  | .ok place =>
    match fs.node? place with
    | some (.file content) => .ok content
    | some .sealed => .error ⟨.opening, p, .denied⟩
    | some .directory => .error ⟨.reading, p, .isDirectory⟩
    | none => .error ⟨.opening, p, .missing⟩

/-- The directory and the name under which a file would be created. A path that ends in a separator
or in a dot part can only name a directory. -/
def target (fs : Files) (p : Bytes) : Except FileError.Cause (List Bytes × Bytes) := do
  admissible p
  let named := (Path.parts p).reverse.dropWhile (· = [])
  match named with
  | [] => throw .isDirectory
  | name :: before =>
    let place ← fs.walk (fs.start p) before.reverse
    match fs.node? place with
    | some .directory => pure ()
    | _ => throw .notDirectory
    if name = Path.dot ∨ name = Path.dotDot then throw .isDirectory
    if p.getLast? = some Path.slash then throw .isDirectory
    if name.length > 255 then throw .nameTooLong
    return (place, name)

/-- Replaces or creates a file. The directory it lies in has to exist. -/
def write (fs : Files) (p content : Bytes) : Except FileError Files :=
  match fs.target p with
  | .error c => .error ⟨.opening, p, c⟩
  | .ok (place, name) =>
    match fs.node? (place ++ [name]) with
    | some .directory => .error ⟨.opening, p, .isDirectory⟩
    | some .sealed => .error ⟨.opening, p, .denied⟩
    | _ => .ok { fs with nodes := fs.nodes.insert (place ++ [name]) (.file content) }

/-- Opens a file to add to it: an existing file keeps its content, a missing one is created empty. -/
def openToAppend (fs : Files) (p : Bytes) : Except FileError Files :=
  fs.write p ((fs.read p).toOption.getD [])

/-- The contents of all files. -/
def contents (fs : Files) : List Bytes :=
  fs.nodes.filterMap fun
    | (_, .file content) => some content
    | (_, .sealed) | (_, .directory) => none

/-- Makes the directories with the given parts below a place. -/
def makeDirectories (fs : Files) (place : List Bytes) : List Bytes → Files
  | [] => fs
  | part :: rest =>
    let here := place ++ [part]
    let fs := if (fs.node? here).isSome then fs
      else { fs with nodes := fs.nodes.insert here .directory }
    makeDirectories fs here rest

/-- Puts a node at a path below the working directory, with the directories above it. -/
def install (fs : Files) (p : Bytes) (node : Node) : Files :=
  let place := (Path.cleanParts (Path.absolute fs.workingPath p)).reverse
  let fs := fs.makeDirectories [] place.dropLast
  match node with
  | .directory => fs.makeDirectories [] place
  | .file _ | .sealed => { fs with nodes := fs.nodes.insert place node }

end Files

end ObjectKernel
