import ObjectKernel.Text.Bytes

/-!
# Paths

Paths are byte strings with `/` between their parts. Everything here is lexical: no file is looked
at.

## Contents

* `Path.clean`: the shortest path equal to a given one by its text alone.
* `Path.join`, `Path.absolute`: a path below another one, and below the working directory.
* `Path.ancestors`: an absolute path and the directories above it, nearest first.
-/

namespace ObjectKernel.Path

/-- The separator. -/
def slash : UInt8 := 0x2F

/-- The part that stands for its own directory. -/
def dot : Bytes := [0x2E]

/-- The part that stands for the directory above. -/
def dotDot : Bytes := [0x2E, 0x2E]

/-- Whether a path starts at the root. -/
def isAbsolute : Bytes → Bool
  | [] => false
  | b :: _ => b == slash

/-- The parts of a path between separators. -/
def parts (p : Bytes) : List Bytes := Bytes.splitOn slash p

/-- Adds one part to the parts kept so far, the last one first. A `..` takes back a part before it;
at the root it has no effect. -/
def push (rooted : Bool) (kept : List Bytes) (part : Bytes) : List Bytes :=
  if part = [] ∨ part = dot then kept
  else if part = dotDot then
    match kept with
    | [] => if rooted then [] else [dotDot]
    | last :: before => if last = dotDot then dotDot :: kept else before
  else part :: kept

/-- The parts of a cleaned path, the last one first. -/
def cleanParts (p : Bytes) : List Bytes := (parts p).foldl (push (isAbsolute p)) []

/-- The path with the given parts, the last one first. -/
def ofParts (rooted : Bool) (kept : List Bytes) : Bytes :=
  if rooted then slash :: Bytes.joinWith [slash] kept.reverse
  else if kept.isEmpty then dot
  else Bytes.joinWith [slash] kept.reverse

/-- The shortest path equal to a given one by its text alone; the empty path is `.`. -/
def clean (p : Bytes) : Bytes := ofParts (isAbsolute p) (cleanParts p)

/-- The cleaned path of `q` below `p`, where an empty path adds nothing. -/
def join (p q : Bytes) : Bytes :=
  if p = [] then (if q = [] then [] else clean q) else clean (p ++ [slash] ++ q)

/-- The cleaned absolute form of a path under a working directory. -/
def absolute (workingDir p : Bytes) : Bytes := if isAbsolute p then clean p else join workingDir p

/-- The absolute paths with the given parts and with fewer of them, the longest first. -/
def ancestorsOf : List Bytes → List Bytes
  | [] => [[slash]]
  | part :: before => ofParts true (part :: before) :: ancestorsOf before

/-- A cleaned absolute path and the directories above it, nearest first, ending in the root. -/
def ancestors (p : Bytes) : List Bytes := ancestorsOf (cleanParts p)

end ObjectKernel.Path
