import ObjectKernel.Config
import ObjectKernel.Duration.Parser
import ObjectKernel.Files
import ObjectKernel.Toml.Document

/-!
# Manifests

A manifest is a TOML file `rjava.toml` with the settings of a runtime in the sections `runtime`,
`text` and `log`. Sections and keys match their names exactly or, failing that, without regard to
case; whatever matches nothing is refused.

## Contents

* `Manifest`, `Manifest.decode?`: the settings of a document, with what it leaves over.
* `Manifest.load`, `Manifest.find`: the manifest of a directory, and of the nearest directory above.
* `Manifest.isSet`: whether a key stands in the file as it is spelled.
* `Manifest.config`: the configuration with the keys of the file laid over the defaults.
-/

namespace ObjectKernel

/-- The name of the file. -/
def Manifest.fileName : Bytes := "rjava.toml"

/-- The settings in a manifest, zero or empty where it has none. -/
structure Manifest where
  shutdownTimeout : Bytes := []
  report : Bytes := []
  lockChecking : Bool := false
  maxLength : Int := 0
  bufferInitialCapacity : Int := 0
  bufferMaxCapacity : Int := 0
  verbosity : Int := 0
  file : Bytes := []
  /-- The tables of the file, as spelled there. -/
  root : Toml.Table := []
  /-- The absolute directory of the file. -/
  dir : Bytes := []

/-- Why a manifest is refused. -/
inductive ManifestError where
  | unreadable (path : Bytes) (e : FileError)
  | malformed (path : Bytes)
  | unknownKeys (path : Bytes) (keys : List Toml.Key)
  | badTimeout (e : Duration.ParseError)
  | badConfig (path : Bytes) (e : ConfigError)
  deriving DecidableEq, Repr

/-- The wording of a refused manifest. -/
def ManifestError.message : ManifestError → Bytes
  | .unreadable path e => "cannot read " ++ path ++ ": " ++ e.message
  | .malformed path => "parse error in " ++ path
  | .unknownKeys path keys =>
    "unknown keys in " ++ path ++ ": " ++ Bytes.joinWith ", " (keys.map Toml.shown)
  | .badTimeout e => "runtime.shutdown-timeout: " ++ e.message
  | .badConfig path e => path ++ ": " ++ e.message

namespace Manifest

/-! ## Names -/

/-- A character without its case. Besides the ASCII letters, the long s and the Kelvin sign have a
partner among the letters of setting names. -/
def foldRune (r : Rune) : Rune :=
  if 0x41 ≤ r ∧ r ≤ 0x5A then r + 32
  else if r = 0x17F then 0x73
  else if r = 0x212A then 0x6B
  else r

/-- Whether two names are equal but for case. -/
def sameButCase (a b : Bytes) : Bool :=
  (Utf8.decode a).map foldRune == (Utf8.decode b).map foldRune

/-- The setting that a key names: the one with that very name, else the first one equal but for
case. -/
def matching? {α : Type} (settings : List (Bytes × α)) (key : Bytes) : Option α :=
  match settings.find? fun s => s.1 = key with
  | some s => some s.2
  | none => (settings.find? fun s => sameButCase s.1 key).map Prod.snd

/-! ## Decoding -/

/-- A setting: how a value is put into a manifest, none for a value of another type. -/
abbrev Setting := Toml.Value → Manifest → Option Manifest

/-- A setting that holds text. -/
def textSetting (put : Bytes → Manifest → Manifest) : Setting
  | .text b, m => some (put b m)
  | _, _ => none

/-- A setting that holds an integer. -/
def integerSetting (put : Int → Manifest → Manifest) : Setting
  | .integer n, m => some (put n m)
  | _, _ => none

/-- A setting that holds a truth value. -/
def flagSetting (put : Bool → Manifest → Manifest) : Setting
  | .boolean b, m => some (put b m)
  | _, _ => none

/-- The sections and their settings. -/
def sections : List (Bytes × List (Bytes × Setting)) :=
  [("runtime",
     [("shutdown-timeout", textSetting fun b m => { m with shutdownTimeout := b }),
      ("report", textSetting fun b m => { m with report := b }),
      ("lock-checking", flagSetting fun b m => { m with lockChecking := b })]),
   ("text",
     [("max-length", integerSetting fun n m => { m with maxLength := n }),
      ("buffer-initial-capacity", integerSetting fun n m => { m with bufferInitialCapacity := n }),
      ("buffer-max-capacity", integerSetting fun n m => { m with bufferMaxCapacity := n })]),
   ("log",
     [("verbosity", integerSetting fun n m => { m with verbosity := n }),
      ("file", textSetting fun b m => { m with file := b })])]

/-- Takes the entries of a section; the result lists the keys that named a setting. -/
def decodeSection? (settings : List (Bytes × Setting)) (name : Bytes) :
    Toml.Table → Manifest → Option (Manifest × List Toml.Key)
  | [], m => some (m, [])
  | (key, value) :: rest, m =>
    match matching? settings key with
    | none => decodeSection? settings name rest m
    | some setting => do
      let m ← setting value m
      let (m, known) ← decodeSection? settings name rest m
      some (m, [name, key] :: known)

/-- Takes the sections of a file; the result lists the keys that named a section or a setting. -/
def decodeTables? : Toml.Table → Manifest → Option (Manifest × List Toml.Key)
  | [], m => some (m, [])
  | (name, value) :: rest, m =>
    match matching? sections name with
    | none => decodeTables? rest m
    | some settings =>
      match value with
      | .table entries => do
        let (m, inner) ← decodeSection? settings name entries m
        let (m, outer) ← decodeTables? rest m
        some (m, [name] :: inner ++ outer)
      | _ => none

/-- The manifest of a document and the keys that it does not know, in the order of the file. -/
def decode? (doc : Toml.Document) : Option (Manifest × List Toml.Key) := do
  let (m, known) ← decodeTables? doc.root {}
  some ({ m with root := doc.root }, doc.keys.filter fun k => !known.contains k)

/-! ## Loading -/

/-- The path of the manifest of a directory. -/
def pathIn (dir : Bytes) : Bytes := Path.join dir fileName

/-- The manifest of a directory. -/
def load (fs : Files) (dir : Bytes) : Except ManifestError Manifest := do
  let path := pathIn dir
  let content ← (fs.read path).mapError (.unreadable path)
  let some doc := Toml.parse? content | throw (.malformed path)
  let some (m, unknown) := decode? doc | throw (.malformed path)
  if unknown ≠ [] then throw (.unknownKeys path unknown)
  return { m with dir := Path.absolute fs.workingPath dir }

/-- The manifest of the nearest of the given directories that has one. -/
def findIn (fs : Files) : List Bytes → Except ManifestError (Option Manifest)
  | [] => .ok none
  | dir :: above => if fs.exists? (pathIn dir) then (load fs dir).map some else findIn fs above

/-- The manifest of a directory or of the nearest directory above it, none when there is none. -/
def find (fs : Files) (dir : Bytes) : Except ManifestError (Option Manifest) :=
  findIn fs (Path.ancestors (Path.absolute fs.workingPath dir))

/-! ## Use -/

/-- Whether the file has a value under a dotted key, spelled as in the file. -/
def isSet (m : Manifest) (key : Bytes) : Bool := m.root.defines (Bytes.splitOn 0x2E key)

/-- A path of the manifest: a relative one is meant from the manifest's directory. -/
def resolve (m : Manifest) (path : Bytes) : Bytes :=
  if Path.isAbsolute path then path else Path.join m.dir path

/-- The configuration before validation: every key that is set replaces its default. -/
def overlay (m : Manifest) (env : Environment) : Except ManifestError Config := do
  let base := Config.default env
  let timeout ← if m.isSet "runtime.shutdown-timeout" then
      (Duration.parse m.shutdownTimeout).mapError .badTimeout
    else pure base.shutdownTimeout
  return { base with
    shutdownTimeout := timeout
    reportPath :=
      if m.isSet "runtime.report" ∧ m.report ≠ [] then m.resolve m.report else base.reportPath
    lockChecking := if m.isSet "runtime.lock-checking" then m.lockChecking else base.lockChecking
    maxStringLength := if m.isSet "text.max-length" then m.maxLength else base.maxStringLength
    bufferInitialCapacity := if m.isSet "text.buffer-initial-capacity" then m.bufferInitialCapacity
      else base.bufferInitialCapacity
    maxBufferCapacity := if m.isSet "text.buffer-max-capacity" then m.bufferMaxCapacity
      else base.maxBufferCapacity
    verbosity := if m.isSet "log.verbosity" then m.verbosity else base.verbosity
    logFile := if m.isSet "log.file" ∧ m.file ≠ [] then m.resolve m.file else base.logFile }

/-- The configuration of a manifest. -/
def config (m : Manifest) (env : Environment) : Except ManifestError Config := do
  let c ← m.overlay env
  (c.validate).mapError (.badConfig (pathIn m.dir))
  return c

end Manifest

end ObjectKernel
