import ObjectKernel.Dictionary
import ObjectKernel.Duration.Printer
import ObjectKernel.Text.Number

/-!
# Configuration

The settings of a runtime, their defaults under an environment, and the values a runtime cannot
honour.

## Contents

* `Config`, `Config.default`: the settings; two environment variables change the defaults.
* `ConfigError`, `Config.validate`: the first setting, in a fixed order, that cannot be honoured.
-/

namespace ObjectKernel

/-- Environment variables and their values. -/
abbrev Environment := Dictionary Bytes Bytes

/-- Where uncaught failures and stack dumps go: to a writer of the embedding program or to the
error stream of the process. -/
inductive ErrorSink where
  | embedder
  | process
  deriving DecidableEq, Repr

/-- The settings of a runtime. -/
structure Config where
  /-- Characters per string; 0 means unbounded. -/
  maxStringLength : Int := 10000
  /-- Initial capacity of a buffer; 0 means `Config.defaultBufferCapacity`. -/
  bufferInitialCapacity : Int := 1024
  /-- Growth limit of a buffer; 0 means `Config.defaultMaxBufferCapacity`. -/
  maxBufferCapacity : Int := 2147483647
  /-- Bound of the shutdown barrier; 0 waits for ever. -/
  shutdownTimeout : Duration := 0
  /-- Where the shutdown report is written; empty means nowhere. -/
  reportPath : Bytes := []
  /-- Whether the process checks the order of locks. -/
  lockChecking : Bool := false
  /-- How much is logged. -/
  verbosity : Int := 0
  /-- Where the log is written; empty means the error stream. -/
  logFile : Bytes := []
  /-- Where uncaught failures are reported. -/
  errorSink : ErrorSink := .process
  deriving DecidableEq, Repr

namespace Config

/-- The initial capacity of a buffer when none is configured. -/
def defaultBufferCapacity : Nat := 1024

/-- The growth limit of a buffer when none is configured. -/
def defaultMaxBufferCapacity : Nat := 2147483647

/-- The value of a variable, empty when it is not set. -/
def setting (env : Environment) (name : Bytes) : Bytes := (env.get? name).getD []

/-- The greatest string length under an environment: a natural number in `RJAVA_MAX_STRING` replaces
the default, and anything else there is ignored. -/
def defaultMaxStringLength (env : Environment) : Int :=
  match Number.decimal? (setting env "RJAVA_MAX_STRING") with
  | some n => if 0 ≤ n then n else 10000
  | none => 10000

/-- The settings of a runtime that was given none. `RJAVA_DEBUG` turns on lock checking and verbose
logging. -/
def default (env : Environment) : Config :=
  let debug := setting env "RJAVA_DEBUG" ≠ []
  { maxStringLength := defaultMaxStringLength env
    lockChecking := debug
    verbosity := if debug then 2 else 0 }

end Config

/-- A setting that a runtime cannot honour. -/
inductive ConfigError where
  | negativeMaxString (n : Int)
  | negativeInitialCapacity (n : Int)
  | negativeMaxCapacity (n : Int)
  | initialExceedsMax (initial max : Int)
  | negativeTimeout (d : Duration)
  deriving DecidableEq, Repr

/-- The wording of a refused setting. -/
def ConfigError.message : ConfigError → Bytes
  | .negativeMaxString n => "max string length must not be negative, got " ++ Bytes.ofInt n
  | .negativeInitialCapacity n => "buffer initial capacity must not be negative, got " ++ Bytes.ofInt n
  | .negativeMaxCapacity n => "buffer max capacity must not be negative, got " ++ Bytes.ofInt n
  | .initialExceedsMax initial max =>
    "buffer initial capacity " ++ Bytes.ofInt initial ++ " exceeds max capacity " ++ Bytes.ofInt max
  | .negativeTimeout d => "shutdown timeout must not be negative, got " ++ Duration.text d

/-- The first setting, in a fixed order, that a runtime cannot honour. -/
def Config.validate (c : Config) : Except ConfigError Unit :=
  if c.maxStringLength < 0 then .error (.negativeMaxString c.maxStringLength)
  else if c.bufferInitialCapacity < 0 then
    .error (.negativeInitialCapacity c.bufferInitialCapacity)
  else if c.maxBufferCapacity < 0 then .error (.negativeMaxCapacity c.maxBufferCapacity)
  else if 0 < c.maxBufferCapacity ∧ c.maxBufferCapacity < c.bufferInitialCapacity then
    .error (.initialExceedsMax c.bufferInitialCapacity c.maxBufferCapacity)
  else if c.shutdownTimeout < 0 then .error (.negativeTimeout c.shutdownTimeout)
  else .ok ()

/-- The capacity that a new buffer has. -/
def Config.initialCapacity (c : Config) : Nat :=
  if 0 < c.bufferInitialCapacity then c.bufferInitialCapacity.toNat
  else Config.defaultBufferCapacity

/-- The capacity that no growth exceeds. -/
def Config.growthLimit (c : Config) : Nat :=
  if 0 < c.maxBufferCapacity then c.maxBufferCapacity.toNat else Config.defaultMaxBufferCapacity

/-- Whether a string of `n` characters is too long, and for which limit. -/
def Config.exceeded? (c : Config) (n : Nat) : Option Nat :=
  if 0 < c.maxStringLength ∧ c.maxStringLength < n then some c.maxStringLength.toNat else none

end ObjectKernel
