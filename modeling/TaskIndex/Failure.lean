import TaskIndex.CacheError
import TaskIndex.Source
import TaskIndex.Task.Problem

/-!
Why a whole run fails, how that is reported, and the exit code that tells it apart.
-/

namespace TaskIndex

inductive Failure where
  | problem (p : Problem)
  | source (e : SourceError)
  | cache (e : CacheError)
  /-- A file cannot be read. -/
  | io (detail : String)
  /-- A file is no snapshot. -/
  | snapshot (path detail : String)
  | telemetry (detail : String)
  | configuration (detail : String)
  | validation (detail : String)
  | unexpected (detail : String)
deriving DecidableEq

namespace Failure

def message : Failure → String
  | problem p => p.message
  | source e => e.message
  | cache e => e.message
  | io detail => "io error: " ++ detail
  | snapshot path detail => s!"snapshot `{path}` is invalid: {detail}"
  | telemetry detail => "telemetry initialization failed: " ++ detail
  | configuration detail => "configuration error: " ++ detail
  | validation detail => "validation failed: " ++ detail
  | unexpected detail => "unexpected error: " ++ detail

/-- The failure and what is behind it, in words; only an unreadable file has something behind it. -/
def messages : Failure → List String
  | io detail => [(io detail).message, detail]
  | failure => [failure.message]

def chain (f : Failure) : String := ": ".intercalate f.messages

/-- The name under which failures are reported. -/
def reporter : String := "application::error::AppError"

/-- Two for what the caller got wrong, and above it the codes of `sysexits` for input and output and
for the configuration. -/
def exitCode : Failure → Nat
  | problem _ | validation _ => 2
  | configuration _ => 78
  | io _ | snapshot .. | telemetry _ | source _ => 74
  | cache _ | unexpected _ => 1

end Failure

end TaskIndex
