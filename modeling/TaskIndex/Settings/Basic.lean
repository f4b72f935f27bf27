import TaskIndex.Query.Page
import TaskIndex.Text.Lowercase
import TaskIndex.Text.Numeral

/-!
Settings, the choices they are made from, and what is wrong with choices that make none.

A choice may be left open, and then a default decides. The page lengths must not be zero, and the default
length must not exceed the largest one.
-/

namespace TaskIndex

/-- How much is logged. -/
inductive LogLevel where
  | off
  | error
  | warn
  | info
  | debug
  | trace
deriving DecidableEq

namespace LogLevel

def all : List LogLevel := [off, error, warn, info, debug, trace]

def name : LogLevel → String
  | off => "off"
  | error => "error"
  | warn => "warn"
  | info => "info"
  | debug => "debug"
  | trace => "trace"

/-- A level is written by its number from 0 to 5 or by its name in any case; an empty text means errors
only. -/
def ofText? (s : String) : Option LogLevel :=
  match (Text.uint64? s).bind fun n => all[n.toNat]? with
  | some level => some level
  | none => if s = "" then some error else all.find? (·.name = s.toLower)

theorem ofText?_name (l : LogLevel) : ofText? l.name = some l := by cases l <;> decide +kernel

end LogLevel

/-- How a line of the log is written. -/
inductive LogFormat where
  | json
  | compact
deriving DecidableEq

namespace LogFormat

def name : LogFormat → String
  | json => "json"
  | compact => "compact"

end LogFormat

/-- Settings that fit together. -/
structure Settings where
  level : LogLevel
  format : LogFormat
  limits : PageLimits
  snapshotPath : String
deriving DecidableEq

/-- What somebody has chosen. -/
structure Choices where
  level : Option String := none
  json : Option Bool := none
  snapshotPath : Option String := none
  defaultLength : Option UInt64 := none
  maxLength : Option UInt64 := none
deriving DecidableEq

/-- The choices of `c`, and where `c` leaves one open that of `other`. -/
def Choices.orElse (c other : Choices) : Choices where
  level := c.level <|> other.level
  json := c.json <|> other.json
  snapshotPath := c.snapshotPath <|> other.snapshotPath
  defaultLength := c.defaultLength <|> other.defaultLength
  maxLength := c.maxLength <|> other.maxLength

/-- Why there are no settings. -/
inductive SettingsError where
  /-- A file or a variable cannot be read as a layer of settings. -/
  | unreadable
  | unknownLevel
  | zeroDefaultLength
  | zeroMaxLength
  | defaultAboveMax (maxLength : UInt64)
  | emptySnapshotPath
deriving DecidableEq

namespace SettingsError

/-- The setting that does not hold, and why. -/
def fault? : SettingsError → Option (String × String)
  | unreadable => none
  | unknownLevel =>
    let names := ", ".intercalate (LogLevel.all.map fun level => s!"\"{level.name}\"")
    some ("logging.level",
      s!"failed to parse: error parsing level filter: expected one of {names}, or a number 0-5")
  | zeroDefaultLength => some ("cache.default_page_length", "must be greater than zero")
  | zeroMaxLength => some ("cache.max_page_length", "must be greater than zero")
  | defaultAboveMax maxLength =>
    some ("cache.default_page_length", s!"must not exceed cache.max_page_length ({maxLength.toNat})")
  | emptySnapshotPath => some ("snapshot.path", "must not be empty")

def message (e : SettingsError) : String :=
  match e.fault? with
  | some (key, reason) => s!"invalid configuration for `{key}`: {reason}"
  | none => "failed to build configuration"

end SettingsError

namespace Settings

/-- The level, if it is one. -/
def chosenLevel (c : Choices) : Except SettingsError LogLevel :=
  match c.level with
  | none => .ok .info
  | some s => (LogLevel.ofText? s).elim (.error .unknownLevel) .ok

/-- The page limits, if the lengths fit together. -/
def chosenLimits (c : Choices) : Except SettingsError PageLimits :=
  let defaultLength := c.defaultLength.getD 50
  if defaultLength = 0 then .error .zeroDefaultLength
  else
    match c.maxLength with
    | none => .ok ⟨defaultLength.toNat, none, PageLimits.pos_of_none⟩
    | some maxLength =>
      if h : maxLength = 0 then .error .zeroMaxLength
      else if maxLength < defaultLength then .error (.defaultAboveMax maxLength)
      else
        .ok ⟨defaultLength.toNat, some maxLength.toNat, fun m hm => by
          obtain rfl : maxLength.toNat = m := by simpa using hm
          exact Nat.pos_of_ne_zero fun h' => h (UInt64.toNat_inj.1 (by simpa using h'))⟩

/-- The path of the snapshot, if it is not empty. -/
def chosenSnapshotPath (c : Choices) : Except SettingsError String :=
  let path := c.snapshotPath.getD "tasks.toml"
  if path = "" then .error .emptySnapshotPath else .ok path

/-- The settings that choices make. -/
def ofChoices (c : Choices) : Except SettingsError Settings := do
  return {
    level := ← chosenLevel c
    format := if c.json.getD false then .json else .compact
    limits := ← chosenLimits c
    snapshotPath := ← chosenSnapshotPath c }

end Settings

end TaskIndex
