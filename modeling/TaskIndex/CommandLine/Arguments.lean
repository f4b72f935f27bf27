import TaskIndex.CommandLine.Grammar
import TaskIndex.Query.Compact
import TaskIndex.Settings.Layer

/-!
What a command line asks for: a command, choices for the settings and a file of settings.

Options for the settings stand in front of the command and the command's own options behind it. The file
of settings can also be named by a variable of the environment.
-/

namespace TaskIndex

open CommandLine

structure QueryOptions where
  affiliations : List String := []
  predicates : List Predicate := []
  order : List SortKey := []
  offset : Option UInt64 := none
  length : Option UInt64 := none
deriving DecidableEq

/-- Every predicate that the options describe. Order, offset and length come last, so that they decide. -/
def QueryOptions.allPredicates (o : QueryOptions) : List Predicate :=
  o.predicates ++ (if o.order.isEmpty then [] else [.orderedBy o.order]) ++
    o.offset.toList.map .skipping ++ o.length.toList.map .atMost

/-- What is to be done. -/
inductive Command where
  /-- To answer one query of an actor. -/
  | query (actor : String) (options : QueryOptions)
  /-- To load a shard and tell how full it is. -/
  | stats (project : String)
  /-- To list the shards of the snapshot. -/
  | shards
deriving DecidableEq

structure Arguments where
  configFile : Option String
  choices : Choices
  command : Command
deriving DecidableEq

namespace CommandLine

/-! ### Values -/

/-- A path, which must not be empty. -/
def path (s : String) : Except Misuse String := if s = "" then .error .missingValue else .ok s

def anyText (s : String) : Except Misuse String := .ok s

/-- A count of 64 bits. -/
def count (s : String) : Except Misuse UInt64 :=
  (Text.uint64? s).elim (.error (.invalidValue none)) .ok

/-- A word for yes or no, in any case. -/
def yesNo (s : String) : Except Misuse Bool :=
  let word := String.ofList (Text.lowercase s)
  if word ∈ ["y", "yes", "t", "true", "on", "1"] then .ok true
  else if word ∈ ["n", "no", "f", "false", "off", "0"] then .ok false
  else .error (.invalidValue none)

/-- A value of the domain. -/
def inDomain {α : Type} (parse : String → Except Problem α) (s : String) : Except Misuse α :=
  (parse s).mapError fun p => .invalidValue (some p)

/-! ### In front of the command -/

/-- What the options in front of the command have said. -/
structure Outset where
  configFile : Option String := none
  choices : Choices := {}
deriving DecidableEq

/-- The words of a whole command line. -/
def program : Grammar Outset where
  topic := .program
  versioned := true
  commands := CommandName.all
  options := [
    .once "config-file" path (·.configFile) fun s o => { o with configFile := some s },
    .once "snapshot" path (·.choices.snapshotPath) fun s o =>
      { o with choices := { o.choices with snapshotPath := some s } },
    .once "log-level" anyText (·.choices.level) fun s o =>
      { o with choices := { o.choices with level := some s } },
    .once "log-json" yesNo (·.choices.json) fun b o =>
      { o with choices := { o.choices with json := some b } },
    .once "cache-default-page-length" count (·.choices.defaultLength) fun n o =>
      { o with choices := { o.choices with defaultLength := some n } },
    .once "cache-max-page-length" count (·.choices.maxLength) fun n o =>
      { o with choices := { o.choices with maxLength := some n } }]

/-- The variable that can name the file of settings. -/
def configFileVariable : String := "TRACKER_CACHE_CONFIG_FILE"

/-- Takes the file of settings from the environment when no option has named it. -/
def Outset.complete (o : Outset) (environment : Environment) : Except Stop Outset :=
  match o.configFile, environment.lookup configFileVariable with
  | none, some s =>
    match path s with
    | .ok s => .ok { o with configFile := some s }
    | .error m => .error (.misuse m)
  | _, _ => .ok o

/-! ### Behind the command -/

/-- What the options of a query have said so far. -/
structure QueryDraft where
  actor : Option String := none
  options : QueryOptions := {}

def query : Grammar QueryDraft where
  topic := .command .query
  options := [
    .once "actor" anyText (·.actor) fun s d => { d with actor := some s },
    .many "affiliation" anyText fun s d =>
      { d with options := { d.options with affiliations := d.options.affiliations ++ [s] } },
    .many "where" (inDomain Predicate.parse) fun p d =>
      { d with options := { d.options with predicates := d.options.predicates ++ [p] } },
    .many "order" (inDomain SortKey.parse) fun k d =>
      { d with options := { d.options with order := d.options.order ++ [k] } },
    .once "offset" count (·.options.offset) fun n d =>
      { d with options := { d.options with offset := some n } },
    .once "length" count (·.options.length) fun n d =>
      { d with options := { d.options with length := some n } }]

def stats : Grammar (Option String) where
  topic := .command .stats
  options := [.once "project" anyText id fun s _ => some s]

def shards : Grammar Unit where
  topic := .command .shards

/-- What the command `help` leads to, by the words behind it. -/
def helpFor : List String → Stop
  | [] => .help .program
  | [word] => (CommandName.ofName? word).elim (.misuse .unknownCommand) fun c => .help (.command c)
  | _ => .misuse .unknownCommand

/-- Reads the words behind the name of a command. -/
def readCommand (command : CommandName) (words : List String) : Except Stop Command :=
  match command with
  | .help => .error (helpFor words)
  | .query => do
    let draft ← query.readAll {} words
    match draft.actor with
    | some actor => return .query actor draft.options
    | none => .error (.misuse .missingOption)
  | .stats => do
    match ← stats.readAll none words with
    | some project => return .stats project
    | none => .error (.misuse .missingOption)
  | .shards => do
    shards.readAll () words
    return .shards

end CommandLine

/-- Reads a command line. What is wrong behind the command is told before what is wrong with the last
option in front of it. -/
def Arguments.parse (environment : Environment) (words : List String) : Except Stop Arguments := do
  let (p, next) ← program.read { state := {} } words
  match next with
  | some (name, rest) =>
    let command ← readCommand name rest
    let o ← (← p.settle).state.complete environment
    return ⟨o.configFile, o.choices, command⟩
  | none =>
    let o ← (← p.settle).state.complete environment
    if o = {} then .error .nothingGiven else .error (.misuse .missingCommand)

end TaskIndex
