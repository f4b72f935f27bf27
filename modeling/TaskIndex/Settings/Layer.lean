import TaskIndex.Document.Json
import TaskIndex.Document.Toml
import TaskIndex.Settings.Overlay
import TaskIndex.Settings.Reading

/-!
The layers that settings come from: two files with fixed names, a file that is named by the caller, the
environment, and on top the choices of the command line.

How a file is found under a name and what its text says is left to a reader: how settings resolve does not
depend on the formats that the reader knows. Only the file that the caller names has to exist.

The reader at hand knows TOML and JSON, as the end of a name says. A name that is not the name of a file
stands for that name with one of the two endings; a name that is, but has neither ending, cannot be used.
-/

namespace TaskIndex

/-- The files that there are: the contents of each name that is one. -/
abbrev Files := String → Option String

/-- The variables of the environment, with their values. -/
abbrev Environment := List (String × String)

/-- What a name of a file of settings leads to. -/
inductive Reading where
  /-- There is no file that can be used under the name. -/
  | missing
  /-- There is one, and it is not a table. -/
  | unreadable
  | table (entries : List (String × Document))

/-- Finds the file that a name stands for and reads it. -/
abbrev Reader := String → Reading

namespace Layer

/-! ### The layer of a file -/

/-- The layer of a file that may be missing. -/
def ofFile? (read : Reader) (path : String) : Option (List (String × Document)) :=
  match read path with
  | .missing => some []
  | .unreadable => none
  | .table entries => some entries

/-- The layer of a file that has to exist. -/
def ofNamedFile? (read : Reader) (path : String) : Option (List (String × Document)) :=
  match read path with
  | .table entries => some entries
  | .missing | .unreadable => none

/-! ### TOML and JSON -/

/-- The formats of a file, by the end of its name. -/
def formats : List (String × (String → Option Document)) :=
  [("toml", Toml.read?), ("json", Json.read?)]

/-- The name at the end of a path. Slashes and parts of a single dot behind it do not count; a path that
goes up at its end has none. -/
def name? (path : String) : Option (List Char) :=
  let parts := (Text.pieces '/' path.toList).filter fun part => part != [] && part != ['.']
  parts.getLast?.filter (· != ['.', '.'])

/-- What follows the last dot of a name, if something precedes it. -/
def endingOf? (name : List Char) : Option String :=
  let ending := (name.reverse.takeWhile (· != '.')).reverse
  if ending.length + 1 < name.length then some (.ofList ending) else none

def ending? (path : String) : Option String := (name? path).bind endingOf?

/-- A path, last character first, from the end of its name on. -/
def dropTail : List Char → List Char
  | '/' :: cs => dropTail cs
  | '.' :: '/' :: cs => dropTail cs
  | cs => cs

/-- A path with an ending more. Right after a name that has none yet, and after the path as it stands if
the name has one; but a slash at the end of such a path leads to a file `.placeholder` behind it, which
gets the ending. -/
def withEnding? (path ending : String) : Option String :=
  (name? path).map fun name =>
    let cs := path.toList
    let front :=
      if (endingOf? name).isNone then (dropTail cs.reverse).reverse
      else if cs.getLast? = some '/' then cs ++ ".placeholder".toList
      else cs
    .ofList (front ++ '.' :: ending.toList)

/-- The text without a byte order mark in front. -/
def dropMark (s : String) : String :=
  match s.toList with
  | '\ufeff' :: rest => .ofList rest
  | _ => s

/-- The table that a text in some format is. -/
def table? (read? : String → Option Document) (text : String) : Option (List (String × Document)) :=
  match read? (dropMark text) with
  | some (.table entries) => some entries
  | _ => none

/-- A file that was found: its format and its text. -/
structure Found where
  read? : String → Option Document
  text : String

/-- The file that a name stands for. -/
def find? (files : Files) (path : String) : Option Found :=
  match files path with
  | some text => ((ending? path).bind fun ending => formats.lookup ending).map fun read? => ⟨read?, text⟩
  | none =>
    formats.findSome? fun (ending, read?) =>
      ((withEnding? path ending).bind files).map fun text => ⟨read?, text⟩

/-- Every name under which the file that a name stands for is looked for. -/
def namesOf (path : String) : List String :=
  path :: formats.filterMap fun (ending, _) => withEnding? path ending

def reader (files : Files) : Reader := fun path =>
  match find? files path with
  | none => .missing
  | some found => (table? found.read? found.text).elim .unreadable .table

/-! ### The environment -/

/-- How the variables of the environment begin, in lower case. -/
def variableStart : List Char := "tracker_cache__".toList

/-- Two underscores become a dot. -/
def dotted : List Char → List Char
  | '_' :: '_' :: cs => '.' :: dotted cs
  | c :: cs => c :: dotted cs
  | [] => []

/-- The entry that a variable makes, if it is one of settings. -/
def ofVariable? (name value : String) : Option (String × Document) :=
  (Text.after? variableStart (Text.lowercase name)).map fun rest =>
    (.ofList (dotted rest), .text value)

def ofEnvironment (environment : Environment) : List (String × Document) :=
  environment.filterMap fun (name, value) => ofVariable? name value

end Layer

namespace Settings

/-- The names of the files that need not be named, the lower one first. -/
def usualFiles : List String := ["config/default", "tracker-cache"]

def fileNames (named : Option String) : List String :=
  (usualFiles ++ named.toList).flatMap Layer.namesOf

/-- The layers of files and environment, the lowest first. -/
def layers? (read : Reader) (environment : Environment) (named : Option String) :
    Option (List (List (String × Document))) := do
  let usual ← usualFiles.mapM (Layer.ofFile? read)
  let named ← named.toList.mapM (Layer.ofNamedFile? read)
  return usual ++ named ++ [Layer.ofEnvironment environment]

def choices? (read : Reader) (environment : Environment) (named : Option String) : Option Choices :=
  (layers? read environment named).bind fun layers => Choices.ofDocument? (Overlay.merge layers)

/-- The settings that the layers make, with the choices of the command line on top. -/
def resolve (read : Reader) (environment : Environment) (named : Option String) (top : Choices) :
    Except SettingsError Settings :=
  match choices? read environment named with
  | none => .error .unreadable
  | some choices => ofChoices (top.orElse choices)

def load (files : Files) : Environment → Option String → Choices → Except SettingsError Settings :=
  resolve (Layer.reader files)

end Settings

end TaskIndex
