import TaskIndex.Task.Problem

/-!
Reading the words of a command line.

A word with two dashes in front is an option, whose value follows an equals sign or is the next word. A word
with one dash is a letter, and the only letters ask for help or the version. Any other word has to name a
command, and two dashes alone mean that all words after them are plain.

An option is taken in late: the value that stands in a word of its own is looked at when the next option
begins or when the words of the command are at their end. So of two mistakes the later word can be the one
that is told.
-/

namespace TaskIndex.CommandLine

inductive CommandName where
  | query
  | stats
  | shards
  | help
deriving DecidableEq

namespace CommandName

def all : List CommandName := [query, stats, shards, help]

def name : CommandName → String
  | query => "query"
  | stats => "stats"
  | shards => "shards"
  | help => "help"

def ofName? (s : String) : Option CommandName := all.find? (·.name = s)

end CommandName

/-- What help can be about. -/
inductive Topic where
  | program
  | command (name : CommandName)
deriving DecidableEq

/-- What is wrong with the words. -/
inductive Misuse where
  /-- There is no such option, or a word stands where none can. -/
  | unknownArgument
  | unknownCommand
  | missingCommand
  | missingOption
  /-- An option that can be there once is there again. -/
  | repeatedOption
  /-- A value is given to an option that takes none. -/
  | needlessValue
  /-- An option goes without its value, or a path is empty. -/
  | missingValue
  /-- A value is none of the option's; when it is one of the domain, with what is wrong. -/
  | invalidValue (problem : Option Problem)
deriving DecidableEq

/-- Why reading the words ends early. -/
inductive Stop where
  | help (topic : Topic)
  | version
  /-- There are no words to go by. -/
  | nothingGiven
  | misuse (m : Misuse)
deriving DecidableEq

/-- An option with a value, for words that are read into a `σ`. -/
structure Opt (σ : Type) where
  name : String
  take : String → σ → Except Misuse σ

namespace Opt

/-- An option that can be there once. -/
def once {σ α : Type} (name : String) (read : String → Except Misuse α) (get : σ → Option α)
    (put : α → σ → σ) : Opt σ where
  name := name
  take s state :=
    if (get state).isSome then .error .repeatedOption else (read s).map fun a => put a state

/-- An option that can be there any number of times. -/
def many {σ α : Type} (name : String) (read : String → Except Misuse α) (put : α → σ → σ) : Opt σ where
  name := name
  take s state := (read s).map fun a => put a state

end Opt

/-- What the words of one command can be. -/
structure Grammar (σ : Type) where
  topic : Topic
  options : List (Opt σ) := []
  versioned : Bool := false
  commands : List CommandName := []

/-- An option that has begun, and its value when that has come. -/
structure Pending (σ : Type) where
  option : Opt σ
  value : Option String

/-- How far the words are read. -/
structure Progress (σ : Type) where
  state : σ
  pending : Option (Pending σ) := none
  /-- Two dashes have stood alone. -/
  verbatim : Bool := false

namespace Progress

variable {σ : Type}

/-- The next plain word is the value of an option. -/
def isWaiting (p : Progress σ) : Bool := p.pending.any (·.value.isNone)

/-- Takes in the option that has begun. -/
def settle (p : Progress σ) : Except Stop (Progress σ) :=
  match p.pending with
  | none => .ok p
  | some ⟨_, none⟩ => .error (.misuse .missingValue)
  | some ⟨option, some value⟩ =>
    match option.take value p.state with
    | .ok state => .ok { p with state, pending := none }
    | .error m => .error (.misuse m)

/-- Takes in the option that has begun, and ends. -/
def settleThen {α : Type} (p : Progress σ) (stop : Stop) : Except Stop α :=
  match p.settle with
  | .ok _ => .error stop
  | .error other => .error other

def begin (p : Progress σ) (option : Opt σ) (value : Option String) : Except Stop (Progress σ) := do
  let p ← p.settle
  match value with
  | none => return { p with pending := some ⟨option, none⟩ }
  | some value => Progress.settle { p with pending := some ⟨option, some value⟩ }

/-- The value of the option that waits for one. -/
def supply (p : Progress σ) (value : String) : Progress σ :=
  { p with pending := p.pending.map fun pending => { pending with value := some value } }

end Progress

inductive Word where
  | dashes
  | long (name : String) (value : Option String)
  | short (letter : Char)
  | plain

namespace Word

def of (s : String) : Word :=
  match s.toList with
  | ['-', '-'] => dashes
  | '-' :: '-' :: cs =>
    let name := cs.takeWhile (· != '=')
    match cs.drop name.length with
    | [] => long (.ofList name) none
    | _ :: value => long (.ofList name) (some (.ofList value))
  | '-' :: letter :: _ => short letter
  | _ => plain

end Word

namespace Grammar

variable {σ : Type}

/-- The command that a word names here. -/
def command? (g : Grammar σ) (word : String) : Option CommandName :=
  (CommandName.ofName? word).filter (· ∈ g.commands)

/-- What is wrong with a plain word that nothing waits for. -/
def stray (g : Grammar σ) (verbatim : Bool) (word : String) : Misuse :=
  if g.commands.isEmpty then .unknownArgument
  else if verbatim ∧ (g.command? word).isSome then .unknownArgument
  else .unknownCommand

def stepLong (g : Grammar σ) (p : Progress σ) (name : String) (value : Option String) :
    Except Stop (Progress σ) :=
  let flag (stop : Stop) : Except Stop (Progress σ) :=
    if value.isSome then .error (.misuse .needlessValue) else p.settleThen stop
  if name = "help" then flag (.help g.topic)
  else if name = "version" ∧ g.versioned then flag .version
  else
    match g.options.find? (·.name = name) with
    | some option => p.begin option value
    | none => .error (.misuse .unknownArgument)

def stepShort (g : Grammar σ) (p : Progress σ) (letter : Char) : Except Stop (Progress σ) :=
  if letter = 'h' then p.settleThen (.help g.topic)
  else if letter = 'V' ∧ g.versioned then p.settleThen .version
  else .error (.misuse .unknownArgument)

/-- Reads a word that names no command. -/
def step (g : Grammar σ) (p : Progress σ) (word : String) : Except Stop (Progress σ) :=
  if p.verbatim then .error (.misuse (g.stray true word))
  else
    match Word.of word with
    | .dashes => .ok { p with verbatim := true }
    | .long name value => g.stepLong p name value
    | .short letter => g.stepShort p letter
    | .plain => if p.isWaiting then .ok (p.supply word) else .error (.misuse (g.stray false word))

/-- Reads words up to the first that names a command, and gives back that command and the words after
it. -/
def read (g : Grammar σ) (p : Progress σ) :
    List String → Except Stop (Progress σ × Option (CommandName × List String))
  | [] => .ok (p, none)
  | word :: rest =>
    match if p.verbatim || p.isWaiting then none else g.command? word with
    | some command => .ok (p, some (command, rest))
    | none =>
      match g.step p word with
      | .ok p => read g p rest
      | .error stop => .error stop

/-- Reads all words of a command that no other command follows. -/
def readAll (g : Grammar σ) (state : σ) (words : List String) : Except Stop σ := do
  let (p, _) ← g.read { state } words
  return (← p.settle).state

end Grammar

end TaskIndex.CommandLine
