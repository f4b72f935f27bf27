/-!
What a query can speak about.

Most properties belong to the task and filter it. The shard property chooses where to look, and
offset, length and order shape the page that is given back. A property is written by its name; three
of them have a second name that people type.
-/

namespace TaskIndex

/-- A property of a task or of the answer. -/
inductive Property where
  | shard
  | offset
  | length
  | order
  | id
  | title
  | status
  | motive
  | purpose
  | area
  | version
  | reporter
  | solver
  | participant
  | aspirant
  | watcher
  | predecessor
  | origin
  | serial
  | temperature
  | archived
  | created
deriving DecidableEq, Hashable

namespace Property

def all : List Property :=
  [shard, offset, length, order, id, title, status, motive, purpose, area, version, reporter, solver,
    participant, aspirant, watcher, predecessor, origin, serial, temperature, archived, created]

def name : Property → String
  | shard => "shard"
  | offset => "offset"
  | length => "length"
  | order => "order"
  | id => "id"
  | title => "title"
  | status => "status"
  | motive => "motive"
  | purpose => "purpose"
  | area => "area"
  | version => "version"
  | reporter => "reporter"
  | solver => "solver"
  | participant => "participant"
  | aspirant => "aspirant"
  | watcher => "watcher"
  | predecessor => "predecessor"
  | origin => "origin"
  | serial => "serial"
  | temperature => "temperature"
  | archived => "archived"
  | created => "created"

def ofName? (s : String) : Option Property := all.find? (·.name = s)

/-- The property that a typed name means: its name, or the second name of one of three. -/
def ofTyped? (s : String) : Option Property :=
  match s with
  | "project" => some shard
  | "why" => some motive
  | "what_for" => some purpose
  | s => ofName? s

/-- How strongly one value of the property narrows a shard, from 0 for not at all to 100 for down
to one task. -/
def selectivity : Property → Nat
  | id => 100
  | serial => 90
  | predecessor | origin => 80
  | solver => 60
  | participant | aspirant | reporter => 50
  | version | area => 40
  | watcher => 30
  | temperature => 20
  | motive | purpose => 10
  | status => 5
  | title | archived | created | shard | offset | length | order => 0

/-- The property shapes the page. -/
def shapesPage : Property → Bool
  | offset | length | order => true
  | _ => false

/-- The property is one of the task's and filters it. -/
def isFilter (p : Property) : Bool := !p.shapesPage && p != shard

theorem ofName?_name (p : Property) : ofName? p.name = some p := by cases p <;> rfl

theorem ofTyped?_name (p : Property) : ofTyped? p.name = some p := by cases p <;> rfl

end Property

end TaskIndex
