import TaskIndex.Query.Field

/-!
Facets: what a task can be found by.

A facet is a property and one operand that the task equals there. Only properties with an index have
facets, and an operand of another kind is never one of them.
-/

namespace TaskIndex

/-- A property and an operand it may equal. -/
structure Facet where
  property : Property
  operand : Operand
deriving DecidableEq, Hashable

namespace Facet

/-- The properties that tasks are found by, by name. The id is found without facets. -/
def properties : List Property :=
  [.area, .aspirant, .motive, .origin, .participant, .predecessor, .purpose, .reporter, .serial,
    .solver, .status, .temperature, .version, .watcher]

/-- The operand is of the kind that the property is found by. -/
def isIndexed : Facet → Bool
  | ⟨.area, .text _⟩ | ⟨.version, .text _⟩ | ⟨.reporter, .text _⟩ | ⟨.solver, .text _⟩
  | ⟨.participant, .text _⟩ | ⟨.aspirant, .text _⟩ | ⟨.watcher, .text _⟩ => true
  | ⟨.predecessor, .number _⟩ | ⟨.origin, .number _⟩ | ⟨.serial, .number _⟩
  | ⟨.temperature, .number _⟩ => true
  | ⟨.status, .status _⟩ | ⟨.motive, .motive _⟩ | ⟨.purpose, .purpose _⟩ => true
  | _ => false

def area (s : String) : Facet := ⟨.area, .text s⟩

def version (s : String) : Facet := ⟨.version, .text s⟩

def reporter (s : String) : Facet := ⟨.reporter, .text s⟩

def solver (s : String) : Facet := ⟨.solver, .text s⟩

def participant (s : String) : Facet := ⟨.participant, .text s⟩

def aspirant (s : String) : Facet := ⟨.aspirant, .text s⟩

def watcher (s : String) : Facet := ⟨.watcher, .text s⟩

def predecessor (n : UInt32) : Facet := ⟨.predecessor, .number (.ofNat n.toNat)⟩

def origin (n : UInt32) : Facet := ⟨.origin, .number (.ofNat n.toNat)⟩

def serial (n : UInt32) : Facet := ⟨.serial, .number (.ofNat n.toNat)⟩

def status (s : Status) : Facet := ⟨.status, .status s⟩

def motive (m : Motive) : Facet := ⟨.motive, .motive m⟩

def purpose (p : Purpose) : Facet := ⟨.purpose, .purpose p⟩

def temperature (n : Nat) : Facet := ⟨.temperature, .number (.ofNat n)⟩

end Facet

/-- Everything the task can be found by on a day. -/
def Task.facets (t : Task) (today : Date) : List Facet :=
  [.area t.area, .version t.version, .reporter t.reporter] ++
    t.solver.toList.map .solver ++
    t.participants.toList.map .participant ++
    t.aspirants.toList.map .aspirant ++
    t.watchers.toList.map .watcher ++
    t.predecessor.toList.map .predecessor ++
    t.origin.toList.map .origin ++
    t.serial.toList.map .serial ++
    [.status t.status, .motive t.motive, .purpose t.purpose, .temperature (t.temperature today)]

end TaskIndex
