import TaskIndex.Task.Basic

/-!
Sets of small ids in a flat array.

Members stand in the slots of an array in the order in which they came; a slot that a member has left
holds zero, which is no id, and is filled again before the array grows, unless the new id is larger
than every id seen so far. Such an id goes to the end, so an array that has only been added to at the
end ascends and a search may halve it. Once an id has gone anywhere else, or a hole is met, only a
look at every slot settles that an id is missing.
-/

namespace TaskIndex

/-- A set of ids other than zero. -/
structure IdSet where
  /-- The members, and zero for a hole. -/
  slots : Array TaskId := #[]
  /-- How many slots hold a member. -/
  live : Nat := 0
  /-- How many slots are holes. -/
  gaps : Nat := 0
  /-- The largest id that was ever put in. -/
  largest : TaskId := 0
  /-- The slot that was left last, until an id has been put in. -/
  spare : Option Nat := none
  /-- An id may stand behind a larger one. -/
  disordered : Bool := false
deriving DecidableEq

namespace IdSet

instance : EmptyCollection IdSet := ⟨{}⟩

instance : Inhabited IdSet := ⟨∅⟩

def size (s : IdSet) : Nat := s.live

def isEmpty (s : IdSet) : Bool := s.live == 0

def slotCount (s : IdSet) : Nat := s.slots.size

/-- The members in slot order. -/
def toList (s : IdSet) : List TaskId := s.slots.toList.filter (· ≠ 0)

/-! ### Searching -/

/-- What halving the array leads to. -/
inductive Halving where
  | found (slot : Nat)
  | hole
  | missing

/-- Halves the slots from `low` up to `high`, as if they ascended, until the id or a hole is met. -/
def halve (slots : Array TaskId) (id : TaskId) : (fuel low high : Nat) → Halving
  | 0, _, _ => .missing
  | fuel + 1, low, high =>
    if low < high then
      let mid := low + (high - low) / 2
      match slots[mid]? with
      | none => .missing
      | some there =>
        if there = id then .found mid
        else if there = 0 then .hole
        else if there < id then halve slots id fuel (mid + 1) high
        else halve slots id fuel low mid
    else .missing

/-- The slot of a member. -/
def slotOf? (s : IdSet) (id : TaskId) : Option Nat :=
  if id = 0 ∨ s.largest < id then none
  else
    match halve s.slots id s.slots.size 0 s.slots.size with
    | .found slot => some slot
    | .missing => if s.disordered then s.slots.idxOf? id else none
    | .hole => s.slots.idxOf? id

def contains (s : IdSet) (id : TaskId) : Bool := (s.slotOf? id).isSome

/-- A hole to fill: the one that was left last if it still is one, else the first. -/
def holeToFill? (s : IdSet) : Option Nat :=
  match s.spare.filter fun slot => s.slots[slot]? == some 0 with
  | some slot => some slot
  | none => if 0 < s.gaps then s.slots.idxOf? 0 else none

/-! ### Changing -/

/-- Puts an id into a slot of its own at the end. -/
def append (s : IdSet) (id : TaskId) : IdSet :=
  { s with slots := s.slots.push id, live := s.live + 1, largest := max s.largest id }

/-- Puts in an id that is not a member yet, and does not look whether it is. -/
def init (s : IdSet) (id : TaskId) : IdSet :=
  append { s with disordered := s.disordered || id < s.largest } id

/-- Puts in an id unless it is a member, and tells whether it was put in. -/
def add (s : IdSet) (id : TaskId) : IdSet × Bool :=
  if id = 0 then (s, false)
  else if s.largest < id then (s.append id, true)
  else if s.contains id then (s, false)
  else
    match s.holeToFill? with
    | some slot =>
      ({ s with
          slots := s.slots.setIfInBounds slot id
          live := s.live + 1
          gaps := s.gaps - 1
          spare := none
          disordered := true }, true)
    | none => (append { s with spare := none, disordered := true } id, true)

/-- Takes out an id if it is a member, and tells whether it was. -/
def remove (s : IdSet) (id : TaskId) : IdSet × Bool :=
  match s.slotOf? id with
  | none => (s, false)
  | some slot =>
    ({ s with
        slots := s.slots.setIfInBounds slot 0
        live := s.live - 1
        gaps := s.gaps + 1
        spare := some slot }, true)

def ofList (ids : List TaskId) : IdSet := ids.foldl (fun s id => (s.add id).1) ∅

end IdSet

end TaskIndex
