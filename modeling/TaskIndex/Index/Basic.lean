import TaskIndex.IdSet
import TaskIndex.Index.Facet
import Std.Data.HashMap

/-!
The index of one shard.

Every task stands in the slot of its id, and every facet has a bucket with the ids of the tasks that
carry it. The temperature facets hold for the day the index was made for.
-/

namespace TaskIndex

/-- What is kept of one shard for one day. -/
structure Index where
  shard : ShardKey
  today : Date
  /-- The task of each id. -/
  slots : Array (Option Task) := #[]
  /-- The ids behind each facet that was ever carried. -/
  buckets : Std.HashMap Facet IdSet := ∅

namespace Index

def get? (idx : Index) (id : TaskId) : Option Task := (idx.slots[id.toNat]?).join

def tasks (idx : Index) : List Task := idx.slots.toList.filterMap fun t => t

def bucket (idx : Index) (f : Facet) : IdSet := idx.buckets.getD f ∅

/-! ### Buckets -/

/-- Puts an id behind a facet that it is not behind yet. -/
def enterNew (id : TaskId) (idx : Index) (f : Facet) : Index :=
  { idx with buckets := idx.buckets.alter f fun s => some ((s.getD ∅).init id) }

def enter (id : TaskId) (idx : Index) (f : Facet) : Index :=
  { idx with buckets := idx.buckets.alter f fun s => some ((s.getD ∅).add id).1 }

def leave (id : TaskId) (idx : Index) (f : Facet) : Index :=
  { idx with buckets := idx.buckets.modify f fun s => (s.remove id).1 }

/-! ### Slots -/

/-- The least power of two above a slot. -/
def room (slot : Nat) : Nat := if slot = 0 then 1 else 2 <<< slot.log2

/-- The slots with room for one more: their number is always zero or a power of two. -/
def withRoomFor (slot : Nat) (slots : Array (Option Task)) : Array (Option Task) :=
  if slot < slots.size then slots
  else slots ++ Array.replicate (room slot - slots.size) none

def store (idx : Index) (t : Task) : Index :=
  { idx with slots := (withRoomFor t.id.toNat idx.slots).setIfInBounds t.id.toNat (some t) }

/-- Takes in a task whose id is free. -/
def insertNew (idx : Index) (t : Task) : Index :=
  ((t.facets idx.today).foldl (enterNew t.id) idx).store t

/-! ### Loading -/

/-- Takes in a scanned task, unless it is archived, of another shard, not indexable or has an id that
is taken. -/
def accept (idx : Index) (t : Task) : Index :=
  if t.archived ∨ t.shard ≠ idx.shard ∨ ¬t.HasIndexableId ∨ (idx.get? t.id).isSome then idx
  else idx.insertNew t

/-- The index of what a scan of the shard has come upon. -/
def load (shard : ShardKey) (today : Date) (scanned : List Task) : Index :=
  scanned.foldl accept { shard, today }

end Index

end TaskIndex
