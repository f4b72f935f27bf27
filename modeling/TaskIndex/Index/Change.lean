import TaskIndex.Change.Batch
import TaskIndex.Index.Basic

/-!
Keeping an index up to date.

A change of a known task is not indexed anew. Each of its tags stands for a few moves of the task's id
between buckets, worked out from the stored task and the new one, and a tag moves only what it speaks
of. The revision decides first whether the change is news at all.
-/

namespace TaskIndex

inductive Move where
  | leave (f : Facet)
  | enter (f : Facet)
deriving DecidableEq

namespace Move

/-- From one facet to another, if they differ. -/
def shift (before after : Facet) : List Move :=
  if before = after then [] else [leave before, enter after]

/-- Away from the names that are gone. -/
def dropped (facet : String → Facet) (before after : SortedSet String) : List Move :=
  (before.diff after).toList.map fun name => leave (facet name)

/-- Away from the names that are gone and to the ones that are new. -/
def exchanged (facet : String → Facet) (before after : SortedSet String) : List Move :=
  dropped facet before after ++ (after.diff before).toList.map fun name => enter (facet name)

end Move

/-- The moves that a tag stands for on a day. -/
def Tag.moves (today : Date) (before after : Task) : Tag → List Move
  | .created => (before.facets today).map .leave ++ (after.facets today).map .enter
  | .temperature =>
    Move.shift (.temperature (before.temperature today)) (.temperature (after.temperature today))
  | .resolved | .absolved | .dissolved =>
    Move.shift (.status before.status) (.status after.status) ++
      (if before.solver ≠ after.solver then before.solver.toList.map fun s => .leave (.solver s) else []) ++
      (after.solver.toList.map fun s => .enter (.solver s)) ++
      Move.dropped .participant before.participants after.participants ++
      Move.dropped .aspirant before.aspirants after.aspirants
  | .area => Move.shift (.area before.area) (.area after.area)
  | .version => Move.shift (.version before.version) (.version after.version)
  | .membership =>
    Move.exchanged .participant before.participants after.participants ++
      Move.exchanged .aspirant before.aspirants after.aspirants ++
      Move.exchanged .watcher before.watchers after.watchers
  | .archived => []

/-- The moves that an operation stands for; an unrecognized one moves nothing. -/
def Operation.moves (today : Date) (before after : Task) : Operation → List Move
  | .known tag => tag.moves today before after
  | .unrecognized .. => []

/-- What has become of an entry. -/
inductive Outcome where
  /-- The new state is stored. -/
  | applied
  /-- The revision is not above the stored one. -/
  | stale
  /-- Another shard, an id that cannot be indexed, or an archived task that was never held. -/
  | rejected
deriving DecidableEq

/-- How many entries of a batch had each outcome, and how many tags were not recognized. -/
structure Tally where
  applied : Nat := 0
  stale : Nat := 0
  rejected : Nat := 0
  unrecognized : Nat := 0
deriving DecidableEq

namespace Tally

def count (tally : Tally) : Outcome → Tally
  | .applied => { tally with applied := tally.applied + 1 }
  | .stale => { tally with stale := tally.stale + 1 }
  | .rejected => { tally with rejected := tally.rejected + 1 }

end Tally

namespace Index

def move (id : TaskId) (idx : Index) : Move → Index
  | .leave f => idx.leave id f
  | .enter f => idx.enter id f

/-- Every move of an entry, tag by tag; each tag starts from the stored task. -/
def movesOf (today : Date) (before : Task) (e : ChangeEntry) : List Move :=
  e.operations.flatMap (·.moves today before e.after)

def applyEntry (idx : Index) (e : ChangeEntry) : Index × Outcome :=
  if e.after.shard ≠ idx.shard ∨ ¬e.after.HasIndexableId then (idx, .rejected)
  else
    match idx.get? e.after.id with
    | none => if e.after.archived then (idx, .rejected) else (idx.insertNew e.after, .applied)
    | some before =>
      if e.after.revision ≤ before.revision then (idx, .stale)
      else (((movesOf idx.today before e).foldl (move e.after.id) idx).store e.after, .applied)

def applyCounted (state : Index × Tally) (e : ChangeEntry) : Index × Tally :=
  let (idx, outcome) := state.1.applyEntry e
  let tally := state.2.count outcome
  (idx, { tally with unrecognized := tally.unrecognized + e.operations.countP (·.isUnrecognized) })

def applyBatch (idx : Index) (batch : ChangeBatch) : Index × Tally :=
  batch.entries.foldl applyCounted (idx, {})

end Index

end TaskIndex
