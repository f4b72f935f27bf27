import TaskIndex.Change.Operation
import TaskIndex.Task.Basic

/-!
Committed changes, entry by entry and in batches.

An entry has the state of a task after the change and the tags that tell what was done. A batch is a
non-empty list of entries for one shard.
-/

namespace TaskIndex

/-- One change of one task. -/
structure ChangeEntry where
  before : Option Task := none
  after : Task
  operations : List Operation
deriving DecidableEq

namespace ChangeEntry

/-- The shard that the change belongs to. -/
def shard (e : ChangeEntry) : ShardKey := e.after.shard

end ChangeEntry

/-- Changes of one shard, in the order in which they were committed. -/
structure ChangeBatch where
  shard : ShardKey
  entries : List ChangeEntry
  ne_nil : entries ≠ []
  shard_eq : ∀ e ∈ entries, e.shard = shard
deriving DecidableEq

namespace ChangeBatch

/-- The batch of a list of entries, for the shard of the first one. -/
def ofEntries : List ChangeEntry → Except Problem ChangeBatch
  | [] => .error .emptyBatch
  | e :: es =>
    match h : (e :: es).find? (·.shard ≠ e.shard) with
    | some stray => .error (.mixedShards e.shard stray.shard)
    | none =>
      .ok ⟨e.shard, e :: es, by simp, fun x hx => by
        simpa using List.find?_eq_none.1 h x hx⟩

end ChangeBatch

end TaskIndex
