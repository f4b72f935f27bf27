import TaskIndex.Index.Basic

/-!
How full an index is.
-/

namespace TaskIndex

/-- The occupancy of one shard. -/
structure Stats where
  shard : ShardKey
  tasks : Nat
  /-- Tasks that have been archived since they were loaded. -/
  archived : Nat
  slots : Nat
  /-- For each indexed property, how many of its facets some task stands behind. -/
  occupied : List (Property × Nat)
deriving DecidableEq

namespace Index

/-- How many facets of a property have an id behind them. -/
def occupied (idx : Index) (p : Property) : Nat :=
  idx.buckets.toList.countP fun (f, ids) => f.property = p && !ids.isEmpty

def stats (idx : Index) : Stats where
  shard := idx.shard
  tasks := idx.tasks.length
  archived := idx.tasks.countP (·.archived)
  slots := idx.slots.size
  occupied := Facet.properties.map fun p => (p, idx.occupied p)

end Index

end TaskIndex
