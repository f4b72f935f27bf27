import TaskIndex.Store

/-!
Where shards are loaded from.

A scan hands over the live tasks of one shard. A shard that is offline cannot be scanned, and a source
may hand over further tasks of its own after the stored ones. The source remembers what it was asked
to scan.
-/

namespace TaskIndex

/-- Why a scan fails. -/
inductive SourceError where
  | persistence (detail : String)
deriving DecidableEq

def SourceError.message : SourceError → String
  | persistence detail => "persistence error: " ++ detail

/-- One request for a scan, and whether it was answered. -/
structure Scan where
  shard : ShardKey
  answered : Bool
deriving DecidableEq

/-- A source of tasks. -/
structure Source where
  store : Store := ∅
  offline : List ShardKey := []
  further : List Task := []
  /-- Every scan that was asked for, the latest first. -/
  log : List Scan := []

namespace Source

instance : Inhabited Source := ⟨{}⟩

def scanCount (s : Source) : Nat := s.log.countP (·.answered)

/-- Hands over what there is of a shard. -/
def scan (s : Source) (shard : ShardKey) : Source × Except SourceError (List Task) :=
  if shard ∈ s.offline then
    ({ s with log := ⟨shard, false⟩ :: s.log }, .error (.persistence s!"{shard.text} offline"))
  else
    ({ s with log := ⟨shard, true⟩ :: s.log }, .ok (s.store.live shard ++ s.further))

/-- Hands over the stored tasks of a shard alone, offline or not. -/
def scanStored (s : Source) (shard : ShardKey) : Source × List Task :=
  ({ s with log := ⟨shard, true⟩ :: s.log }, s.store.live shard)

def insert (s : Source) (t : Task) : Source := { s with store := s.store.insert t }

end Source

end TaskIndex
