import TaskIndex.CacheError
import TaskIndex.Index.Change
import TaskIndex.Index.Lookup
import TaskIndex.Index.Stats
import TaskIndex.Source

/-!
A shard that has been loaded, and the requests it answers.

A shard whose loading failed stays what it is and refuses every request for that reason.
-/

namespace TaskIndex

/-- A loaded shard: its index, or why there is none. -/
structure Shard where
  key : ShardKey
  today : Date
  content : Except CacheError Index

inductive Request where
  /-- The page of matches that the predicates ask for. -/
  | lookup (ps : List Predicate)
  /-- Every match. -/
  | filter (ps : List Predicate)
  | apply (batch : ChangeBatch)
  | stats

inductive Reply where
  | page (page : Page)
  | tasks (tasks : List Task)
  | tally (tally : Tally)
  | stats (stats : Stats)
deriving DecidableEq

namespace Shard

/-- The shard that a scan leads to. -/
def ofScan (key : ShardKey) (today : Date) : Except SourceError (List Task) → Shard
  | .ok scanned => ⟨key, today, .ok (Index.load key today scanned)⟩
  | .error e => ⟨key, today, .error (.loadFailed key e.message)⟩

def load (key : ShardKey) (today : Date) (source : Source) : Source × Shard :=
  let (source, scanned) := source.scan key
  (source, ofScan key today scanned)

/-- The page of matches, or why there is none. -/
def lookup (limits : PageLimits) (s : Shard) (ps : List Predicate) : Except CacheError Page :=
  s.content.map (·.lookup limits ps)

def filter (s : Shard) (ps : List Predicate) : Except CacheError (List Task) :=
  s.content.map (·.filter ps)

/-- Applies changes, or tells why it does not. -/
def apply (s : Shard) (batch : ChangeBatch) : Shard × Except CacheError Tally :=
  match s.content with
  | .ok idx => ({ s with content := .ok (idx.applyBatch batch).1 }, .ok (idx.applyBatch batch).2)
  | .error e => (s, .error e)

def stats (s : Shard) : Except CacheError Stats := s.content.map (·.stats)

def serve (limits : PageLimits) (s : Shard) : Request → Shard × Except CacheError Reply
  | .lookup ps => (s, (s.lookup limits ps).map .page)
  | .filter ps => (s, (s.filter ps).map .tasks)
  | .apply batch => ((s.apply batch).1, (s.apply batch).2.map .tally)
  | .stats => (s, s.stats.map .stats)

end Shard

end TaskIndex
