import TaskIndex.CacheError
import TaskIndex.Query.Page
import TaskIndex.SortedSet

/-!
The answer to a query: a page of tasks, and what has become of each shard the query was about.
-/

namespace TaskIndex

structure Answer where
  tasks : List Task := []
  /-- How many tasks match, before the page is cut. -/
  total : Nat := 0
  /-- The shards that were asked and have answered. -/
  included : SortedSet ShardKey := ∅
  /-- The shards that are not cached. -/
  excluded : SortedSet ShardKey := ∅
  /-- The shards that could not answer. -/
  erroneous : SortedSet ShardKey := ∅
deriving DecidableEq

namespace Answer

instance : Inhabited Answer := ⟨{}⟩

def isEmpty (a : Answer) : Bool := a.tasks.isEmpty

/-- Nothing was looked at, because none of the shards is cached. -/
def excluding (keys : SortedSet ShardKey) : Answer := { excluded := keys }

/-- The answer that one shard gives. -/
def ofShard (key : ShardKey) : Except CacheError Page → Answer
  | .ok page => { tasks := page.tasks, total := page.total, included := .single key }
  | .error _ => { erroneous := .single key }

/-- The answer that a merged page of several shards gives. -/
def ofPage (page : Page) (included excluded erroneous : SortedSet ShardKey) : Answer :=
  { tasks := page.tasks, total := page.total, included, excluded, erroneous }

/-- The answer when what several shards have replied could not be merged. -/
def unmerged (included excluded erroneous : SortedSet ShardKey) : Answer :=
  { excluded, erroneous := erroneous.union included }

end Answer

end TaskIndex
