import TaskIndex.Router.Answer
import TaskIndex.Router.Route
import TaskIndex.Shard.Basic

/-!
The router: the shards that are cached, and the day they are valid for.

Here every request is served before the next one comes. A query first drops all shards when the day
has moved on; only a request to index a shard loads one; all other requests work with what is there.
-/

namespace TaskIndex

structure Router where
  source : Source
  /-- The day on the clock. -/
  today : Date
  limits : PageLimits
  /-- The latest day on which a query has found the cached shards valid. -/
  validFor : Date
  /-- The cached shards, at most one for each key. -/
  shards : List Shard := []
  closed : Bool := false

namespace Router

def start (source : Source) (today : Date) (limits : PageLimits) : Router :=
  { source, today, limits, validFor := today }

def find? (r : Router) (key : ShardKey) : Option Shard := r.shards.find? (·.key = key)

def cached (r : Router) : SortedSet ShardKey := .ofList (r.shards.map (·.key))

/-! ### The clock -/

def setDate (r : Router) (today : Date) : Router := { r with today }

def advance (r : Router) (days : Int) : Router := r.setDate (r.today.addDays days)

/-- Drops every shard when the day has moved on. -/
def rollOver (r : Router) : Router :=
  if compare r.validFor r.today = .lt then { r with validFor := r.today, shards := [] } else r

/-! ### Queries -/

/-- The cached shard of a key, loaded if there is none. -/
def obtain (r : Router) (key : ShardKey) : Router × Shard :=
  match r.find? key with
  | some shard => (r, shard)
  | none =>
    let (source, shard) := Shard.load key r.today r.source
    ({ r with source, shards := r.shards ++ [shard] }, shard)

def askShard (r : Router) (ps : List Predicate) (shard : Shard) : Answer :=
  .ofShard shard.key (shard.lookup r.limits (withoutTargeting ps))

/-- The answer of the cached ones among several shards, merged, ordered and paged once. -/
def fanOut (r : Router) (keys : SortedSet ShardKey) (ps : List Predicate) : Answer :=
  let asked := keys.toList.filterMap r.find?
  let replies := asked.map fun shard => (shard.key, shard.filter (filtersOnly ps))
  let answered := replies.filterMap fun (key, reply) => reply.toOption.map fun tasks => (key, tasks)
  let failed := replies.filter fun (_, reply) => !reply.toBool
  .ofPage
    (.ofMatches (.ofPredicates r.limits ps) r.today (answered.flatMap (·.2)))
    (.ofList (answered.map (·.1)))
    (keys.filter fun key => (r.find? key).isNone)
    (.ofList (failed.map (·.1)))

def query (r : Router) (actor : Actor) (ps : List Predicate) : Router × Answer :=
  let r := r.rollOver
  let route := Route.of actor ps
  if r.closed then (r, .excluding route.targets)
  else
    match route with
    | .index key =>
      let (r, shard) := r.obtain key
      (r, r.askShard ps shard)
    | .empty => (r, {})
    | .single key => (r, (r.find? key).elim (.excluding (.single key)) (r.askShard ps))
    | .multi keys => (r, r.fanOut keys ps)

/-! ### Other requests -/

/-- Puts a shard in the place of the cached one of its key. -/
def replace (r : Router) (shard : Shard) : Router :=
  { r with shards := r.shards.map fun s => if s.key = shard.key then shard else s }

/-- Hands a batch of changes to its shard; nothing is done when the shard is not cached. -/
def notify (r : Router) (batch : ChangeBatch) : Router × Except CacheError (Option Tally) :=
  match r.find? batch.shard with
  | none => (r, .ok none)
  | some shard =>
    let (shard, reply) := shard.apply batch
    (r.replace shard, reply.map some)

def stats (r : Router) (key : ShardKey) : Except CacheError (Option Stats) :=
  match r.find? key with
  | none => .ok none
  | some shard => shard.stats.map some

/-- Forgets a shard, and tells whether it was cached. -/
def evict (r : Router) (key : ShardKey) : Router × Bool :=
  ({ r with shards := r.shards.filter (·.key ≠ key) }, (r.find? key).isSome)

def close (r : Router) : Router := { r with shards := [], closed := true }

def insert (r : Router) (t : Task) : Router := { r with source := r.source.insert t }

/-- Commits a change to the store behind the router, and tells no shard. -/
def commit (r : Router) (e : ChangeEntry) : Router := r.insert e.after

end Router

end TaskIndex
