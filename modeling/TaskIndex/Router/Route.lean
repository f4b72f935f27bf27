import TaskIndex.Query.Predicate
import TaskIndex.SortedSet

/-!
Which shards a query is about.

A query is about the shards that all of its inclusive shard predicates name, or about those of the
actor when it has none, less the shards that its exclusive ones name. Other operators on the shard do
not choose. A query that names one shard and nothing else to filter by is a request to index it.
-/

namespace TaskIndex

/-- Somebody who asks, with the shards they belong to. -/
structure Actor where
  name : String
  shards : SortedSet ShardKey := ∅
deriving DecidableEq

def Actor.withShards (a : Actor) (keys : List ShardKey) : Actor :=
  { a with shards := a.shards.insertAll keys }

namespace Predicate

/-- The predicate chooses shards. -/
def isTargeting (p : Predicate) : Bool := p.property == .shard

def shardKeys (p : Predicate) : SortedSet ShardKey := .ofList (p.operands.filterMap Operand.shard?)

end Predicate

/-- The shard sets of the inclusive shard predicates. -/
def inclusiveSets (ps : List Predicate) : List (SortedSet ShardKey) :=
  (ps.filter fun p => p.isTargeting && p.operator.isInclusive).map (·.shardKeys)

/-- The shard sets of the exclusive shard predicates. -/
def exclusiveSets (ps : List Predicate) : List (SortedSet ShardKey) :=
  (ps.filter fun p => p.isTargeting && p.operator.isExclusive).map (·.shardKeys)

/-- The shards that a query of an actor is about. -/
def targets (actor : Actor) (ps : List Predicate) : SortedSet ShardKey :=
  let included :=
    match inclusiveSets ps with
    | [] => actor.shards
    | keys :: rest => rest.foldl .inter keys
  included.diff ((exclusiveSets ps).foldl .union ∅)

/-- The way a query goes. -/
inductive Route where
  /-- One shard is named and nothing filters: the shard is loaded if need be. -/
  | index (key : ShardKey)
  | empty
  | single (key : ShardKey)
  | multi (keys : SortedSet ShardKey)
deriving DecidableEq

namespace Route

/-- The shard that a query asks to be indexed, if it does. -/
def indexKey? (ps : List Predicate) : Option ShardKey :=
  match ps.filter (·.isTargeting) with
  | [only] =>
    if ps.any (·.property.isFilter) then none else only.equalityOperand?.bind Operand.shard?
  | _ => none

/-- The way a query of an actor goes. -/
def of (actor : Actor) (ps : List Predicate) : Route :=
  match indexKey? ps with
  | some key => index key
  | none =>
    let keys := TaskIndex.targets actor ps
    match keys.toList with
    | [] => empty
    | [key] => single key
    | _ => multi keys

def targets : Route → SortedSet ShardKey
  | index key | single key => .single key
  | empty => ∅
  | multi keys => keys

end Route

/-- What a shard is asked: everything but the choice of shards. -/
def withoutTargeting (ps : List Predicate) : List Predicate := ps.filter fun p => !p.isTargeting

/-- What each of several shards is asked: the filters alone. -/
def filtersOnly (ps : List Predicate) : List Predicate := ps.filter (·.property.isFilter)

end TaskIndex
