import TaskIndex.Query.Field

/-!
The order in which tasks are given back.

Tasks are ordered by one sort key after the other, and tasks that no key tells apart by shard and
then by id. Sorting is stable, although two tasks of different shard or id never tie.
-/

namespace TaskIndex

/-- How one key orders two tasks on a day. -/
def SortKey.compare (k : SortKey) (today : Date) (a b : Task) : Ordering :=
  let outcome := (a.field today k.property).order (b.field today k.property)
  match k.direction with
  | .asc => outcome
  | .desc => outcome.swap

namespace Task

/-- The order that keeps tasks apart when no key does. -/
def comparePlace : Task → Task → Ordering :=
  compareLex (compareOn Task.shard) (compareOn Task.id)

instance : Std.TransCmp comparePlace :=
  inferInstanceAs (Std.TransCmp (compareLex (compareOn Task.shard) (compareOn Task.id)))

/-- How a list of keys orders two tasks on a day. -/
def compareBy (keys : List SortKey) (today : Date) (a b : Task) : Ordering :=
  keys.foldr (fun k rest => (k.compare today a b).then rest) (comparePlace a b)

def sortBy (keys : List SortKey) (today : Date) (tasks : List Task) : List Task :=
  tasks.mergeSort fun a b => (compareBy keys today a b).isLE

end Task

end TaskIndex
