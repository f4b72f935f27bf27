import TaskIndex.Calendar.Date
import TaskIndex.SortedSet
import TaskIndex.Task.Problem
import TaskIndex.Task.Vocabulary

/-!
Tasks.

A task is known by its shard and its id there. Its revision grows with every committed change, and
its temperature on a day rises with its emphasis and falls with its age.
-/

namespace TaskIndex

/-- The number of a task inside its shard. -/
abbrev TaskId := UInt16

/-- The largest id that a shard can index. -/
def maxTaskId : TaskId := 32766

/-- The highest temperature. -/
def maxTemperature : Nat := 99

/-- A committed state of a task. -/
structure Task where
  id : TaskId
  shard : ShardKey
  title : String := ""
  status : Status
  motive : Motive
  purpose : Purpose
  area : String := ""
  version : String := ""
  reporter : String := ""
  solver : Option String := none
  participants : SortedSet String := ∅
  aspirants : SortedSet String := ∅
  watchers : SortedSet String := ∅
  predecessor : Option UInt32 := none
  origin : Option UInt32 := none
  serial : Option UInt32 := none
  archived : Bool := false
  emphasis : UInt32 := 0
  created : Date
  revision : UInt64 := 0
deriving DecidableEq

namespace Task

/-- A new unsolved task about a defect, at its first revision. -/
def fresh (shard : ShardKey) (id : TaskId) (created : Date) : Task where
  id := id
  shard := shard
  status := .unsolved
  motive := .defect
  purpose := .fix
  created := created
  revision := 1

/-- The id is one that a shard can index. -/
def HasIndexableId (t : Task) : Prop := t.id ≠ 0 ∧ t.id ≤ maxTaskId

instance (t : Task) : Decidable t.HasIndexableId := inferInstanceAs (Decidable (_ ∧ _))

/-- Refuses a task whose id cannot be indexed. -/
def validate (t : Task) : Except Problem Unit :=
  if t.HasIndexableId then .ok ()
  else .error (.idOutOfRange t.id.toNat maxTaskId.toNat)

/-- Seven degrees for each point of emphasis, less one for every ten days of age, and never outside
the scale. A day before the creation counts as age zero. -/
def temperature (t : Task) (today : Date) : Nat :=
  min maxTemperature (7 * t.emphasis.toNat - (t.created.daysUntil today).toNat / 10)

end Task

end TaskIndex
