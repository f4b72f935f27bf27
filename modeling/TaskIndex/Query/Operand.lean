import TaskIndex.Calendar.Date
import TaskIndex.Query.Property
import TaskIndex.Task.ShardKey
import TaskIndex.Task.Vocabulary

/-!
Operands: the typed values that a query compares with. Every property takes operands of one kind.
-/

namespace TaskIndex

/-- Which way a sort key runs. -/
inductive Direction where
  | asc
  | desc
deriving DecidableEq, Hashable

namespace Direction

def name : Direction → String
  | asc => "asc"
  | desc => "desc"

def ofName? : String → Option Direction
  | "asc" => some asc
  | "desc" => some desc
  | _ => none

theorem ofName?_name (d : Direction) : ofName? d.name = some d := by cases d <;> rfl

end Direction

/-- One property to order by, and which way. -/
structure SortKey where
  property : Property
  direction : Direction
deriving DecidableEq, Hashable

/-- A typed value. -/
inductive Operand where
  | text (s : String)
  | number (n : Int64)
  | flag (b : Bool)
  | status (s : Status)
  | motive (m : Motive)
  | purpose (p : Purpose)
  | date (d : Date)
  | shard (k : ShardKey)
  | sort (k : SortKey)
deriving DecidableEq

/-- What operands are values of. -/
inductive Kind where
  | text
  | number
  | flag
  | status
  | motive
  | purpose
  | date
  | shard
  | sort
deriving DecidableEq

/-- The kind of the operands that a property takes. -/
def Property.kind : Property → Kind
  | .shard => .shard
  | .order => .sort
  | .status => .status
  | .motive => .motive
  | .purpose => .purpose
  | .archived => .flag
  | .created => .date
  | .offset | .length | .id | .predecessor | .origin | .serial | .temperature => .number
  | .title | .area | .version | .reporter | .solver | .participant | .aspirant | .watcher => .text

namespace Operand

def kind : Operand → Kind
  | text _ => .text
  | number _ => .number
  | flag _ => .flag
  | status _ => .status
  | motive _ => .motive
  | purpose _ => .purpose
  | date _ => .date
  | shard _ => .shard
  | sort _ => .sort

def number? : Operand → Option Int64
  | number n => some n
  | _ => none

def shard? : Operand → Option ShardKey
  | shard k => some k
  | _ => none

def sort? : Operand → Option SortKey
  | sort k => some k
  | _ => none

protected def hash : Operand → UInt64
  | text s => mixHash 1 (hash s)
  | number n => mixHash 2 (hash n)
  | flag b => mixHash 3 (hash b)
  | status s => mixHash 4 (hash s)
  | motive m => mixHash 5 (hash m)
  | purpose p => mixHash 6 (hash p)
  | date d => mixHash 7 (mixHash (hash d.year) (mixHash (hash d.month) (hash d.day)))
  | shard k => mixHash 8 (hash k)
  | sort k => mixHash 9 (hash k)

instance : Hashable Operand := ⟨Operand.hash⟩

end Operand

end TaskIndex
