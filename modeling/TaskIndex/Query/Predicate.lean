import TaskIndex.Query.Operand

/-!
Predicates: a property, an operator and the operands it is compared with.
-/

namespace TaskIndex

/-- How a property is compared with the operands. -/
inductive Operator where
  | eq
  | ne
  | within
  | notWithin
  | lt
  | le
  | gt
  | ge
  | contains
deriving DecidableEq

namespace Operator

def all : List Operator := [eq, ne, within, notWithin, lt, le, gt, ge, contains]

def name : Operator → String
  | eq => "eq"
  | ne => "ne"
  | within => "in"
  | notWithin => "not_in"
  | lt => "lt"
  | le => "le"
  | gt => "gt"
  | ge => "ge"
  | contains => "contains"

def ofName? (s : String) : Option Operator := all.find? (·.name = s)

theorem ofName?_name (o : Operator) : ofName? o.name = some o := by cases o <;> rfl

/-- What matches is the union of the operands. -/
def isInclusive : Operator → Bool
  | eq | within => true
  | _ => false

/-- What matches is all but the operands. -/
def isExclusive : Operator → Bool
  | ne | notWithin => true
  | _ => false

end Operator

/-- One constraint of a query. -/
structure Predicate where
  property : Property
  operator : Operator
  operands : List Operand
deriving DecidableEq

namespace Predicate

def equals (property : Property) (operand : Operand) : Predicate :=
  ⟨property, .eq, [operand]⟩

def inShard (key : ShardKey) : Predicate := equals .shard (.shard key)

def orderedBy (keys : List SortKey) : Predicate := ⟨.order, .eq, keys.map .sort⟩

/-- How many matches to skip. The count is written as a signed number of the same width, so that
one from `2 ^ 63` on becomes negative. -/
def skipping (count : UInt64) : Predicate := equals .offset (.number count.toInt64)

/-- How many matches to give back, written as `skipping` writes its count. -/
def atMost (count : UInt64) : Predicate := equals .length (.number count.toInt64)

/-- The operand of an equality with exactly one. -/
def equalityOperand? (p : Predicate) : Option Operand :=
  match p.operator, p.operands with
  | .eq, [operand] => some operand
  | _, _ => none

end Predicate

end TaskIndex
