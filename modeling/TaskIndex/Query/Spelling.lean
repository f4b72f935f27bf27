import TaskIndex.Query.Compact

/-!
How predicates are spelled in the compact form.

An operand is spelled by its name, its numeral or its text, and operands are joined by commas. An
operator and its counterpart for several operands share one token, since the count of the operands
tells the two apart.
-/

namespace TaskIndex

def Operator.token : Operator → List Char
  | .eq | .within => ['=']
  | .ne | .notWithin => ['!', '=']
  | .lt => ['<']
  | .le => ['<', '=']
  | .gt => ['>']
  | .ge => ['>', '=']
  | .contains => ['~']

/-- A sort key is always spelled with its direction. -/
def SortKey.chars (k : SortKey) : List Char :=
  k.property.name.toList ++ ':' :: k.direction.name.toList

namespace Operand

/-- The word for a truth value. -/
def flagText (b : Bool) : String := if b then "true" else "false"

def chars : Operand → List Char
  | text s => s.toList
  | number n => Text.ofInt n.toInt
  | flag b => (flagText b).toList
  | status s => s.name.toList
  | motive m => m.name.toList
  | purpose p => p.name.toList
  | date d => d.chars
  | shard k => k.text.toList
  | sort k => k.chars

end Operand

namespace Predicate

def chars (p : Predicate) : List Char :=
  p.property.name.toList ++ p.operator.token ++ Text.join ',' (p.operands.map Operand.chars)

def spelling (p : Predicate) : String := String.ofList p.chars

end Predicate

end TaskIndex
