import TaskIndex.Query.Field
import TaskIndex.Query.Predicate

/-!
Which tasks a predicate lets through.
-/

namespace TaskIndex

namespace Predicate

/-- The first operand can be compared with the field, and the outcome is accepted. -/
def comparesFirst (p : Predicate) (field : Field) (accept : Ordering → Bool) : Bool :=
  match p.operands.head?.bind field.compare? with
  | some outcome => accept outcome
  | none => false

/-- The predicate lets the task through on that day. A predicate that does not filter lets every
task through. -/
def Matches (p : Predicate) (t : Task) (today : Date) : Bool :=
  let field := t.field today p.property
  if p.property.isFilter then
    match p.operator with
    | .eq | .within => p.operands.any field.equals
    | .ne | .notWithin => !p.operands.any field.equals
    | .lt => p.comparesFirst field (· == .lt)
    | .le => p.comparesFirst field (· != .gt)
    | .gt => p.comparesFirst field (· == .gt)
    | .ge => p.comparesFirst field (· != .lt)
    | .contains => p.operands.any field.contains
  else true

end Predicate

end TaskIndex
