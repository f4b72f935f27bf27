import TaskIndex.Calendar.DateText
import TaskIndex.Query.Predicate
import TaskIndex.Task.Problem
import TaskIndex.Text.Numeral
import TaskIndex.Text.Split

/-!
The compact form of sort keys and predicates, as people type it.

A sort key is a property, with `:asc` or `:desc` behind it if it likes. A predicate is a property, an
operator and operands with commas between them. The operator is looked for by going through the
tokens in one order: the first token that occurs anywhere in the text is the operator, and the text
is cut where that token occurs first. Blanks around the property and around each operand do not
count.
-/

namespace TaskIndex

def Property.parse (s : String) : Except Problem Property :=
  match Property.ofTyped? s with
  | some p => .ok p
  | none => .error (.unknownProperty s)

namespace SortKey

/-- Reads a sort key. The direction is looked at before the property. -/
def parse (raw : String) : Except Problem SortKey :=
  let read (name : List Char) (direction : Direction) : Except Problem SortKey :=
    (Property.parse (Text.trim (String.ofList name))).map fun p => ⟨p, direction⟩
  match Text.cut? [':'] raw.toList with
  | none => read raw.toList .asc
  | some (name, word) =>
    match Direction.ofName? (String.ofList word) with
    | some direction => read name direction
    | none => .error (.unknownDirection (String.ofList word))

end SortKey

namespace Operand

def flagOfText? : String → Option Bool
  | "true" => some true
  | "false" => some false
  | _ => none

/-- Reads an operand of a property, and says what is wrong with a text that is none. -/
def parse (p : Property) (raw : String) : Except Problem Operand :=
  let s := Text.trim raw
  let known (operand : Option Operand) : Except Problem Operand :=
    operand.elim (.error (.invalidOperand p s)) .ok
  match p with
  | .shard => (ShardKey.parse s).map shard
  | .order => (SortKey.parse s).map sort
  | .status => known ((Status.ofName? s).map status)
  | .motive => known ((Motive.ofName? s).map motive)
  | .purpose => known ((Purpose.ofName? s).map purpose)
  | .archived => known ((flagOfText? s).map flag)
  | .created => known ((Date.ofText? s).map date)
  | .offset | .length | .id | .predecessor | .origin | .serial | .temperature =>
    known ((Text.int64? s).map number)
  | .title | .area | .version | .reporter | .solver | .participant | .aspirant | .watcher =>
    .ok (text s)

end Operand

/-- The tokens of the operators, in the order in which they are looked for. -/
def operatorTokens : List (List Char × Operator) :=
  [(['!', '='], .ne), (['<', '='], .le), (['>', '='], .ge), (['='], .eq), (['<'], .lt), (['>'], .gt),
    (['~'], .contains)]

namespace Predicate

/-- The name, the operator and the operands of a compact predicate. -/
def dissect? (raw : List Char) : Option (List Char × Operator × List Char) :=
  operatorTokens.findSome? fun (token, operator) =>
    (Text.cut? token raw).map fun (name, operands) => (name, operator, operands)

/-- With several operands, an equality means that one of them holds and an inequality that none
does; only an order takes several operands as they are. -/
def widen (p : Property) (operator : Operator) (operands : List Operand) : Operator :=
  if 1 < operands.length then
    match operator with
    | .eq => if p = .order then .eq else .within
    | .ne => .notWithin
    | operator => operator
  else operator

def parse (raw : String) : Except Problem Predicate :=
  match dissect? raw.toList with
  | none => .error (.missingOperator raw)
  | some (name, operator, rest) => do
    let property ← Property.parse (Text.trim (String.ofList name))
    let operands ← (Text.pieces ',' rest).mapM fun piece => Operand.parse property (String.ofList piece)
    return ⟨property, widen property operator operands, operands⟩

end Predicate

end TaskIndex
