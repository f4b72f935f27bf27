import TaskIndex.Query.Page
import TaskIndex.Query.Predicate
import TaskIndex.Record.Task
import TaskIndex.Router.Route

/-!
The records of a query: operands, predicates, sort keys, page limits and the actor who asks.

Properties, operators and directions are written by their names alone; the second names that people
type are not taken here. An operand is a table with one entry, whose key tells the kind.
-/

namespace TaskIndex

def Property.ofDocument? (d : Document) : Option Property := d.named? Property.ofName?

def Property.document (p : Property) : Document := .text p.name

def Operator.ofDocument? (d : Document) : Option Operator := d.named? Operator.ofName?

def Operator.document (o : Operator) : Document := .text o.name

def Direction.ofDocument? (d : Document) : Option Direction := d.named? Direction.ofName?

def Direction.document (d : Direction) : Document := .text d.name

namespace SortKey

def ofDocument? (d : Document) : Option SortKey := do
  return {
    property := ← d.field "property" Property.ofDocument?
    direction := ← d.field "direction" Direction.ofDocument? }

def document (k : SortKey) : Document :=
  .table [("property", k.property.document), ("direction", k.direction.document)]

end SortKey

namespace Operand

def ofKind? (value : Document) : String → Option Operand
  | "text" => value.text?.map text
  | "number" => value.int64?.map number
  | "flag" => value.flag?.map flag
  | "status" => (value.named? Status.ofName?).map status
  | "motive" => (value.named? Motive.ofName?).map motive
  | "purpose" => (value.named? Purpose.ofName?).map purpose
  | "date" => (Date.ofDocument? value).map date
  | "shard" => (ShardKey.ofDocument? value).map shard
  | "sort" => (SortKey.ofDocument? value).map sort
  | _ => none

def ofDocument? : Document → Option Operand
  | .table [(kind, value)] => ofKind? value kind
  | _ => none

def document : Operand → Document
  | text s => .table [("text", .text s)]
  | number n => .table [("number", .integer n.toInt)]
  | flag b => .table [("flag", .flag b)]
  | status s => .table [("status", .text s.name)]
  | motive m => .table [("motive", .text m.name)]
  | purpose p => .table [("purpose", .text p.name)]
  | date d => .table [("date", d.document)]
  | shard k => .table [("shard", k.document)]
  | sort k => .table [("sort", k.document)]

end Operand

namespace Predicate

def ofDocument? (d : Document) : Option Predicate := do
  return {
    property := ← d.field "property" Property.ofDocument?
    operator := ← d.field "operator" Operator.ofDocument?
    operands := ← d.field "values" (Document.list? Operand.ofDocument?) }

def document (p : Predicate) : Document :=
  .table [
    ("property", p.property.document),
    ("operator", p.operator.document),
    ("values", .list (p.operands.map Operand.document))]

end Predicate

namespace PageLimits

/-- The limits that two lengths make; an upper limit of zero is none that can be kept. -/
def of? (defaultLength : Nat) : (maxLength : Option Nat) → Option PageLimits
  | none => some ⟨defaultLength, none, pos_of_none⟩
  | some 0 => none
  | some (n + 1) => some ⟨defaultLength, some (n + 1), by simp⟩

def ofDocument? (d : Document) : Option PageLimits :=
  match d with
  | .table _ => do
    let length (d : Document) := d.below? UInt64.size
    let maxLength ← d.fieldOr "max_page_length" none (Document.orNull length)
    of? (← d.fieldOr "default_page_length" 50 length) maxLength
  | _ => none

def document (l : PageLimits) : Document :=
  .table [
    ("default_page_length", .ofNat l.defaultLength),
    ("max_page_length", .ofOption .ofNat l.maxLength)]

end PageLimits

namespace Actor

def ofDocument? (d : Document) : Option Actor := do
  return {
    name := ← d.field "name" Document.text?
    shards := ← d.fieldOr "shards" ∅ keysOfDocument? }

def document (a : Actor) : Document :=
  .table [("name", .text a.name), ("shards", keysDocument a.shards)]

end Actor

end TaskIndex
