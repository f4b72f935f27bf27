import Mathlib.Data.Option.Basic
import TaskIndex.Query.Field

/-!
The scale of a property.

On one day, the fields that tasks have for a property are absent or all of one form, so they lie on one scale
below which are the absent ones. Two tasks are ordered by their places on that scale, and a task is compared
with an operand by the operand's place there, if it has any. So the two tables of comparisons cannot disagree.
-/

namespace TaskIndex

variable {p : Property} {today : Date}

/-- The places of tasks and of operands among the values of one property. -/
structure Scale (p : Property) (today : Date) where
  Value : Type
  ord : Ord Value
  trans : Std.TransOrd Value
  value : Task → Option Value
  mark : Operand → Option Value
  absent_of_none : ∀ t, value t = none → t.field today p = .absent
  order_eq : ∀ a b, (a.field today p).order (b.field today p) = compare (value a) (value b)
  compare?_eq : ∀ t v, (t.field today p).compare? v = (value t).bind fun x => (mark v).map (compare x)

namespace Scale

attribute [instance] ord trans

section

variable {α : Type} [Ord α] [Std.TransOrd α]

def ofForm (form : α → Field) (mark : Operand → Option α) (value : Task → Option α)
    (hfield : ∀ t : Task, t.field today p = (value t).elim .absent form)
    (horder : ∀ x y, (form x).order (form y) = compare x y := by intro x y; rfl)
    (hpresent : ∀ x, (form x).order .absent = .gt ∧ Field.absent.order (form x) = .lt := by
      intro x; exact ⟨rfl, rfl⟩)
    (hmark : ∀ x v, (form x).compare? v = (mark v).map (compare x) := by intro x v; cases v <;> rfl) :
    Scale p today where
  Value := α
  ord := inferInstance
  trans := inferInstance
  value := value
  mark := mark
  absent_of_none t ht := by rw [hfield, ht, Option.elim_none]
  order_eq a b := by
    rw [hfield, hfield]
    cases value a with
    | none => cases value b with
      | none => rfl
      | some y => exact (hpresent y).2
    | some x => cases value b with
      | none => exact (hpresent x).1
      | some y => exact horder x y
  compare?_eq t v := by
    rw [hfield]
    cases value t with
    | none => cases v <;> rfl
    | some x => exact hmark x v

end

/-! ### One scale for each form -/

def textMark : Operand → Option String
  | .text s => some s
  | .shard k => some k.text
  | _ => none

def text (value : Task → Option String) (h : ∀ t : Task, t.field today p = (value t).elim .absent .text) :
    Scale p today := ofForm Field.text textMark value h

def number (value : Task → Option Int) (h : ∀ t : Task, t.field today p = (value t).elim .absent .number) :
    Scale p today := ofForm Field.number (fun v => v.number?.map Int64.toInt) value h

/-- A set of names has its size for a place, and no operand has one there. -/
def names (value : Task → SortedSet String) (h : ∀ t : Task, t.field today p = .names (value t)) :
    Scale p today :=
  letI : Ord (SortedSet String) := ⟨compareOn SortedSet.size⟩
  haveI : Std.TransOrd (SortedSet String) := inferInstanceAs (Std.TransCmp (compareOn SortedSet.size))
  ofForm Field.names (fun _ => none) (fun t => some (value t)) h

def nothing (h : ∀ t : Task, t.field today p = .absent) : Scale p today := number (fun _ => none) h

def number? (value : Task → Option UInt32) (h : ∀ t : Task, t.field today p = .ofNumber? (value t)) :
    Scale p today :=
  number (fun t => (value t).map fun n => n.toNat) fun t => by
    rw [h]
    cases value t <;> rfl

def of (today : Date) : (p : Property) → Scale p today
  | .id => number (fun t => some t.id.toNat) fun _ => rfl
  | .title => text (fun t => some t.title) fun _ => rfl
  | .status =>
    ofForm Field.status (fun | .status s => some s | _ => none) (fun t => some t.status) fun _ => rfl
  | .motive =>
    ofForm Field.motive (fun | .motive m => some m | _ => none) (fun t => some t.motive) fun _ => rfl
  | .purpose =>
    ofForm Field.purpose (fun | .purpose q => some q | _ => none) (fun t => some t.purpose) fun _ => rfl
  | .area => text (fun t => some t.area) fun _ => rfl
  | .version => text (fun t => some t.version) fun _ => rfl
  | .reporter => text (fun t => some t.reporter) fun _ => rfl
  | .solver => text (fun t => t.solver) fun _ => rfl
  | .participant => names (fun t => t.participants) fun _ => rfl
  | .aspirant => names (fun t => t.aspirants) fun _ => rfl
  | .watcher => names (fun t => t.watchers) fun _ => rfl
  | .predecessor => number? (fun t => t.predecessor) fun _ => rfl
  | .origin => number? (fun t => t.origin) fun _ => rfl
  | .serial => number? (fun t => t.serial) fun _ => rfl
  | .temperature => number (fun t => some (t.temperature today)) fun _ => rfl
  | .archived => ofForm Field.flag (fun | .flag b => some b | _ => none) (fun t => some t.archived) fun _ => rfl
  | .created => ofForm Field.date (fun | .date d => some d | _ => none) (fun t => some t.created) fun _ => rfl
  | .shard => text (fun t => some t.shard.text) fun _ => rfl
  | .offset => nothing fun _ => rfl
  | .length => nothing fun _ => rfl
  | .order => nothing fun _ => rfl

end Scale

end TaskIndex
