import TaskIndex.Query.Order
import TaskIndex.Query.Predicate

/-!
The page of an answer: how many matches are skipped, how many are given back, and in which order.

Offset, length and order come from the predicates of a query. The last usable value of each wins; a
negative count is not usable, and an order with no sort key is an empty order.
-/

namespace TaskIndex

/-- How long a page is when the query does not tell, and how long it may be at most. -/
structure PageLimits where
  defaultLength : Nat := 50
  maxLength : Option Nat := none
  maxLength_pos : ∀ m ∈ maxLength, 0 < m := by decide
deriving DecidableEq

theorem PageLimits.pos_of_none : ∀ m ∈ (none : Option Nat), 0 < m := by simp

instance : Inhabited PageLimits := ⟨⟨50, none, PageLimits.pos_of_none⟩⟩

/-- Where a page begins, how long it is and how it is ordered. -/
structure PageSpec where
  offset : Nat
  length : Nat
  order : List SortKey
deriving DecidableEq

namespace PageSpec

/-- The first operand as a count. -/
def count? (p : Predicate) : Option Nat :=
  match p.operands.head?.bind Operand.number? with
  | some n => if 0 ≤ n then some n.toInt.toNat else none
  | none => none

/-- What one more predicate changes. -/
def step (spec : PageSpec) (p : Predicate) : PageSpec :=
  match p.property with
  | .offset => { spec with offset := (count? p).getD spec.offset }
  | .length => { spec with length := (count? p).getD spec.length }
  | .order => { spec with order := p.operands.filterMap Operand.sort? }
  | _ => spec

/-- What a list of predicates asks for, with no upper limit. -/
def requested (limits : PageLimits) (ps : List Predicate) : PageSpec :=
  ps.foldl step ⟨0, limits.defaultLength, []⟩

/-- What a list of predicates asks for, within the limits. -/
def ofPredicates (limits : PageLimits) (ps : List Predicate) : PageSpec :=
  let spec := requested limits ps
  { spec with length := limits.maxLength.elim spec.length (min spec.length) }

end PageSpec

/-- One page of matches, and how many matches there are in all. -/
structure Page where
  tasks : List Task
  total : Nat
deriving DecidableEq

namespace Page

instance : Inhabited Page := ⟨[], 0⟩

/-- The page that begins at the offset and is as long as asked, if there are that many. -/
def cut (spec : PageSpec) (matched : List Task) : Page :=
  ⟨(matched.drop spec.offset).take spec.length, matched.length⟩

/-- Orders the matches and takes one page. -/
def ofMatches (spec : PageSpec) (today : Date) (matched : List Task) : Page :=
  cut spec (Task.sortBy spec.order today matched)

end Page

end TaskIndex
