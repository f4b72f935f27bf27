import Mathlib.Algebra.Group.Int.Defs
import Mathlib.Algebra.Group.Nat.Defs
import TaskIndex.CommandLine.Arguments
import TaskIndex.Query.Page

/-!
The page that a command line asks for.

The flags for the order, the offset and the length become predicates behind all others, where the last usable
value wins. A count goes through a signed number on its way, so that half of the counts are not usable when
they arrive: such a flag is accepted, and then the page is the one of a command line without it.
-/

namespace TaskIndex

/-- The length of a page within the limits. -/
def PageLimits.cap (limits : PageLimits) (length : Nat) : Nat := limits.maxLength.elim length (min length)

namespace PageSpec

variable {p : Property} {n : UInt64}

/-- A count as it arrives in the page: one from `2 ^ 63` on has become negative. -/
def arriving? (n : UInt64) : Option Nat := if n.toNat < 2 ^ 63 then some n.toNat else none

lemma toInt_toInt64 : n.toInt64.toInt = if n.toNat < 2 ^ 63 then (n.toNat : Int) else n.toNat - 2 ^ 64 := by
  have hcond := BitVec.toInt_eq_toNat_cond n.toBitVec
  rw [← UInt64.toBitVec_toInt64, Int64.toInt_toBitVec, UInt64.toBitVec_toInt64, UInt64.toNat_toBitVec] at hcond
  rw [hcond]
  split <;> split <;> omega

lemma count?_number : count? (.equals p (.number n.toInt64)) = arriving? n := by
  have hlt : n.toNat < 2 ^ 64 := n.toNat_lt
  have hnumber : count? (.equals p (.number n.toInt64)) =
      if 0 ≤ n.toInt64 then some n.toInt64.toInt.toNat else none := rfl
  simp only [hnumber, Int64.le_iff_toInt_le, Int64.toInt_zero, toInt_toInt64, arriving?]
  by_cases hsmall : n.toNat < 2 ^ 63
  · rw [if_pos hsmall, if_pos hsmall, if_pos (Int.natCast_nonneg _), Int.toNat_natCast]
  · rw [if_neg hsmall, if_neg hsmall, if_neg]
    omega

lemma step_skipping (spec : PageSpec) (n : UInt64) :
    step spec (.skipping n) = { spec with offset := (arriving? n).getD spec.offset } := by
  rw [← count?_number (p := .offset)]
  rfl

lemma step_atMost (spec : PageSpec) (n : UInt64) :
    step spec (.atMost n) = { spec with length := (arriving? n).getD spec.length } := by
  rw [← count?_number (p := .length)]
  rfl

lemma step_orderedBy (spec : PageSpec) (keys : List SortKey) :
    step spec (.orderedBy keys) = { spec with order := keys } := by
  have hkeys : (keys.map Operand.sort).filterMap Operand.sort? = keys := by
    rw [List.filterMap_map]
    exact List.filterMap_some
  simp only [step, Predicate.orderedBy, hkeys]

end PageSpec

namespace QueryOptions

open PageSpec

variable {o : QueryOptions}

/-- Each flag changes the field that it is for in what the other predicates have asked for. -/
lemma requested_allPredicates (limits : PageLimits) (o : QueryOptions) :
    requested limits o.allPredicates =
      let written := requested limits o.predicates
      { offset := (o.offset.bind arriving?).getD written.offset
        length := (o.length.bind arriving?).getD written.length
        order := if o.order = [] then written.order else o.order } := by
  have horder (spec : PageSpec) : (if o.order.isEmpty then [] else [.orderedBy o.order]).foldl step spec =
      { spec with order := if o.order = [] then spec.order else o.order } := by
    cases o.order with
    | nil => rfl
    | cons key keys => exact step_orderedBy spec (key :: keys)
  have hoffset (spec : PageSpec) : (o.offset.toList.map .skipping).foldl step spec =
      { spec with offset := (o.offset.bind arriving?).getD spec.offset } := by
    cases o.offset with
    | none => rfl
    | some n => exact step_skipping spec n
  have hlength (spec : PageSpec) : (o.length.toList.map .atMost).foldl step spec =
      { spec with length := (o.length.bind arriving?).getD spec.length } := by
    cases o.length with
    | none => rfl
    | some n => exact step_atMost spec n
  simp only [requested, allPredicates, List.foldl_append, horder, hoffset, hlength]

/-- **Flags that arrive decide.** Whatever the written predicates are, the page begins at the offset, has the
length within the limits and has the order that the flags give. A flag that is not given, or a count that does
not arrive, leaves its field what the written predicates alone make it. -/
theorem flags_decide_page (limits : PageLimits) (o : QueryOptions) :
    let spec := ofPredicates limits o.allPredicates
    let written := ofPredicates limits o.predicates
    spec.offset = (o.offset.bind arriving?).getD written.offset ∧
      spec.length = ((o.length.bind arriving?).map limits.cap).getD written.length ∧
      spec.order = if o.order = [] then written.order else o.order := by
  simp only [ofPredicates, requested_allPredicates, true_and, and_true]
  cases o.length.bind arriving? <;> rfl

/-- Not every offset arrives: the first one that is out of a signed number's reach skips nothing. -/
theorem not_forall_offset_decides :
    ¬∀ (limits : PageLimits) (o : QueryOptions) (n : UInt64), o.offset = some n →
      (ofPredicates limits o.allPredicates).offset = n.toNat := by
  intro hall
  have hskipped := hall default { offset := some 9223372036854775808 } 9223372036854775808 rfl
  have hnone : (ofPredicates default (allPredicates { offset := some 9223372036854775808 })).offset = 0 := rfl
  rw [hnone] at hskipped
  cases hskipped

end QueryOptions

end TaskIndex
