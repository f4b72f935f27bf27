import Mathlib.Data.List.Nodup
import TaskIndex.Proofs.Query.Scale
import TaskIndex.Query.Page

/-!
The order of an answer is one order.

The fields of one property lie on one scale, so comparing them is comparing places of one type. A
list of keys followed by the place of a task is then a total order in which only tasks of the same shard
and id tie, and a list without such ties has one sorted form, whatever order it comes in.
-/

namespace TaskIndex

/-! ### One key -/

/-- Comparing the fields of a property is comparing what some measure of a task gives. -/
lemma Task.exists_measure (p : Property) (today : Date) :
    ∃ (α : Type) (_ : Ord α) (_ : Std.TransOrd α) (measure : Task → α), ∀ a b,
      (a.field today p).order (b.field today p) = compare (measure a) (measure b) :=
  let scale := Scale.of today p
  ⟨Option scale.Value, _, inferInstance, scale.value, scale.order_eq⟩

instance (k : SortKey) (today : Date) : Std.TransCmp (k.compare today) := by
  obtain ⟨α, _, _, measure, h⟩ := Task.exists_measure k.property today
  obtain ⟨p, direction⟩ := k
  cases direction with
  | asc =>
    have heq : SortKey.compare ⟨p, .asc⟩ today = compareOn measure := by
      funext a b
      exact h a b
    rw [heq]
    infer_instance
  | desc =>
    have heq : SortKey.compare ⟨p, .desc⟩ today = fun a b => compareOn measure b a := by
      funext a b
      simp only [SortKey.compare, compareOn, h, ← Std.OrientedOrd.eq_swap]
    rw [heq]
    infer_instance

/-! ### All keys -/

namespace Task

variable {keys : List SortKey} {today : Date} {l l' : List Task}

instance (keys : List SortKey) (today : Date) : Std.TransCmp (compareBy keys today) := by
  induction keys with
  | nil => exact inferInstanceAs (Std.TransCmp comparePlace)
  | cons k keys ih =>
    exact inferInstanceAs (Std.TransCmp (compareLex (k.compare today) (compareBy keys today)))

def SamePlace (a b : Task) : Prop := a.shard = b.shard ∧ a.id = b.id

lemma SamePlace.symm {a b : Task} (h : SamePlace a b) : SamePlace b a := ⟨h.1.symm, h.2.symm⟩

lemma comparePlace_eq_eq {a b : Task} : comparePlace a b = .eq ↔ SamePlace a b := by
  simp [comparePlace, SamePlace, compareLex, compareOn, Ordering.then_eq_eq]

lemma not_samePlace_of_lt {a b : Task} (h : comparePlace a b = .lt) : ¬SamePlace a b := by
  rw [← comparePlace_eq_eq, h]
  exact fun heq => nomatch heq

lemma samePlace_of_compareBy {a b : Task} (h : compareBy keys today a b = .eq) : SamePlace a b := by
  induction keys with
  | nil => exact comparePlace_eq_eq.1 h
  | cons k keys ih => exact ih (Ordering.then_eq_eq.1 h).2

def Apart (l : List Task) : Prop := l.Pairwise fun a b => ¬SamePlace a b

instance : Std.Symm fun a b : Task => ¬SamePlace a b := ⟨fun _ _ hab hba => hab hba.symm⟩

/-- The list is in the order of the keys, and nothing in it ties. -/
def InOrder (keys : List SortKey) (today : Date) (l : List Task) : Prop :=
  l.Pairwise fun a b => compareBy keys today a b = .lt

lemma Apart.perm (h : Apart l) (hp : l.Perm l') : Apart l' :=
  (hp.pairwise_iff fun {a b} => Std.Symm.symm a b).1 h

lemma sortBy_perm (keys : List SortKey) (today : Date) (l : List Task) :
    (sortBy keys today l).Perm l := List.mergeSort_perm l _

lemma inOrder_sortBy (keys : List SortKey) (today : Date) (h : Apart l) :
    InOrder keys today (sortBy keys today l) := by
  have htotal : ∀ a b, ((compareBy keys today a b).isLE || (compareBy keys today b a).isLE) = true := by
    intro a b
    have hswap : compareBy keys today a b = (compareBy keys today b a).swap := Std.OrientedCmp.eq_swap
    rw [hswap]
    cases compareBy keys today b a <;> rfl
  have hsorted : (sortBy keys today l).Pairwise fun a b => (compareBy keys today a b).isLE = true :=
    List.pairwise_mergeSort (fun _ _ _ => Std.TransCmp.isLE_trans) htotal l
  refine (hsorted.and (h.perm (sortBy_perm keys today l).symm)).imp ?_
  rintro a b ⟨hle, hne⟩
  rcases Ordering.isLE_iff_eq_lt_or_eq_eq.1 hle with hlt | htie
  · exact hlt
  · exact absurd (samePlace_of_compareBy htie) hne

/-- A list in which nothing ties is put in order in one way only. -/
lemma InOrder.eq_of_perm (h : InOrder keys today l) (h' : InOrder keys today l') (hp : l.Perm l') :
    l = l' := by
  refine hp.eq_of_pairwise (fun a b _ _ hab hba => ?_) h h'
  exact absurd hba (Std.OrientedCmp.not_lt_of_lt hab)

lemma sortBy_eq_of_perm (h : Apart l) (hp : l.Perm l') :
    sortBy keys today l = sortBy keys today l' :=
  (inOrder_sortBy keys today h).eq_of_perm (inOrder_sortBy keys today (h.perm hp))
    (((sortBy_perm keys today l).trans hp).trans (sortBy_perm keys today l').symm)

end Task

/-! ### The page of the matches -/

lemma Page.ofMatches_nil (spec : PageSpec) (today : Date) : Page.ofMatches spec today [] = ⟨[], 0⟩ := by
  simp [Page.ofMatches, Page.cut, Task.sortBy]

lemma Page.mem_of_mem_ofMatches {spec : PageSpec} {today : Date} {matched : List Task} {t : Task}
    (h : t ∈ (Page.ofMatches spec today matched).tasks) : t ∈ matched :=
  (Task.sortBy_perm _ _ _).mem_iff.1 (List.mem_of_mem_drop (List.mem_of_mem_take h))

end TaskIndex
