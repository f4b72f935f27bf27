import Mathlib.Data.List.Nodup
import TaskIndex.SortedSet

/-!
Membership in sets that are kept as ascending lists.
-/

namespace TaskIndex.SortedSet

variable {α : Type} [Ord α]

lemma nodup [Std.ReflOrd α] (s : SortedSet α) : s.toList.Nodup := by
  refine s.ascending.imp ?_
  rintro a b hlt rfl
  simp at hlt

lemma mem_filter {p : α → Bool} {s : SortedSet α} {a : α} : a ∈ s.filter p ↔ a ∈ s ∧ p a = true := by
  simp [filter, mem_def]

lemma mem_diff [DecidableEq α] {s t : SortedSet α} {a : α} : a ∈ s.diff t ↔ a ∈ s ∧ a ∉ t := by
  simp [diff, mem_filter]

@[simp] lemma mem_single {a b : α} : b ∈ single a ↔ b = a := by
  simp [single, mem_def]

lemma mem_inter [DecidableEq α] {s t : SortedSet α} {a : α} : a ∈ s.inter t ↔ a ∈ s ∧ a ∈ t := by
  simp [inter, mem_filter]

lemma mem_foldl_inter [DecidableEq α] {s : SortedSet α} {sets : List (SortedSet α)} {a : α} :
    a ∈ sets.foldl inter s ↔ ∀ t ∈ s :: sets, a ∈ t := by
  induction sets generalizing s with
  | nil => simp
  | cons t sets ih => simp [ih, mem_inter, and_assoc]

lemma eq_of_mem_iff [Std.OrientedOrd α] {s t : SortedSet α} (h : ∀ a, a ∈ s ↔ a ∈ t) : s = t := by
  obtain ⟨l, hl⟩ := s
  obtain ⟨l', hl'⟩ := t
  have hperm : l.Perm l' := (List.perm_ext_iff_of_nodup (nodup ⟨l, hl⟩) (nodup ⟨l', hl'⟩)).2 h
  have heq : l = l' := by
    refine hperm.eq_of_pairwise (fun a b _ _ hab hba => ?_) hl hl'
    exact absurd hba (Std.OrientedCmp.not_lt_of_lt hab)
  subst heq
  rfl

/-! ### Putting members in -/

lemma mem_place [Std.LawfulEqOrd α] {a b : α} {l : List α} : b ∈ place a l ↔ b = a ∨ b ∈ l := by
  refine ⟨mem_of_mem_place, fun h => ?_⟩
  induction l with
  | nil => simpa [place] using h
  | cons c l ih =>
    simp only [place]
    split
    · simpa using h
    · next heq =>
      rw [Std.LawfulEqOrd.eq_of_compare heq] at h
      simpa using h
    · rcases h with rfl | h
      · exact List.mem_cons_of_mem c (ih (.inl rfl))
      · rcases List.mem_cons.1 h with rfl | h
        · exact List.mem_cons_self
        · exact List.mem_cons_of_mem c (ih (.inr h))

variable [Std.TransOrd α] [Std.LawfulEqOrd α]

lemma mem_insertAll {s : SortedSet α} {l : List α} {a : α} : a ∈ s.insertAll l ↔ a ∈ s ∨ a ∈ l := by
  induction l generalizing s with
  | nil => simp [insertAll]
  | cons b l ih =>
    have hstep : a ∈ s.insert b ↔ a = b ∨ a ∈ s := mem_place
    rw [show s.insertAll (b :: l) = (s.insert b).insertAll l from rfl, ih, hstep, List.mem_cons]
    grind

@[simp] lemma mem_ofList {l : List α} {a : α} : a ∈ ofList l ↔ a ∈ l := by
  rw [ofList, mem_insertAll]
  exact ⟨fun h => h.resolve_left List.not_mem_nil, .inr⟩

lemma mem_union {s t : SortedSet α} {a : α} : a ∈ s.union t ↔ a ∈ s ∨ a ∈ t := mem_insertAll

lemma mem_foldl_union {s : SortedSet α} {sets : List (SortedSet α)} {a : α} :
    a ∈ sets.foldl union s ↔ a ∈ s ∨ ∃ t ∈ sets, a ∈ t := by
  induction sets generalizing s with
  | nil => simp
  | cons t sets ih =>
    rw [List.foldl_cons, ih, mem_union, or_assoc]
    simp

lemma toList_ofList_perm {l : List α} (h : l.Nodup) : (ofList l).toList.Perm l :=
  (List.perm_ext_iff_of_nodup (ofList l).nodup h).2 fun _ => mem_ofList

@[simp] lemma ofList_toList (s : SortedSet α) : ofList s.toList = s :=
  eq_of_mem_iff fun _ => mem_ofList

end TaskIndex.SortedSet
