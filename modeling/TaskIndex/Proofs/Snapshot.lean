import Mathlib.Data.List.Induction
import TaskIndex.Proofs.Store
import TaskIndex.Snapshot

/-!
A snapshot as the last of its records.

Tasks are put into a store in the order in which the snapshot lists them, each instead of an earlier one
of its shard and id. So the store has the records that no later record of the list replaces.
-/

namespace TaskIndex

instance (t u : Task) : Decidable (t.SamePlace u) := inferInstanceAs (Decidable (_ ∧ _))

namespace Task

/-- The records of a list that have no later one of their shard and id. -/
def latest : List Task → List Task
  | [] => []
  | t :: ts => if ∃ u ∈ ts, u.SamePlace t then latest ts else t :: latest ts

variable {t u : Task} {ts : List Task}

lemma latest_sublist (ts : List Task) : (latest ts).Sublist ts := by
  induction ts with
  | nil => exact .refl _
  | cons t ts ih =>
    rw [latest]
    split
    · exact ih.cons t
    · exact ih.cons_cons t

lemma apart_latest (ts : List Task) : Apart (latest ts) := by
  induction ts with
  | nil => exact List.Pairwise.nil
  | cons t ts ih =>
    rw [latest]
    split
    · exact ih
    · next hlast =>
      refine List.pairwise_cons.2 ⟨fun u hu hplace => hlast ⟨u, ?_, hplace.symm⟩, ih⟩
      exact (latest_sublist ts).subset hu

lemma Apart.nodup (h : Apart ts) : ts.Nodup := by
  refine h.imp ?_
  rintro t _ hne rfl
  exact hne ⟨rfl, rfl⟩

/-- One more record at the end replaces the one of its shard and id. -/
lemma mem_latest_concat : t ∈ latest (ts ++ [u]) ↔ t = u ∨ (t ∈ latest ts ∧ ¬t.SamePlace u) := by
  induction ts with
  | nil => simp [latest]
  | cons v ts ih =>
    have hmore : (∃ w ∈ ts ++ [u], w.SamePlace v) ↔ (∃ w ∈ ts, w.SamePlace v) ∨ u.SamePlace v := by
      simp [or_and_right, exists_or]
    rw [List.cons_append, latest, latest]
    by_cases hthere : ∃ w ∈ ts, w.SamePlace v
    · -- the record is replaced before the end
      rw [if_pos (hmore.2 (.inl hthere)), if_pos hthere, ih]
    · rw [if_neg hthere]
      by_cases hhere : u.SamePlace v
      · rw [if_pos (hmore.2 (.inr hhere)), ih, List.mem_cons]
        refine or_congr_right ⟨fun h => ⟨.inr h.1, h.2⟩, fun h => ⟨h.1.resolve_left ?_, h.2⟩⟩
        rintro rfl
        exact h.2 hhere.symm
      · rw [if_neg (mt hmore.1 (not_or.2 ⟨hthere, hhere⟩)), List.mem_cons, ih, List.mem_cons, or_left_comm]
        refine or_congr_right ⟨?_, ?_⟩
        · rintro (rfl | h)
          · exact ⟨.inl rfl, fun hplace => hhere hplace.symm⟩
          · exact ⟨.inr h.1, h.2⟩
        · rintro ⟨rfl | h, hplace⟩
          · exact .inl rfl
          · exact .inr ⟨h, hplace⟩

end Task

/-- The store of a list has the records of the list that are not replaced. -/
lemma Store.mem_ofTasks {t : Task} {ts : List Task} : t ∈ (Store.ofTasks ts).tasks ↔ t ∈ Task.latest ts := by
  induction ts using List.reverseRecOn with
  | nil => exact Iff.rfl
  | append_singleton ts u ih =>
    rw [Task.mem_latest_concat, ← ih, Store.ofTasks, List.foldl_concat]
    exact Store.mem_place (Store.ofTasks ts).ascending

end TaskIndex
