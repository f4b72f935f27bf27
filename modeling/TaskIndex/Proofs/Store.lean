import Mathlib.Data.List.Pairwise
import TaskIndex.Proofs.Query.Order
import TaskIndex.Store

/-!
The store as a map from shard and id to a task.

No two stored tasks are of the same shard and id, so a look finds the one that is there, and putting a
task in changes what is found at its own shard and id alone.
-/

namespace TaskIndex.Store

variable {s : Store} {t u : Task} {shard : ShardKey} {id : TaskId}

lemma apart (s : Store) : Task.Apart s.tasks := s.ascending.imp Task.not_samePlace_of_lt

lemma eq_of_samePlace (ht : t ∈ s.tasks) (hu : u ∈ s.tasks) (h : t.SamePlace u) : t = u := by
  by_contra hne
  exact List.Pairwise.forall s.apart ht hu hne h

lemma get?_eq_some_iff : s.get? shard id = some t ↔ t ∈ s.tasks ∧ t.shard = shard ∧ t.id = id := by
  constructor
  · intro h
    refine ⟨List.mem_of_find?_eq_some h, ?_⟩
    simpa using List.find?_some h
  · rintro ⟨ht, rfl, rfl⟩
    cases hfind : s.get? t.shard t.id with
    | none => simpa using List.find?_eq_none.1 hfind t ht
    | some u =>
      have hplace : u.SamePlace t := by simpa [Task.SamePlace] using List.find?_some hfind
      rw [eq_of_samePlace (List.mem_of_find?_eq_some hfind) ht hplace]

lemma mem_place {l : List Task} (h : l.Pairwise fun a b => Task.comparePlace a b = .lt) :
    u ∈ place t l ↔ u = t ∨ (u ∈ l ∧ ¬u.SamePlace t) := by
  induction l with
  | nil => simp [place]
  | cons v l ih =>
    obtain ⟨hv, hl⟩ := List.pairwise_cons.1 h
    simp only [place]
    split
    next hlt =>
      -- everything behind `t` is beyond it, so nothing is at its place
      have hbeyond : ∀ w ∈ v :: l, ¬w.SamePlace t := by
        intro w hw hplace
        refine Task.not_samePlace_of_lt ?_ hplace.symm
        rcases List.mem_cons.1 hw with rfl | hw
        · exact hlt
        · exact Std.TransCmp.lt_trans hlt (hv w hw)
      rw [List.mem_cons]
      exact or_congr_right ⟨fun hu => ⟨hu, hbeyond u hu⟩, And.left⟩
    next heq =>
      have hbeyond : ∀ w ∈ l, ¬w.SamePlace t := fun w hw hplace =>
        Task.not_samePlace_of_lt (Std.TransCmp.lt_of_eq_of_lt heq (hv w hw)) hplace.symm
      rw [List.mem_cons]
      refine or_congr_right ⟨fun hu => ⟨List.mem_cons_of_mem v hu, hbeyond u hu⟩, fun hu => ?_⟩
      rcases List.mem_cons.1 hu.1 with rfl | hmem
      · exact absurd (Task.comparePlace_eq_eq.1 heq).symm hu.2
      · exact hmem
    next hgt =>
      have hv' : ¬v.SamePlace t := Task.not_samePlace_of_lt (Std.OrientedCmp.lt_of_gt hgt)
      rw [List.mem_cons, ih hl, List.mem_cons]
      grind

lemma get?_insert : (s.insert t).get? shard id =
    if t.shard = shard ∧ t.id = id then some t else s.get? shard id := by
  refine Option.ext fun u => ?_
  rw [get?_eq_some_iff, insert, mem_place s.ascending]
  split
  · next h => grind [Task.SamePlace]
  · next h => grind [Task.SamePlace, get?_eq_some_iff]

lemma mem_live : t ∈ s.live shard ↔ s.get? shard t.id = some t ∧ t.archived = false := by
  rw [get?_eq_some_iff]
  simp [live, and_assoc]

end TaskIndex.Store
