import TaskIndex.Proofs.Query.Order

/-!
Pages tile the answer.

A page is a slice of the one ordered list of the matches, so pages of one length that begin where the one
before has ended give the list back, piece by piece. The list is the same however the matches came in,
which is what lets pages be asked for one by one.
-/

namespace TaskIndex.Page

variable {keys : List SortKey} {today : Date} {l : List Task} {length : Nat}

/-- The page with a number, where every page is of one length and the first has number zero. -/
def numbered (keys : List SortKey) (today : Date) (length : Nat) (matched : List Task) (k : Nat) : Page :=
  ofMatches ⟨k * length, length, keys⟩ today matched

/-- How many pages of a length hold that many tasks. -/
def count (length total : Nat) : Nat := (total + length - 1) / length

lemma count_le_iff (hlength : 1 ≤ length) {total k : Nat} :
    count length total ≤ k ↔ total ≤ k * length := by
  rw [count, Nat.div_le_iff_le_mul_add_pred hlength, Nat.mul_comm length k]
  omega

lemma total_numbered (k : Nat) : (numbered keys today length l k).total = l.length :=
  (Task.sortBy_perm keys today l).length_eq

lemma tasks_numbered_eq_nil_iff (hlength : 1 ≤ length) {k : Nat} :
    (numbered keys today length l k).tasks = [] ↔ count length l.length ≤ k := by
  have hsorted : (Task.sortBy keys today l).length = l.length := (Task.sortBy_perm keys today l).length_eq
  rw [count_le_iff hlength, numbered, ofMatches, cut, List.take_eq_nil_iff, List.drop_eq_nil_iff, hsorted]
  exact or_iff_right (Nat.ne_of_gt hlength)

/-- The first pages make up the front of the ordered list. -/
lemma flatMap_numbered (n : Nat) :
    ((List.range n).flatMap fun k => (numbered keys today length l k).tasks) =
      (Task.sortBy keys today l).take (n * length) := by
  induction n with
  | zero => simp
  | succ n ih =>
    rw [List.range_succ, List.flatMap_append, ih, Nat.succ_mul, List.take_add, List.flatMap_singleton]
    rfl

/-- **Pages tile one order**: whatever the keys are, and on every day, comparing two tasks the other way
round gives the opposite outcome, what is not above something that is not above a third is not above the
third, and only tasks of the same shard and id tie. So tasks that are pairwise of another shard or id have
one ordered list, however they come in, and the pages of any one length from the first to the last that has
a task are that list cut into pieces; every page, past the end too, tells the same total. -/
theorem pages_tile (keys : List SortKey) (today : Date) :
    (∀ a b, Task.compareBy keys today a b = (Task.compareBy keys today b a).swap) ∧
    (∀ a b c, (Task.compareBy keys today a b).isLE = true → (Task.compareBy keys today b c).isLE = true →
      (Task.compareBy keys today a c).isLE = true) ∧
    (∀ a b, Task.compareBy keys today a b = .eq → a.shard = b.shard ∧ a.id = b.id) ∧
    ∀ l : List Task, (l.Pairwise fun a b => ¬(a.shard = b.shard ∧ a.id = b.id)) →
      (Task.sortBy keys today l).Perm l ∧
      ((Task.sortBy keys today l).Pairwise fun a b => Task.compareBy keys today a b = .lt) ∧
      (∀ l', l'.Perm l → Task.sortBy keys today l' = Task.sortBy keys today l) ∧
      ∀ length, 1 ≤ length →
        ((List.range (count length l.length)).flatMap fun k => (numbered keys today length l k).tasks) =
          Task.sortBy keys today l ∧
        (∀ k, (numbered keys today length l k).tasks = [] ↔ count length l.length ≤ k) ∧
        ∀ k, (numbered keys today length l k).total = l.length := by
  refine ⟨fun a b => Std.OrientedCmp.eq_swap, fun a b c => Std.TransCmp.isLE_trans,
    fun a b => Task.samePlace_of_compareBy, fun l hl => ?_⟩
  have hapart : Task.Apart l := hl
  refine ⟨Task.sortBy_perm keys today l, Task.inOrder_sortBy keys today hapart, fun l' hl' => ?_,
    fun length hlength => ⟨?_, fun k => tasks_numbered_eq_nil_iff hlength, total_numbered⟩⟩
  · exact (Task.sortBy_eq_of_perm hapart hl'.symm).symm
  · have hall : (Task.sortBy keys today l).length ≤ count length l.length * length := by
      rw [(Task.sortBy_perm keys today l).length_eq]
      exact (count_le_iff hlength).1 (Nat.le_refl _)
    rw [flatMap_numbered, List.take_of_length_le hall]

/-- Three tasks by falling area in pages of two: what the area does not tell apart goes by the id. -/
theorem pages_tile_by_area :
    let today : Date := ⟨2026, 3, 1, by decide⟩
    let cedar : ShardKey := ⟨"cedar", by decide, by decide⟩
    let task (id : TaskId) (area : String) : Task := { Task.fresh cedar id today with area }
    let l := [task 7 "", task 3 "lexer", task 5 ""]
    let keys : List SortKey := [⟨.area, .desc⟩, ⟨.watcher, .asc⟩]
    (l.Pairwise fun a b => ¬(a.shard = b.shard ∧ a.id = b.id)) ∧
    (numbered keys today 2 l 0).tasks ++ (numbered keys today 2 l 1).tasks = Task.sortBy keys today l ∧
    (numbered keys today 2 l 2).tasks = [] := by
  intro today cedar task l keys
  have hl : l.Pairwise fun a b => ¬(a.shard = b.shard ∧ a.id = b.id) := by
    simp [l, task, Task.fresh]
  have hcount : count 2 l.length = 2 := by simp [count, l]
  obtain ⟨htile, hempty, -⟩ := ((pages_tile keys today).2.2.2 l hl).2.2.2 2 (by decide)
  rw [hcount] at htile hempty
  refine ⟨hl, ?_, (hempty 2).2 (Nat.le_refl 2)⟩
  rw [← htile]
  simp [List.range_succ]

end TaskIndex.Page
