/-!
Finite sets kept as ascending lists without repetition.

Two sets with the same members are equal, because an ascending list is determined by its members;
so a set can be compared, written and read back as the list that it is.
-/

namespace TaskIndex

/-- A finite set, listed in ascending order. -/
structure SortedSet (α : Type) [Ord α] where
  toList : List α
  ascending : toList.Pairwise fun a b => compare a b = .lt

namespace SortedSet

variable {α : Type} [Ord α]

instance [DecidableEq α] : DecidableEq (SortedSet α) := fun s t =>
  decidable_of_iff (s.toList = t.toList) ⟨fun h => by cases s; cases t; simp_all, fun h => h ▸ rfl⟩

instance : Membership α (SortedSet α) := ⟨fun s a => a ∈ s.toList⟩

instance [DecidableEq α] (a : α) (s : SortedSet α) : Decidable (a ∈ s) :=
  inferInstanceAs (Decidable (a ∈ s.toList))

theorem mem_def {a : α} {s : SortedSet α} : a ∈ s ↔ a ∈ s.toList := Iff.rfl

instance : EmptyCollection (SortedSet α) := ⟨⟨[], List.Pairwise.nil⟩⟩

instance : Inhabited (SortedSet α) := ⟨∅⟩

def size (s : SortedSet α) : Nat := s.toList.length

def single (a : α) : SortedSet α := ⟨[a], List.pairwise_singleton _ a⟩

def filter (p : α → Bool) (s : SortedSet α) : SortedSet α :=
  ⟨s.toList.filter p, s.ascending.filter _⟩

/-- Puts `a` at its place in an ascending list that does not hold it yet. -/
def place (a : α) : List α → List α
  | [] => [a]
  | b :: l =>
    match compare a b with
    | .lt => a :: b :: l
    | .eq => b :: l
    | .gt => b :: place a l

theorem mem_of_mem_place {a c : α} {l : List α} (h : c ∈ place a l) : c = a ∨ c ∈ l := by
  induction l with
  | nil => simpa [place] using h
  | cons b l ih =>
    simp only [place] at h
    split at h
    · simpa using h
    · exact .inr h
    · rcases List.mem_cons.1 h with h | h
      · exact .inr (h ▸ List.mem_cons_self)
      · exact (ih h).imp_right (List.mem_cons_of_mem _)

theorem pairwise_place [Std.TransOrd α] (a : α) {l : List α}
    (h : l.Pairwise fun a b => compare a b = .lt) :
    (place a l).Pairwise fun a b => compare a b = .lt := by
  induction l with
  | nil => exact List.pairwise_singleton _ a
  | cons b l ih =>
    obtain ⟨hb, hl⟩ := List.pairwise_cons.1 h
    simp only [place]
    split
    next hab =>
      refine List.pairwise_cons.2 ⟨fun c hc => ?_, h⟩
      rcases List.mem_cons.1 hc with rfl | hc
      · exact hab
      · exact Std.TransCmp.lt_trans hab (hb c hc)
    next => exact h
    next hab =>
      refine List.pairwise_cons.2 ⟨fun c hc => ?_, ih hl⟩
      rcases mem_of_mem_place hc with rfl | hc
      · exact Std.OrientedCmp.lt_of_gt hab
      · exact hb c hc

variable [Std.TransOrd α]

/-- The set with `a` as a further member. -/
def insert (a : α) (s : SortedSet α) : SortedSet α :=
  ⟨place a s.toList, pairwise_place a s.ascending⟩

/-- The set with every element of a list as a further member. -/
def insertAll (s : SortedSet α) (l : List α) : SortedSet α :=
  l.foldl (fun s a => s.insert a) s

def ofList (l : List α) : SortedSet α := insertAll ∅ l

def union (s t : SortedSet α) : SortedSet α := s.insertAll t.toList

def inter [DecidableEq α] (s t : SortedSet α) : SortedSet α := s.filter (· ∈ t)

def diff [DecidableEq α] (s t : SortedSet α) : SortedSet α := s.filter (· ∉ t)

end SortedSet

end TaskIndex
