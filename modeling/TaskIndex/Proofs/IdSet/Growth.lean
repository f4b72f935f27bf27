import TaskIndex.Proofs.IdSet.Calls

/-!
How many slots a set of ids takes.

An id that is larger than all before it takes a new slot, and any other takes a hole if there is one. So as
long as no id comes that is larger than all before, a set that is as full as it ever was has no holes, and
churn takes no more slots than there were members at one time. Since an id is larger than all before only
once, no run takes more slots than it has put in different ids.
-/

namespace TaskIndex.IdSet

namespace Call

def puts : Call → List TaskId
  | init id => [id]
  | add id => if id = 0 then [] else [id]
  | remove _ | contains _ => []

def allPut (cs : List Call) : List TaskId := cs.flatMap puts

/-- The largest id that a run has put in, and zero if there is none. -/
def largestPut (cs : List Call) : TaskId := (allPut cs).foldr max 0

def IsSingle : Call → Prop
  | init _ => False
  | add _ | remove _ | contains _ => True

/-- The most members that the plain set has at one time of a run. -/
def peak : Finset TaskId → List Call → Nat
  | S, [] => S.card
  | S, c :: cs => max S.card (peak (c.onSet S).1 cs)

lemma IsSingle.allowed {S : Finset TaskId} {c : Call} (h : c.IsSingle) : c.Allowed S := by
  cases c with
  | init id => exact h.elim
  | _ => trivial

lemma card_le_peak (S : Finset TaskId) (cs : List Call) : S.card ≤ peak S cs := by
  cases cs with
  | nil => exact Nat.le_refl _
  | cons c cs => exact Nat.le_max_left ..

lemma onSet_subset (S : Finset TaskId) (c : Call) : (c.onSet S).1 ⊆ S ∪ c.puts.toFinset := by
  intro x hx
  cases c with
  | init id => simpa [onSet, puts, or_comm] using hx
  | add id =>
    by_cases hid : id = 0
    · simpa [onSet, puts, hid] using hx
    · simpa [onSet, puts, hid, or_comm] using hx
  | remove id => exact Finset.mem_union_left _ (Finset.mem_of_mem_erase hx)
  | contains id => exact Finset.mem_union_left _ hx

end Call

variable {s : IdSet} {S : Finset TaskId} {c : Call} {cs : List Call} {id x : TaskId}

/-! ### The largest id -/

lemma max_eq (a b : TaskId) : max a b = if a ≤ b then b else a := rfl

lemma Call.largestPut_le {bound : TaskId} (h : ∀ x ∈ Call.allPut cs, x ≤ bound) :
    Call.largestPut cs ≤ bound := by
  unfold Call.largestPut
  generalize Call.allPut cs = ids at h
  induction ids with
  | nil => exact UInt16.zero_le
  | cons y ys ih =>
    rw [List.forall_mem_cons] at h
    rw [List.foldr_cons, max_eq]
    split
    · exact ih h.2
    · exact h.1

lemma largest_add (s : IdSet) (id : TaskId) : (s.add id).1.largest = max s.largest id := by
  unfold add
  rw [max_eq]
  split
  · grind
  · split
    · rfl
    · split
      · simp only
        grind
      · split
        · simp only
          grind
        · rfl

lemma largest_remove (s : IdSet) (id : TaskId) : (s.remove id).1.largest = s.largest := by
  unfold remove
  split <;> rfl

/-- A call lowers the largest id never, and raises it to every id that it puts in. -/
lemma largest_call (s : IdSet) (c : Call) :
    s.largest ≤ (s.call c).1.largest ∧ ∀ x ∈ c.puts, x ≤ (s.call c).1.largest := by
  cases c with
  | init id =>
    have hmax : (s.init id).largest = max s.largest id := rfl
    simp only [call, Call.puts, List.mem_singleton, forall_eq, hmax, max_eq]
    grind
  | add id =>
    simp only [call, Call.puts, largest_add, max_eq]
    grind
  | remove id =>
    simp only [call, largest_remove]
    exact ⟨UInt16.le_refl _, fun x hx => absurd hx List.not_mem_nil⟩
  | contains id => exact ⟨UInt16.le_refl _, fun x hx => absurd hx List.not_mem_nil⟩

lemma largest_run (s : IdSet) (cs : List Call) :
    s.largest ≤ (s.run cs).1.largest ∧ ∀ x ∈ Call.allPut cs, x ≤ (s.run cs).1.largest := by
  induction cs generalizing s with
  | nil => exact ⟨UInt16.le_refl _, fun x hx => absurd hx List.not_mem_nil⟩
  | cons c cs ih =>
    obtain ⟨hcall, hputs⟩ := largest_call s c
    obtain ⟨hrun, hall⟩ := ih (s.call c).1
    refine ⟨UInt16.le_trans hcall hrun, fun x hx => ?_⟩
    rw [Call.allPut, List.flatMap_cons, List.mem_append] at hx
    rcases hx with hx | hx
    · exact UInt16.le_trans (hputs x hx) hrun
    · exact hall x hx

/-! ### One call -/

lemma slotCount_append (s : IdSet) (id : TaskId) : (s.append id).slotCount = s.slotCount + 1 :=
  Array.size_push ..

lemma size_append (s : IdSet) (id : TaskId) : (s.append id).size = s.size + 1 := rfl

lemma slotCount_remove (s : IdSet) (id : TaskId) : (s.remove id).1.slotCount = s.slotCount := by
  unfold remove
  split
  · rfl
  · exact Array.size_setIfInBounds

lemma slotCount_add_of_lt (h : s.largest < id) : (s.add id).1.slotCount = s.slotCount + 1 := by
  have hid : id ≠ 0 := by
    rintro rfl
    exact UInt16.not_lt_zero h
  rw [add, if_neg hid, if_pos h]
  exact slotCount_append s id

namespace Sound

lemma size_le_slotCount (h : s.Sound) : s.size ≤ s.slotCount := by
  rw [h.slotCount_eq]
  exact Nat.le_add_right ..

lemma gaps_eq_zero (h : s.Sound) (hnone : s.holeToFill? = none) : s.gaps = 0 := by
  unfold holeToFill? at hnone
  split at hnone
  · cases hnone
  · by_contra hgaps
    rw [if_pos (Nat.pos_of_ne_zero hgaps), Array.idxOf?_eq_none_iff] at hnone
    rw [h.gaps] at hgaps
    exact hnone (by simpa using List.count_pos_iff.1 (Nat.pos_of_ne_zero hgaps))

/-- An id that is not larger than all before takes a new slot only if every slot has a member, and then
there are more members than there were slots. -/
lemma slotCount_add_of_le (h : s.Sound) (hle : id ≤ s.largest) :
    (s.add id).1.slotCount = max s.slotCount (s.add id).1.size := by
  have hsize : s.size ≤ s.slotCount := h.size_le_slotCount
  unfold IdSet.add
  split
  · exact (Nat.max_eq_left hsize).symm
  · rw [if_neg (by grind)]
    split
    · exact (Nat.max_eq_left hsize).symm
    · split
      · next slot hslot =>
        -- a hole is filled, so there was one to spare
        have hgaps : 0 < s.slots.toList.count 0 :=
          List.count_pos_iff.2 (by simpa using Array.mem_of_getElem? (get?_of_holeToFill? hslot))
        have hslots := h.slotCount_eq
        rw [← h.gaps] at hgaps
        have hsame : (s.slots.setIfInBounds slot id).size = s.slots.size := Array.size_setIfInBounds
        simp only [slotCount, size] at hslots hsame ⊢
        omega
      · next hnone =>
        have hfull := h.slotCount_eq
        rw [h.gaps_eq_zero hnone] at hfull
        rw [slotCount_append, size_append]
        simp only [slotCount, size] at hfull ⊢
        omega

end Sound

namespace Stands

lemma size_eq (h : Stands s S) : s.size = S.card := by
  rw [h.card_eq]
  exact h.sound.live

lemma size_le_slotCount (h : Stands s S) : S.card ≤ s.slotCount :=
  h.size_eq ▸ h.sound.size_le_slotCount

/-- A call that puts in no id larger than all before leaves as many slots as there were, or as many as there
are members now. -/
lemma slotCount_call (h : Stands s S) (hc : c.IsSingle) (hle : ∀ x ∈ c.puts, x ≤ s.largest) :
    (s.call c).1.slotCount = max s.slotCount (c.onSet S).1.card := by
  have hslots := h.size_le_slotCount
  cases c with
  | init id => exact hc.elim
  | add id =>
    have hid : id ≤ s.largest := by
      by_cases hzero : id = 0
      · exact hzero ▸ UInt16.zero_le
      · exact hle id (by simp [Call.puts, hzero])
    have hstands := (h.call hc.allowed).1
    rw [← hstands.size_eq]
    exact h.sound.slotCount_add_of_le hid
  | remove id =>
    have hcard : (S.erase id).card ≤ S.card := Finset.card_erase_le
    simp only [IdSet.call, Call.onSet, slotCount_remove]
    omega
  | contains id =>
    simp only [IdSet.call, Call.onSet]
    omega

lemma slotCount_run (h : Stands s S) (hcs : ∀ c ∈ cs, c.IsSingle)
    (hle : ∀ x ∈ Call.allPut cs, x ≤ s.largest) :
    (s.run cs).1.slotCount = max s.slotCount (Call.peak S cs) := by
  induction cs generalizing s S with
  | nil => exact (Nat.max_eq_left h.size_le_slotCount).symm
  | cons c cs ih =>
    obtain ⟨hc, hcs⟩ := List.forall_mem_cons.1 hcs
    rw [Call.allPut, List.flatMap_cons, List.forall_mem_append] at hle
    have hgrown := (largest_call s c).1
    have hrest := ih (h.call hc.allowed).1 hcs fun x hx => UInt16.le_trans (hle.2 x hx) hgrown
    rw [h.slotCount_call hc hle.1] at hrest
    have hslots := h.size_le_slotCount
    have hpeak := Call.card_le_peak (c.onSet S).1 cs
    simp only [IdSet.run, Call.peak]
    omega

end Stands

/-! ### A run from the empty set -/

/-- There are no more slots than different ids were put in, and the set knows the largest of them. -/
structure Earned (s : IdSet) (S ids : Finset TaskId) : Prop where
  stands : Stands s S
  subset : S ⊆ ids
  le_largest : ∀ x ∈ ids, x ≤ s.largest
  slots : s.slotCount ≤ ids.card

lemma earned_empty : Earned ∅ ∅ ∅ where
  stands := stands_empty
  subset := Finset.Subset.refl _
  le_largest := by simp
  slots := Nat.le_refl _

namespace Earned

variable {ids : Finset TaskId}

lemma slotCount_call (h : Earned s S ids) (hc : c.IsSingle) :
    (s.call c).1.slotCount ≤ (ids ∪ c.puts.toFinset).card := by
  have hids : ids.card ≤ (ids ∪ c.puts.toFinset).card := Finset.card_le_card Finset.subset_union_left
  by_cases hle : ∀ x ∈ c.puts, x ≤ s.largest
  · have hmembers : (c.onSet S).1.card ≤ (ids ∪ c.puts.toFinset).card := Finset.card_le_card
      ((c.onSet_subset S).trans (Finset.union_subset_union_left h.subset))
    have hslots := h.slots
    rw [h.stands.slotCount_call hc hle]
    omega
  · -- a new slot is taken, by an id that was not put in before
    obtain ⟨x, hx, hlt⟩ : ∃ x ∈ c.puts, s.largest < x := by simpa using hle
    cases c with
    | init id => exact hc.elim
    | add id =>
      obtain ⟨hid, rfl⟩ : id ≠ 0 ∧ x = id := by simpa [Call.puts] using hx
      have hnew : x ∉ ids := fun hold => UInt16.not_lt.2 (h.le_largest x hold) hlt
      have hunion : ids ∪ (Call.add x).puts.toFinset = insert x ids := by
        rw [Call.puts, if_neg hid, List.toFinset_cons, List.toFinset_nil, insert_empty_eq, Finset.union_comm,
          Finset.insert_eq]
      rw [hunion, Finset.card_insert_of_notMem hnew]
      have hslot : ((s.call (.add x)).1).slotCount = s.slotCount + 1 := slotCount_add_of_lt hlt
      have hslots := h.slots
      omega
    | remove id => exact absurd hx List.not_mem_nil
    | contains id => exact absurd hx List.not_mem_nil

lemma call (h : Earned s S ids) (hc : c.IsSingle) :
    Earned (s.call c).1 (c.onSet S).1 (ids ∪ c.puts.toFinset) where
  stands := (h.stands.call hc.allowed).1
  subset := (c.onSet_subset S).trans (Finset.union_subset_union_left h.subset)
  le_largest x hx := by
    obtain ⟨hgrown, hputs⟩ := largest_call s c
    rcases Finset.mem_union.1 hx with hold | hnew
    · exact UInt16.le_trans (h.le_largest x hold) hgrown
    · exact hputs x (List.mem_toFinset.1 hnew)
  slots := h.slotCount_call hc

lemma run (h : Earned s S ids) (hcs : ∀ c ∈ cs, c.IsSingle) :
    Earned (s.run cs).1 (Call.runOnSet S cs).1 (ids ∪ (Call.allPut cs).toFinset) := by
  induction cs generalizing s S ids with
  | nil => simpa [Call.allPut, IdSet.run, Call.runOnSet] using h
  | cons c cs ih =>
    obtain ⟨hc, hcs⟩ := List.forall_mem_cons.1 hcs
    have hrest := ih (h.call hc) hcs
    rw [Finset.union_assoc, ← List.toFinset_append] at hrest
    exact hrest

end Earned

/-- **Slots for members at one time**: whatever calls have led to a set, with bulk insertion only for ids
that are no members, removing takes no slot, and adding an id that is not larger than all before leaves as
many slots as there were or as many as there are members then. So a run of additions of such ids and removals
ends with as many slots as there were or as many as there were members at one time of it. And if the set was
made by additions and removals alone, it has no more slots than different ids were added. -/
theorem slots_follow_members (cs : List Call) (h : Call.AllAllowed ∅ cs) :
    let s := (run ∅ cs).1
    let S := (Call.runOnSet ∅ cs).1
    (∀ id, (s.remove id).1.slotCount = s.slotCount) ∧
    (∀ id ≤ Call.largestPut cs, (s.add id).1.slotCount = max s.slotCount (s.add id).1.size) ∧
    (∀ churn : List Call, (∀ c ∈ churn, c.IsSingle) → (∀ x ∈ Call.allPut churn, x ≤ Call.largestPut cs) →
      (s.run churn).1.slotCount = max s.slotCount (Call.peak S churn)) ∧
    ((∀ c ∈ cs, c.IsSingle) → s.slotCount ≤ (Call.allPut cs).toFinset.card) := by
  intro s S
  have hstands : Stands s S := (stands_empty.run h).1
  have hlargest : Call.largestPut cs ≤ s.largest := Call.largestPut_le (largest_run ∅ cs).2
  refine ⟨slotCount_remove s, fun id hid => ?_, fun churn hchurn hle => ?_, fun hcs => ?_⟩
  · exact hstands.sound.slotCount_add_of_le (UInt16.le_trans hid hlargest)
  · exact hstands.slotCount_run hchurn fun x hx => UInt16.le_trans (hle x hx) hlargest
  · simpa using (earned_empty.run hcs).slots

/-- Three slots with one member left, and a churn that has four members at one time. -/
theorem slots_follow_members_refilled :
    let cs : List Call := [.add 3, .add 7, .add 5, .remove 3, .remove 7]
    let churn : List Call := [.add 1, .add 7, .remove 5, .add 4, .add 6, .remove 1]
    Call.AllAllowed ∅ cs ∧ 2 ≤ Call.largestPut cs ∧ (∀ c ∈ churn, c.IsSingle) ∧
      (∀ x ∈ Call.allPut churn, x ≤ Call.largestPut cs) ∧ (∀ c ∈ cs, c.IsSingle) ∧
      ((run ∅ cs).1.add 2).1.slotCount = 3 ∧ ((run ∅ cs).1.run churn).1.slotCount = 4 ∧
      (run ∅ cs).1.slotCount ≤ 3 := by
  intro cs churn
  have h : Call.AllAllowed ∅ cs := by simp [cs, Call.AllAllowed, Call.Allowed]
  have hlargest : Call.largestPut cs = 7 := by decide
  have hput : Call.allPut churn = [1, 7, 4, 6] := by decide
  have hadd : 2 ≤ Call.largestPut cs := by decide
  have hchurn : ∀ c ∈ churn, c.IsSingle := by simp [churn, Call.IsSingle]
  have hle : ∀ x ∈ Call.allPut churn, x ≤ Call.largestPut cs := by simp [hput, hlargest]
  have hcs : ∀ c ∈ cs, c.IsSingle := by simp [cs, Call.IsSingle]
  obtain ⟨-, hone, hrun, hall⟩ := slots_follow_members cs h
  exact ⟨h, hadd, hchurn, hle, hcs, (hone 2 hadd).trans (by decide +kernel),
    (hrun churn hchurn hle).trans (by decide), (hall hcs).trans (by decide)⟩

end TaskIndex.IdSet
