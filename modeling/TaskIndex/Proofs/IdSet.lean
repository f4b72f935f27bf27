import Mathlib.Data.List.Nodup
import TaskIndex.IdSet

/-!
A set of small ids is a mathematical set.

What the counters, the flag and the largest id say about the slots is kept by every change. While it
holds, a search finds exactly the members: halving is only trusted on a miss when the members ascend
and no hole was met. Each change of the slots then puts one id somewhere among the members, or takes
one out from among them.
-/

namespace TaskIndex.IdSet

instance : Membership TaskId IdSet := ⟨fun s id => id ∈ s.toList⟩

lemma mem_def {s : IdSet} {id : TaskId} : id ∈ s ↔ id ∈ s.toList := Iff.rfl

lemma mem_iff_slots {s : IdSet} {id : TaskId} : id ∈ s ↔ id ∈ s.slots.toList ∧ id ≠ 0 := by
  simp [mem_def, toList]

@[simp] lemma not_mem_empty (id : TaskId) : id ∉ (∅ : IdSet) := by
  rw [mem_iff_slots]
  rintro ⟨h, -⟩
  exact List.not_mem_nil h

/-- What the counters, the flag and the largest id say is so. -/
structure Sound (s : IdSet) : Prop where
  live : s.live = s.toList.length
  gaps : s.gaps = s.slots.toList.count 0
  nodup : s.toList.Nodup
  le_largest : ∀ id ∈ s, id ≤ s.largest
  ascending : s.disordered = false → s.toList.Pairwise (· < ·)

lemma sound_empty : (∅ : IdSet).Sound :=
  ⟨rfl, rfl, List.nodup_nil, fun id h => absurd h (not_mem_empty id), fun _ => List.Pairwise.nil⟩

namespace Sound

variable {s : IdSet} {id x : TaskId}

lemma isEmpty_iff (h : s.Sound) : s.isEmpty = true ↔ s.toList = [] := by
  simp [isEmpty, h.live]

lemma not_isEmpty_iff (h : s.Sound) : s.isEmpty = false ↔ ∃ id, id ∈ s := by
  rw [← Bool.not_eq_true, h.isEmpty_iff]
  exact ⟨List.exists_mem_of_ne_nil _, fun ⟨_, hid⟩ => List.ne_nil_of_mem hid⟩

/-! ### Searching -/

lemma slots_ascending (h : s.Sound) (hd : s.disordered = false) {i j : Nat} {a b : TaskId}
    (hij : i < j) (hi : s.slots[i]? = some a) (hj : s.slots[j]? = some b) (ha : a ≠ 0)
    (hb : b ≠ 0) : a < b := by
  have hp := List.pairwise_iff_getElem.1 (List.pairwise_filter.1 (h.ascending hd))
  obtain ⟨hi', rfl⟩ := Array.getElem?_eq_some_iff.1 hi
  obtain ⟨hj', rfl⟩ := Array.getElem?_eq_some_iff.1 hj
  exact hp i j (by simpa using hi') (by simpa using hj') hij (by simpa using ha) (by simpa using hb)

end Sound

lemma get?_of_halve_found {slots : Array TaskId} {id : TaskId} {fuel low high slot : Nat}
    (h : halve slots id fuel low high = .found slot) : slots[slot]? = some id := by
  induction fuel generalizing low high with
  | zero => simp [halve] at h
  | succ fuel ih =>
    simp only [halve] at h
    split at h
    · split at h
      · simp at h
      · next there hthere =>
        split at h
        · next heq => cases h; rw [hthere, heq]
        · split at h
          · simp at h
          · split at h <;> exact ih h
    · simp at h

/-- Halving ascending slots without meeting a hole misses no member between its bounds. -/
lemma Sound.not_found_of_halve {s : IdSet} (hs : s.Sound) (hd : s.disordered = false)
    {id : TaskId} (hid : id ≠ 0) {fuel low high : Nat}
    (h : halve s.slots id fuel low high = .missing) (hhigh : high ≤ s.slots.size)
    (hfuel : high - low ≤ fuel) {i : Nat} (hl : low ≤ i) (hh : i < high) :
    s.slots[i]? ≠ some id := by
  induction fuel generalizing low high with
  | zero => omega
  | succ fuel ih =>
    intro hi
    simp only [halve] at h
    split at h
    · next hlt =>
      have hmid : low + (high - low) / 2 < s.slots.size := by omega
      split at h
      · next hnone => simp only [Array.getElem?_eq_none_iff] at hnone; omega
      · next there hthere =>
        split at h
        · simp at h
        · next hne =>
          split at h
          · simp at h
          · next hz =>
            split at h
            · next hless =>
              -- the id stands right of the middle, since what stands left of it is smaller
              refine ih h hhigh (by omega) ?_ hh hi
              by_contra hle
              rcases Nat.lt_or_ge i (low + (high - low) / 2) with h1 | h1
              · have := hs.slots_ascending hd h1 hi hthere hid hz
                grind
              · have : i = low + (high - low) / 2 := by omega
                grind
            · next hless =>
              refine ih h (by omega) (by omega) hl ?_ hi
              by_contra hle
              rcases Nat.lt_or_ge (low + (high - low) / 2) i with h1 | h1
              · have := hs.slots_ascending hd h1 hthere hi hz hid
                exact hless this
              · have : i = low + (high - low) / 2 := by omega
                grind
    · omega

lemma get?_of_idxOf? {slots : Array TaskId} {id : TaskId} {slot : Nat}
    (h : slots.idxOf? id = some slot) : slots[slot]? = some id := by
  obtain ⟨l⟩ := slots
  rw [List.idxOf?_toArray, List.idxOf?_eq_some_iff] at h
  obtain ⟨hlt, heq, -⟩ := h
  simpa using List.getElem?_eq_some_iff.2 ⟨hlt, heq⟩

lemma get?_of_slotOf? {s : IdSet} {id : TaskId} {slot : Nat} (h : s.slotOf? id = some slot) :
    s.slots[slot]? = some id ∧ id ≠ 0 := by
  unfold slotOf? at h
  split at h
  · simp at h
  · next hb =>
    refine ⟨?_, fun h0 => hb (.inl h0)⟩
    split at h
    · next hf => cases h; exact get?_of_halve_found hf
    · split at h
      · exact get?_of_idxOf? h
      · simp at h
    · exact get?_of_idxOf? h

lemma Sound.not_mem_of_slotOf? {s : IdSet} (hs : s.Sound) {id : TaskId}
    (h : s.slotOf? id = none) : id ∉ s := by
  intro hm
  obtain ⟨hslots, hid⟩ := mem_iff_slots.1 hm
  have hmem : id ∈ s.slots := by simpa using hslots
  have hidx : s.slots.idxOf? id ≠ none := by simpa using hmem
  unfold slotOf? at h
  split at h
  · next hb =>
    rcases hb with h0 | hlt
    · exact hid h0
    · have := hs.le_largest id hm
      grind
  · split at h
    · simp at h
    · next hmiss =>
      split at h
      · exact hidx h
      · next hd =>
        obtain ⟨i, hi, heq⟩ := Array.mem_iff_getElem.1 hmem
        exact hs.not_found_of_halve (by simpa using hd) hid hmiss (Nat.le_refl _) (by omega)
          (Nat.zero_le i) hi (Array.getElem?_eq_some_iff.2 ⟨hi, heq⟩)
    · exact hidx h

/-- **Searching**: a search finds the members and nothing else. -/
theorem Sound.contains_iff {s : IdSet} (hs : s.Sound) (id : TaskId) :
    s.contains id = true ↔ id ∈ s := by
  unfold contains
  constructor
  · intro h
    obtain ⟨slot, hslot⟩ := Option.isSome_iff_exists.1 h
    obtain ⟨hget, hid⟩ := get?_of_slotOf? hslot
    exact mem_iff_slots.2 ⟨by simpa using Array.mem_of_getElem? hget, hid⟩
  · intro h
    cases hslot : s.slotOf? id with
    | none => exact absurd h (hs.not_mem_of_slotOf? hslot)
    | some => rfl

/-! ### Changing -/

/-- What stands before and behind a slot, as the slot is and once it is overwritten. -/
lemma toList_set {slots : Array TaskId} {slot : Nat} {a : TaskId} (h : slots[slot]? = some a)
    (b : TaskId) : ∃ u v, slots.toList = u ++ a :: v ∧
      (slots.setIfInBounds slot b).toList = u ++ b :: v := by
  obtain ⟨hlt, rfl⟩ := Array.getElem?_eq_some_iff.1 h
  have hl : slot < slots.toList.length := by simpa using hlt
  refine ⟨slots.toList.take slot, slots.toList.drop (slot + 1), ?_, ?_⟩
  · rw [← Array.getElem_toList hl, List.getElem_cons_drop, List.take_append_drop]
  · rw [Array.toList_setIfInBounds, List.set_eq_take_append_cons_drop, if_pos hl]

lemma toList_append (s : IdSet) {id : TaskId} (hid : id ≠ 0) :
    (s.append id).toList = s.toList ++ [id] := by
  simp [toList, append, hid]

lemma Sound.append {s : IdSet} (hs : s.Sound) {id : TaskId} (hid : id ≠ 0) (hnew : id ∉ s)
    (hord : s.disordered = false → s.largest ≤ id) : (s.append id).Sound where
  live := by rw [toList_append s hid]; simp [IdSet.append, hs.live]
  gaps := by simp [IdSet.append, List.count_append, hid, hs.gaps]
  nodup := by
    rw [toList_append s hid, List.nodup_append]
    refine ⟨hs.nodup, List.nodup_singleton id, ?_⟩
    rintro a ha b hb rfl
    exact hnew ((List.mem_singleton.1 hb) ▸ ha)
  le_largest := by
    intro x hx
    rw [mem_def, toList_append s hid, List.mem_append, List.mem_singleton] at hx
    have hmax : (s.append id).largest = if s.largest ≤ id then id else s.largest := rfl
    rcases hx with hx | rfl
    · have := hs.le_largest x hx
      grind
    · grind
  ascending := by
    intro hd
    rw [toList_append s hid, List.pairwise_append]
    refine ⟨hs.ascending hd, List.pairwise_singleton _ _, ?_⟩
    intro a ha b hb
    rw [List.mem_singleton] at hb
    subst hb
    have hle := hs.le_largest a ha
    have hlast := hord hd
    have hne : a ≠ b := by rintro rfl; exact hnew ha
    grind

/-- **Bulk insertion**: an id that is no member may be put in without a look. -/
theorem Sound.init {s : IdSet} (hs : s.Sound) {id : TaskId} (hid : id ≠ 0) (hnew : id ∉ s) :
    (s.init id).Sound := by
  have hflag : Sound { s with disordered := s.disordered || id < s.largest } :=
    { hs with ascending := fun hd => hs.ascending (by simp at hd; exact hd.1) }
  refine hflag.append hid hnew fun hd => ?_
  simp only [Bool.or_eq_false_iff, decide_eq_false_iff_not] at hd
  grind

lemma mem_init {s : IdSet} {id x : TaskId} (hid : id ≠ 0) : x ∈ s.init id ↔ x ∈ s ∨ x = id := by
  rw [mem_def, init, toList_append _ hid, List.mem_append, List.mem_singleton]
  rfl

lemma get?_of_holeToFill? {s : IdSet} {slot : Nat} (h : s.holeToFill? = some slot) :
    s.slots[slot]? = some 0 := by
  unfold holeToFill? at h
  split at h
  · next hspare =>
    cases h
    simpa using (Option.filter_eq_some_iff.1 hspare).2
  · split at h
    · exact get?_of_idxOf? h
    · simp at h

def fill (s : IdSet) (slot : Nat) (id : TaskId) : IdSet :=
  { s with
    slots := s.slots.setIfInBounds slot id
    live := s.live + 1
    gaps := s.gaps - 1
    spare := none
    disordered := true }

lemma toList_fill {s : IdSet} {slot : Nat} (h : s.slots[slot]? = some 0) {id : TaskId}
    (hid : id ≠ 0) : ∃ u v, s.toList = u ++ v ∧ (s.fill slot id).toList = u ++ id :: v := by
  obtain ⟨u, v, hold, hset⟩ := toList_set h id
  refine ⟨u.filter (· ≠ 0), v.filter (· ≠ 0), ?_, ?_⟩
  · simp [toList, hold]
  · rw [toList, fill, hset]
    simp [hid]

lemma Sound.fill {s : IdSet} (hs : s.Sound) {slot : Nat} (h : s.slots[slot]? = some 0)
    {id : TaskId} (hid : id ≠ 0) (hnew : id ∉ s) (hle : id ≤ s.largest) :
    (s.fill slot id).Sound := by
  obtain ⟨u, v, hold, hset⟩ := toList_fill h hid
  refine ⟨?_, ?_, ?_, ?_, fun hd => by simp [IdSet.fill] at hd⟩
  · have : (s.fill slot id).live = s.live + 1 := rfl
    rw [this, hs.live, hold, hset]
    simp only [List.length_append, List.length_cons]
    omega
  · obtain ⟨u, v, hold, hset⟩ := toList_set h id
    have : (s.fill slot id).gaps = s.gaps - 1 := rfl
    rw [this, hs.gaps, hold, IdSet.fill, hset, List.count_append, List.count_append,
      List.count_cons_self, List.count_cons_of_ne hid]
    omega
  · rw [hset, List.nodup_middle, ← hold]
    exact List.nodup_cons.2 ⟨hnew, hs.nodup⟩
  · intro x hx
    rw [mem_def, hset] at hx
    have hx : x ∈ s ∨ x = id := by rw [mem_def, hold]; grind
    rcases hx with hx | rfl
    · exact hs.le_largest x hx
    · exact hle

/-- What adding does: nothing for a member, and else the id comes among the members. -/
lemma Sound.add_cases {s : IdSet} (hs : s.Sound) {id : TaskId} (hid : id ≠ 0) :
    (id ∈ s ∧ s.add id = (s, false)) ∨
    (id ∉ s ∧ (s.add id).2 = true ∧ (s.add id).1.Sound ∧
      ∃ u v, s.toList = u ++ v ∧ (s.add id).1.toList = u ++ id :: v) := by
  unfold add
  rw [if_neg hid]
  split
  · next hgt =>
    have hnew : id ∉ s := fun h => by have := hs.le_largest id h; grind
    refine .inr ⟨hnew, rfl, hs.append hid hnew fun _ => by grind, s.toList, [], by simp, ?_⟩
    exact toList_append s hid
  · next hle =>
    split
    · next hmem => exact .inl ⟨(hs.contains_iff id).1 hmem, rfl⟩
    · next hmem =>
      have hnew : id ∉ s := fun h => hmem ((hs.contains_iff id).2 h)
      split
      · next slot hslot =>
        have hget := get?_of_holeToFill? hslot
        exact .inr ⟨hnew, rfl, hs.fill hget hid hnew (by grind), toList_fill hget hid⟩
      · have hflag : Sound { s with spare := none, disordered := true } :=
          { hs with ascending := fun hd => by simp at hd }
        refine .inr ⟨hnew, rfl, hflag.append hid hnew (by simp), s.toList, [], by simp, ?_⟩
        exact toList_append _ hid

/-- **Adding** keeps a set sound. -/
theorem Sound.add {s : IdSet} (hs : s.Sound) (id : TaskId) : (s.add id).1.Sound := by
  by_cases hid : id = 0
  · simpa [IdSet.add, hid] using hs
  · rcases hs.add_cases hid with ⟨-, h⟩ | ⟨-, -, h, -⟩
    · rw [h]; exact hs
    · exact h

lemma Sound.mem_add {s : IdSet} (hs : s.Sound) {id x : TaskId} (hid : id ≠ 0) :
    x ∈ (s.add id).1 ↔ x ∈ s ∨ x = id := by
  rcases hs.add_cases hid with ⟨hmem, h⟩ | ⟨-, -, -, u, v, hold, hnew⟩
  · rw [h]
    exact ⟨.inl, fun hx => hx.elim (·) fun hx => hx ▸ hmem⟩
  · rw [mem_def, mem_def, hold, hnew]
    grind

/-- What removing does: nothing for an id that is no member, and else the id leaves the members. -/
lemma Sound.remove_cases {s : IdSet} (hs : s.Sound) (id : TaskId) :
    (id ∉ s ∧ s.remove id = (s, false)) ∨
    (id ∈ s ∧ (s.remove id).2 = true ∧ (s.remove id).1.Sound ∧
      ∃ u v, s.toList = u ++ id :: v ∧ (s.remove id).1.toList = u ++ v) := by
  unfold remove
  split
  · next hslot => exact .inl ⟨hs.not_mem_of_slotOf? hslot, rfl⟩
  · next slot hslot =>
    obtain ⟨hget, hid⟩ := get?_of_slotOf? hslot
    obtain ⟨u, v, hold, hset⟩ := toList_set hget 0
    have hmembers : s.toList = u.filter (· ≠ 0) ++ id :: v.filter (· ≠ 0) := by
      simp [toList, hold, hid]
    have hleft : (s.slots.setIfInBounds slot 0).toList.filter (· ≠ 0) =
        u.filter (· ≠ 0) ++ v.filter (· ≠ 0) := by
      rw [hset]; simp
    have hsub : (u.filter (· ≠ 0) ++ v.filter (· ≠ 0)).Sublist s.toList := by
      rw [hmembers]; exact (List.sublist_cons_self ..).append_left _
    refine .inr ⟨by rw [mem_def, hmembers]; simp, rfl, ?_, _, _, hmembers, hleft⟩
    refine ⟨?_, ?_, ?_, ?_, ?_⟩
    · have := hs.live
      rw [hmembers] at this
      simp only [toList, hleft, List.length_append, List.length_cons] at this ⊢
      omega
    · simp only [hset, hs.gaps, hold, List.count_append, List.count_cons_self,
        List.count_cons_of_ne hid]
      omega
    · rw [toList, hleft]; exact hs.nodup.sublist hsub
    · intro x hx
      rw [mem_def, toList, hleft] at hx
      exact hs.le_largest x (hsub.subset hx)
    · intro hd
      rw [toList, hleft]; exact (hs.ascending hd).sublist hsub

/-- **Removing** keeps a set sound. -/
theorem Sound.remove {s : IdSet} (hs : s.Sound) (id : TaskId) : (s.remove id).1.Sound := by
  rcases hs.remove_cases id with ⟨-, h⟩ | ⟨-, -, h, -⟩
  · rw [h]; exact hs
  · exact h

lemma Sound.mem_remove {s : IdSet} (hs : s.Sound) {id x : TaskId} :
    x ∈ (s.remove id).1 ↔ x ∈ s ∧ x ≠ id := by
  rcases hs.remove_cases id with ⟨hmem, h⟩ | ⟨-, -, -, u, v, hold, hnew⟩
  · rw [h]
    exact ⟨fun hx => ⟨hx, fun he => hmem (he ▸ hx)⟩, And.left⟩
  · have hnd := hs.nodup
    rw [hold, List.nodup_middle, List.nodup_cons] at hnd
    rw [mem_def, mem_def, hold, hnew]
    grind

end TaskIndex.IdSet
