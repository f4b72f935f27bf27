import Mathlib.Algebra.Group.Nat.Defs
import Mathlib.Data.List.Nodup
import TaskIndex.Index.Basic

/-!
The slots of an index.

A task stands in the slot of its id, so the tasks in slot order ascend by id and none stands twice.
The slots are as many as the least power of two that has room for every id that ever came; storing
only makes room when the new id has none.
-/

namespace TaskIndex.Index

/-! ### Making room -/

lemma room_of_ne_zero {slot : Nat} (h : slot ≠ 0) : room slot = 2 ^ (slot.log2 + 1) := by
  rw [room, if_neg h, Nat.shiftLeft_eq, Nat.mul_comm, Nat.pow_succ]

lemma lt_room (slot : Nat) : slot < room slot := by
  by_cases h : slot = 0
  · simp [room, h]
  · rw [room_of_ne_zero h]
    exact Nat.lt_log2_self

lemma isPowerOfTwo_room (slot : Nat) : (room slot).isPowerOfTwo := by
  by_cases h : slot = 0
  · rw [room, if_pos h]
    exact Nat.isPowerOfTwo_one
  · exact ⟨slot.log2 + 1, room_of_ne_zero h⟩

/-- No power of two lies above a slot and below its room. -/
lemma room_le {slot m : Nat} (hm : m.isPowerOfTwo) (h : slot < m) : room slot ≤ m := by
  obtain ⟨k, rfl⟩ := hm
  by_cases hzero : slot = 0
  · rw [room, if_pos hzero]
    exact Nat.one_le_two_pow
  · rw [room_of_ne_zero hzero]
    exact Nat.pow_le_pow_right (by omega) ((Nat.log2_lt hzero).2 h)

/-! ### Looking up -/

/-- Every task stands in the slot of its id. -/
def Placed (idx : Index) : Prop :=
  ∀ (n : Nat) (t : Task), idx.slots[n]? = some (some t) → t.id.toNat = n

variable {idx : Index} {id : TaskId} {t : Task}

lemma get?_eq_some_iff : idx.get? id = some t ↔ idx.slots[id.toNat]? = some (some t) := by
  simp [get?, Option.join_eq_some_iff]

lemma Placed.id_eq (h : idx.Placed) (hg : idx.get? id = some t) : t.id = id :=
  UInt16.toNat_inj.1 (h _ _ (get?_eq_some_iff.1 hg))

lemma Placed.of_slots_eq {idx' : Index} (h : idx.Placed) (hslots : idx'.slots = idx.slots) :
    idx'.Placed := by
  intro n t ht
  rw [hslots] at ht
  exact h n t ht

lemma Placed.mem_tasks (h : idx.Placed) : t ∈ idx.tasks ↔ idx.get? t.id = some t := by
  rw [get?_eq_some_iff, tasks]
  simp only [List.mem_filterMap, exists_eq_right, Array.mem_toList_iff]
  constructor
  · intro hm
    obtain ⟨n, hn, heq⟩ := Array.mem_iff_getElem.1 hm
    have hget := Array.getElem?_eq_some_iff.2 ⟨hn, heq⟩
    rwa [h n t hget]
  · exact fun hg => Array.mem_of_getElem? hg

lemma Placed.mem_tasks_of_get? (h : idx.Placed) (hg : idx.get? id = some t) : t ∈ idx.tasks := by
  rw [h.mem_tasks, h.id_eq hg, hg]

lemma Placed.tasks_ascending (h : idx.Placed) : idx.tasks.Pairwise fun a b => a.id < b.id := by
  rw [tasks, List.pairwise_filterMap, List.pairwise_iff_getElem]
  intro i j hi hj hij a ha b hb
  have hslot : ∀ {k} (hk : k < idx.slots.toList.length) {u : Task},
      idx.slots.toList[k] = some u → u.id.toNat = k := by
    intro k hk u hu
    refine h k u (Array.getElem?_eq_some_iff.2 ⟨by simpa using hk, ?_⟩)
    simpa using hu
  rw [UInt16.lt_iff_toNat_lt, hslot hi ha, hslot hj hb]
  exact hij

lemma Placed.tasks_ids_ne (h : idx.Placed) : idx.tasks.Pairwise fun a b => a.id ≠ b.id := by
  refine h.tasks_ascending.imp ?_
  intro a b hlt heq
  rw [heq] at hlt
  exact UInt16.lt_irrefl _ hlt

lemma Placed.tasks_nodup (h : idx.Placed) : idx.tasks.Nodup := by
  refine h.tasks_ids_ne.imp ?_
  rintro a b hne rfl
  exact hne rfl

lemma Placed.get?_eq_find? (h : idx.Placed) (id : TaskId) :
    idx.get? id = idx.tasks.find? (·.id = id) := by
  cases hfind : idx.tasks.find? (·.id = id) with
  | none =>
    cases hget : idx.get? id with
    | none => rfl
    | some t =>
      have := List.find?_eq_none.1 hfind t (h.mem_tasks_of_get? hget)
      simp [h.id_eq hget] at this
  | some t =>
    have hid : t.id = id := by simpa using List.find?_some hfind
    rw [← hid]
    exact h.mem_tasks.1 (List.mem_of_find?_eq_some hfind)

lemma Placed.tasks_eq {idx' : Index} (h : idx.Placed) (h' : idx'.Placed)
    (heq : ∀ id, idx.get? id = idx'.get? id) : idx.tasks = idx'.tasks := by
  refine List.Perm.eq_of_pairwise (fun a b _ _ hab hba => ?_) h.tasks_ascending h'.tasks_ascending
    ((List.perm_ext_iff_of_nodup h.tasks_nodup h'.tasks_nodup).2 fun t => ?_)
  · exact absurd hba (UInt16.lt_asymm hab)
  · rw [h.mem_tasks, h'.mem_tasks, heq]

lemma slots_ext {idx' : Index} (hsize : idx.slots.size = idx'.slots.size)
    (hle : idx.slots.size ≤ UInt16.size) (heq : ∀ id, idx.get? id = idx'.get? id) :
    idx.slots = idx'.slots := by
  refine Array.ext hsize fun n hn hn' => ?_
  have hid : (UInt16.ofNat n).toNat = n := UInt16.toNat_ofNat_of_lt (Nat.lt_of_lt_of_le hn hle)
  have := heq (.ofNat n)
  rw [get?, get?, hid, Array.getElem?_eq_getElem hn, Array.getElem?_eq_getElem hn'] at this
  simpa using this

/-! ### Storing -/

lemma size_withRoomFor (n : Nat) (slots : Array (Option Task)) :
    (withRoomFor n slots).size =
      if n < slots.size then slots.size else room n := by
  unfold withRoomFor
  have := lt_room n
  split
  · rfl
  · rw [Array.size_append, Array.size_replicate]
    omega

lemma getElem?_withRoomFor (n k : Nat) (slots : Array (Option Task)) :
    ((withRoomFor n slots)[k]?).join = (slots[k]?).join := by
  unfold withRoomFor
  split
  · rfl
  · rw [Array.getElem?_append]
    split
    · rfl
    · next hk =>
      rw [Array.getElem?_replicate, Array.getElem?_eq_none (by omega)]
      split <;> rfl

lemma lt_size_withRoomFor (n : Nat) (slots : Array (Option Task)) :
    n < (withRoomFor n slots).size := by
  rw [size_withRoomFor]
  have := lt_room n
  split <;> omega

@[simp] lemma shard_store (idx : Index) (t : Task) : (idx.store t).shard = idx.shard := rfl

@[simp] lemma today_store (idx : Index) (t : Task) : (idx.store t).today = idx.today := rfl

@[simp] lemma bucket_store (idx : Index) (t : Task) (f : Facet) :
    (idx.store t).bucket f = idx.bucket f := rfl

@[simp] lemma get?_store (idx : Index) (t : Task) (id : TaskId) :
    (idx.store t).get? id = if id = t.id then some t else idx.get? id := by
  simp only [get?, store, Array.getElem?_setIfInBounds]
  by_cases heq : t.id.toNat = id.toNat
  · rw [if_pos heq, if_pos (lt_size_withRoomFor _ _), if_pos (UInt16.toNat_inj.1 heq).symm,
      Option.join_some]
  · rw [if_neg heq, if_neg (fun he => heq (congrArg UInt16.toNat he.symm)), getElem?_withRoomFor]

lemma Placed.store (h : idx.Placed) (t : Task) : (idx.store t).Placed := by
  intro n u hu
  simp only [Index.store, Array.getElem?_setIfInBounds] at hu
  split at hu
  · next heq => grind
  · refine h n u ?_
    have := getElem?_withRoomFor t.id.toNat n idx.slots
    rw [hu] at this
    simpa [Option.join_eq_some_iff] using this.symm

lemma size_store (idx : Index) (t : Task) : (idx.store t).slots.size =
    if t.id.toNat < idx.slots.size then idx.slots.size else room t.id.toNat := by
  simp [store, size_withRoomFor]

end TaskIndex.Index
