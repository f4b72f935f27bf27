import Mathlib.Data.Finset.Card
import Mathlib.Data.Finset.Dedup
import TaskIndex.Proofs.IdSet

/-!
A set of ids answers as a plain set does.

A run of calls is carried out twice, on the slots and on a finite set that knows nothing of slots. As long
as bulk insertion is only used for ids that are no members, the two agree on the members after every call,
and so on every answer. The counters follow from the slots, so none is lowered that is zero.
-/

namespace TaskIndex.IdSet

inductive Call where
  | init (id : TaskId)
  | add (id : TaskId)
  | remove (id : TaskId)
  | contains (id : TaskId)
deriving DecidableEq

def call (s : IdSet) : Call → IdSet × Option Bool
  | .init id => (s.init id, none)
  | .add id => ((s.add id).1, some (s.add id).2)
  | .remove id => ((s.remove id).1, some (s.remove id).2)
  | .contains id => (s, some (s.contains id))

def run (s : IdSet) : List Call → IdSet × List (Option Bool)
  | [] => (s, [])
  | c :: cs => (((s.call c).1.run cs).1, (s.call c).2 :: ((s.call c).1.run cs).2)

namespace Call

variable (S : Finset TaskId)

/-- What becomes of a plain set, and the answer. Zero is never put in. -/
def onSet : Call → Finset TaskId × Option Bool
  | init id => (insert id S, none)
  | add id => if id = 0 then (S, some false) else (insert id S, some (id ∉ S))
  | remove id => (S.erase id, some (id ∈ S))
  | contains id => (S, some (id ∈ S))

/-- Bulk insertion is for an id other than zero that is no member; the other calls are free. -/
def Allowed : Call → Prop
  | init id => id ≠ 0 ∧ id ∉ S
  | _ => True

def runOnSet : Finset TaskId → List Call → Finset TaskId × List (Option Bool)
  | S, [] => (S, [])
  | S, c :: cs => ((runOnSet (c.onSet S).1 cs).1, (c.onSet S).2 :: (runOnSet (c.onSet S).1 cs).2)

/-- Every call of a run is allowed at its moment. -/
def AllAllowed : Finset TaskId → List Call → Prop
  | _, [] => True
  | S, c :: cs => c.Allowed S ∧ AllAllowed (c.onSet S).1 cs

end Call

variable {s : IdSet} {S : Finset TaskId} {c : Call} {cs : List Call}

lemma zero_not_mem (s : IdSet) : 0 ∉ s := fun h => (mem_iff_slots.1 h).2 rfl

structure Stands (s : IdSet) (S : Finset TaskId) : Prop where
  sound : s.Sound
  mem : ∀ id, id ∈ s ↔ id ∈ S

lemma stands_empty : Stands ∅ ∅ where
  sound := sound_empty
  mem id := by simp

namespace Stands

lemma contains_eq (h : Stands s S) (id : TaskId) : s.contains id = decide (id ∈ S) := by
  rw [Bool.eq_iff_iff, h.sound.contains_iff, h.mem, decide_eq_true_iff]

lemma add (h : Stands s S) {id : TaskId} (hid : id ≠ 0) :
    Stands (s.add id).1 (insert id S) ∧ (s.add id).2 = decide (id ∉ S) := by
  have hstands : Stands (s.add id).1 (insert id S) :=
    ⟨h.sound.add id, fun x => by rw [h.sound.mem_add hid, h.mem, Finset.mem_insert, or_comm]⟩
  refine ⟨hstands, ?_⟩
  rcases h.sound.add_cases hid with ⟨hmem, heq⟩ | ⟨hmem, htrue, -⟩
  · simp [heq, (h.mem id).1 hmem]
  · simp [htrue, (h.mem id).not.1 hmem]

lemma remove (h : Stands s S) (id : TaskId) :
    Stands (s.remove id).1 (S.erase id) ∧ (s.remove id).2 = decide (id ∈ S) := by
  have hstands : Stands (s.remove id).1 (S.erase id) :=
    ⟨h.sound.remove id, fun x => by rw [h.sound.mem_remove, h.mem, Finset.mem_erase, and_comm]⟩
  refine ⟨hstands, ?_⟩
  rcases h.sound.remove_cases id with ⟨hmem, heq⟩ | ⟨hmem, htrue, -⟩
  · simp [heq, (h.mem id).not.1 hmem]
  · simp [htrue, (h.mem id).1 hmem]

lemma call (h : Stands s S) (hc : c.Allowed S) :
    Stands (s.call c).1 (c.onSet S).1 ∧ (s.call c).2 = (c.onSet S).2 := by
  cases c with
  | init id =>
    obtain ⟨hid, hnew⟩ := hc
    refine ⟨⟨h.sound.init hid ((h.mem id).not.2 hnew), fun x => ?_⟩, rfl⟩
    simp only [IdSet.call, Call.onSet]
    rw [mem_init hid, h.mem, Finset.mem_insert, or_comm]
  | add id =>
    by_cases hid : id = 0
    · simpa [IdSet.call, Call.onSet, IdSet.add, hid] using h
    · simpa [IdSet.call, Call.onSet, hid] using h.add hid
  | remove id => simpa [IdSet.call, Call.onSet] using h.remove id
  | contains id => exact ⟨h, congrArg some (h.contains_eq id)⟩

lemma run (h : Stands s S) (hcs : Call.AllAllowed S cs) :
    Stands (s.run cs).1 (Call.runOnSet S cs).1 ∧ (s.run cs).2 = (Call.runOnSet S cs).2 := by
  induction cs generalizing s S with
  | nil => exact ⟨h, rfl⟩
  | cons c cs ih =>
    obtain ⟨hstep, hanswer⟩ := h.call hcs.1
    obtain ⟨hrest, hanswers⟩ := ih hstep hcs.2
    refine ⟨hrest, ?_⟩
    simp only [IdSet.run, Call.runOnSet, hanswer, hanswers]

lemma card_eq (h : Stands s S) : S.card = s.toList.length := by
  have hset : S = s.toList.toFinset := by
    ext id
    rw [List.mem_toFinset, ← mem_def, h.mem]
  rw [hset, List.toFinset_card_of_nodup h.sound.nodup]

end Stands

/-! ### The counters -/

namespace Sound

lemma slotCount_eq (h : s.Sound) : s.slotCount = s.size + s.gaps := by
  have hsplit := List.length_eq_length_filter_add (l := s.slots.toList) (· ≠ 0)
  have hholes : (s.slots.toList.filter fun id => !decide (id ≠ 0)).length = s.slots.toList.count 0 := by
    rw [List.count, List.countP_eq_length_filter]
    congr 2
    funext id
    simp [Bool.beq_eq_decide_eq]
  rw [hholes, Array.length_toList] at hsplit
  rw [slotCount, size, h.live, h.gaps, hsplit]
  rfl

lemma live_pos_of_remove (h : s.Sound) {id : TaskId} (hremove : (s.remove id).2 = true) : 0 < s.live := by
  rcases h.remove_cases id with ⟨-, heq⟩ | ⟨hmem, -⟩
  · rw [heq] at hremove
    cases hremove
  · rw [h.live]
    exact List.length_pos_of_mem hmem

lemma gaps_pos_of_add (h : s.Sound) {id : TaskId} (hadd : (s.add id).2 = true)
    (hslots : (s.add id).1.slotCount = s.slotCount) : 0 < s.gaps := by
  have hid : id ≠ 0 := by
    rintro rfl
    simp [IdSet.add] at hadd
  rcases h.add_cases hid with ⟨-, heq⟩ | ⟨-, -, hsound, u, v, hold, hnew⟩
  · rw [heq] at hadd
    cases hadd
  · have hlive : (s.add id).1.size = s.size + 1 := by
      rw [size, size, h.live, hsound.live, hold, hnew]
      simp only [List.length_append, List.length_cons]
      omega
    have hbefore := h.slotCount_eq
    have hafter := hsound.slotCount_eq
    omega

end Sound

/-- **As a plain set**: after a run of calls from the empty set in which bulk insertion is only used for ids
other than zero that are no members, every answer was that of the same run on a finite set without zero.
The set is as large as that one, lists each of its members once and has as many slots as members and
holes, and whatever call comes next, no counter is lowered that is zero: taking an id out finds a member,
and putting one in without a new slot finds a hole. -/
theorem run_as_set (cs : List Call) (h : Call.AllAllowed ∅ cs) :
    let s := (run ∅ cs).1
    let S := (Call.runOnSet ∅ cs).1
    (run ∅ cs).2 = (Call.runOnSet ∅ cs).2 ∧
    0 ∉ S ∧ s.size = S.card ∧ s.toList.Nodup ∧ (∀ id, id ∈ s.toList ↔ id ∈ S) ∧
    s.slotCount = s.size + s.slots.toList.count 0 ∧ s.gaps = s.slots.toList.count 0 ∧
    (∀ id, (s.remove id).2 = true → 0 < s.live) ∧
    ∀ id, (s.add id).2 = true → (s.add id).1.slotCount = s.slotCount → 0 < s.gaps := by
  intro s S
  obtain ⟨hstands, hanswers⟩ := stands_empty.run h
  have hsound : s.Sound := hstands.sound
  refine ⟨hanswers, (hstands.mem 0).not.1 (zero_not_mem s), ?_, hsound.nodup, hstands.mem, ?_, hsound.gaps,
    fun id => hsound.live_pos_of_remove, fun id => hsound.gaps_pos_of_add⟩
  · rw [hstands.card_eq]
    exact hsound.live
  · rw [hsound.slotCount_eq, hsound.gaps]

/-- Ids out of order, a hole that is filled by a smaller id, an id that is put in twice, and zero. -/
theorem run_as_set_refilled :
    let cs : List Call := [.init 3, .init 1, .add 5, .remove 3, .add 2, .add 2, .contains 3, .remove 0]
    Call.AllAllowed ∅ cs ∧ (run ∅ cs).2 =
      [none, none, some true, some true, some true, some false, some false, some false] := by
  intro cs
  have h : Call.AllAllowed ∅ cs := by simp [cs, Call.AllAllowed, Call.Allowed, Call.onSet]
  exact ⟨h, (run_as_set cs h).1.trans (by decide)⟩

end TaskIndex.IdSet
