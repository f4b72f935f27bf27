import Mathlib.Data.List.Perm.Subperm
import TaskIndex.Proofs.Index.Filter
import TaskIndex.Proofs.Query.Order

/-!
What holds of an index in every state, and what bulk insertion relies on.

Bulk insertion does not look whether the id is in the bucket already. So loading and applying are told a
second time with that look in front of every bulk insertion, where a single failing look refuses the whole
run. No run is refused: an id that is taken in has a free slot, what is in a bucket has a filled one, and
the facets of a task are all different.
-/

namespace TaskIndex.Index

variable {shard : ShardKey} {today : Date} {idx : Index} {id : TaskId} {t : Task} {e : ChangeEntry}

/-! ### Looking before bulk insertion -/

/-- Puts an id behind a facet in bulk; refused for zero and for an id that stands there already. -/
def enterNew? (id : TaskId) (idx : Index) (f : Facet) : Option Index :=
  if id = 0 ∨ id ∈ (idx.bucket f).toList then none else some (idx.enterNew id f)

def insertNew? (idx : Index) (t : Task) : Option Index :=
  ((t.facets idx.today).foldlM (enterNew? t.id) idx).map (·.store t)

def accept? (idx : Index) (t : Task) : Option Index :=
  if t.archived ∨ t.shard ≠ idx.shard ∨ ¬t.HasIndexableId ∨ (idx.get? t.id).isSome then some idx
  else idx.insertNew? t

def load? (shard : ShardKey) (today : Date) (scanned : List Task) : Option Index :=
  scanned.foldlM accept? { shard, today }

/-- Applies an entry as `applyEntry` does, with a look before every bulk insertion. -/
def applyEntry? (idx : Index) (e : ChangeEntry) : Option (Index × Outcome) :=
  if e.after.shard ≠ idx.shard ∨ ¬e.after.HasIndexableId then some (idx, .rejected)
  else
    match idx.get? e.after.id with
    | none =>
      if e.after.archived then some (idx, .rejected)
      else (idx.insertNew? e.after).map fun idx => (idx, .applied)
    | some before =>
      if e.after.revision ≤ before.revision then some (idx, .stale)
      else some (idx.change before e, .applied)

/-- An id that is behind none of several different facets is put behind all of them without a refusal. -/
lemma foldlM_enterNew? (hid : id ≠ 0) {l : List Facet} (hl : l.Nodup)
    (hnew : ∀ f ∈ l, id ∉ idx.bucket f) :
    l.foldlM (enterNew? id) idx = some (l.foldl (enterNew id) idx) := by
  induction l generalizing idx with
  | nil => rfl
  | cons f l ih =>
    obtain ⟨hf, hl⟩ := List.nodup_cons.1 hl
    have hrest : ∀ g ∈ l, id ∉ (idx.enterNew id f).bucket g := by
      intro g hg
      have hne : f ≠ g := by rintro rfl; exact hf hg
      rw [bucket_enterNew, if_neg hne]
      exact hnew g (List.mem_cons_of_mem f hg)
    have hstep : idx.enterNew? id f = some (idx.enterNew id f) :=
      if_neg (not_or.2 ⟨hid, hnew f List.mem_cons_self⟩)
    rw [List.foldlM_cons, hstep]
    exact ih hl hrest

namespace Sound

lemma insertNew?_eq (h : idx.Sound) (hb : idx.Belongs t) (hfree : idx.get? t.id = none) :
    idx.insertNew? t = some (idx.insertNew t) := by
  rw [Index.insertNew?, foldlM_enterNew? hb.2.1 (Facet.nodup_facets t idx.today)
    fun f _ => h.not_mem_of_free hfree]
  rfl

lemma accept?_eq (h : idx.Sound) (t : Task) : idx.accept? t = some (idx.accept t) := by
  unfold Index.accept? Index.accept
  split
  · rfl
  · next hopen =>
    simp only [not_or, Bool.not_eq_true, ne_eq, not_not, Option.isSome_eq_false_iff,
      Option.isNone_iff_eq_none] at hopen
    exact h.insertNew?_eq ⟨hopen.2.1, hopen.2.2.1⟩ hopen.2.2.2

lemma foldlM_accept? (h : idx.Sound) (scanned : List Task) :
    scanned.foldlM Index.accept? idx = some (scanned.foldl Index.accept idx) := by
  induction scanned generalizing idx with
  | nil => rfl
  | cons t scanned ih =>
    rw [List.foldlM_cons, h.accept?_eq t]
    exact ih (h.accept t)

lemma applyEntry?_eq (h : idx.Sound) (e : ChangeEntry) : idx.applyEntry? e = some (idx.applyEntry e) := by
  unfold Index.applyEntry? Index.applyEntry
  split
  · rfl
  · next hopen =>
    have hb : idx.Belongs e.after := by
      simpa [Belongs, not_or] using hopen
    cases hget : idx.get? e.after.id with
    | none =>
      dsimp only
      rw [h.insertNew?_eq hb hget]
      split <;> rfl
    | some before =>
      dsimp only
      split <;> rfl

end Sound

/-- A load is never refused. -/
lemma load?_eq (shard : ShardKey) (today : Date) (scanned : List Task) :
    load? shard today scanned = some (load shard today scanned) :=
  (sound_start shard today).foldlM_accept? scanned

/-! ### Every state -/

/-- The indexes of a shard for a day that a scan and changes can lead to. -/
inductive Reached (shard : ShardKey) (today : Date) : Index → Prop where
  | load (scanned : List Task) : Reached shard today (load shard today scanned)
  | entry {idx : Index} (h : Reached shard today idx) (e : ChangeEntry) :
    Reached shard today (idx.applyEntry e).1
  | batch {idx : Index} (h : Reached shard today idx) (batch : ChangeBatch) :
    Reached shard today (idx.applyBatch batch).1

namespace Reached

lemma sound (h : Reached shard today idx) : idx.Sound := by
  induction h with
  | load scanned => exact sound_load shard today scanned
  | entry _ e ih => exact ih.applyEntry e
  | batch _ batch ih =>
    rw [applyBatch_fst]
    exact ih.absorb batch.entries

lemma shard_eq (h : Reached shard today idx) : idx.shard = shard := by
  induction h with
  | load scanned => exact shard_load shard today scanned
  | entry _ e ih => rw [shard_applyEntry, ih]
  | batch _ batch ih => rw [applyBatch_fst, shard_absorb, ih]

end Reached

namespace Sound

/-- As many slots as have room for an id that can be indexed. -/
lemma size_isPowerOfTwo (h : idx.Sound) :
    idx.slots.size = 0 ∨ idx.slots.size.isPowerOfTwo ∧ idx.slots.size ≤ 32768 := by
  refine h.fitted.imp_right ?_
  rintro ⟨id, t, ht, hsize⟩
  rw [hsize]
  refine ⟨isPowerOfTwo_room _, room_le ⟨15, rfl⟩ ?_⟩
  have hle : id ≤ maxTaskId := h.placed.id_eq ht ▸ (h.owned id t ht).2.2
  exact Nat.lt_of_le_of_lt (UInt16.le_iff_toNat_le.1 hle) (by decide)

lemma of_slot (h : idx.Sound) {n : Nat} (hn : idx.slots[n]? = some (some t)) :
    t.id.toNat = n ∧ 1 ≤ n ∧ n ≤ 32766 ∧ t.shard = idx.shard := by
  have hid : t.id.toNat = n := h.placed n t hn
  obtain ⟨hshard, hne, hle⟩ := h.owned t.id t (get?_eq_some_iff.2 (hid ▸ hn))
  have hpos : t.id.toNat ≠ 0 := fun h0 => hne (UInt16.toNat_inj.1 h0)
  have hmax : t.id.toNat ≤ 32766 := UInt16.le_iff_toNat_le.1 hle
  exact ⟨hid, by omega, by omega, hshard⟩

lemma filter_subperm (h : idx.Sound) (ps : List Predicate) :
    ((idx.filter ps).map Task.id).Nodup ∧ (idx.filter ps).Subperm idx.tasks := by
  obtain ⟨hnodup, hstored⟩ := h.filter_stored ps
  constructor
  · refine hnodup.map_on fun t ht u hu hid => ?_
    have heq := hstored t ht
    rw [hid, hstored u hu] at heq
    exact (Option.some.inj heq).symm
  · exact hnodup.subperm fun t ht => h.placed.mem_tasks.2 (hstored t ht)

end Sound

lemma nodup_ofMatches {matched : List Task} (h : (matched.map Task.id).Nodup) (spec : PageSpec)
    (today : Date) : ((Page.ofMatches spec today matched).tasks.map Task.id).Nodup := by
  have hsorted : ((Task.sortBy spec.order today matched).map Task.id).Nodup :=
    ((Task.sortBy_perm spec.order today matched).map Task.id).nodup_iff.2 h
  exact hsorted.sublist (((List.take_sublist _ _).trans (List.drop_sublist _ _)).map Task.id)

/-- **In order in every state**: whatever a scan has come upon and whatever changes claim to have done, the
slots are none or as many as a power of two up to 32768, a filled slot holds a task of the shard under its
own number from 1 to 32766, a bucket lists ids of filled slots, each once, and knows how many they are, and
neither the load nor any further entry meets an id in the bucket into which it puts it in bulk. So no
lookup gives a task back twice, and none counts more matches than there are tasks. -/
theorem integrity_of_reached (shard : ShardKey) (today : Date) (idx : Index)
    (h : Reached shard today idx) :
    (idx.slots.size = 0 ∨ idx.slots.size.isPowerOfTwo ∧ idx.slots.size ≤ 32768) ∧
    (∀ (n : Nat) t, idx.slots[n]? = some (some t) →
      t.id.toNat = n ∧ 1 ≤ n ∧ n ≤ 32766 ∧ t.shard = shard) ∧
    (∀ f, ∀ id ∈ (idx.bucket f).toList, ∃ t, idx.slots[id.toNat]? = some (some t)) ∧
    (∀ f, (idx.bucket f).toList.Nodup ∧ (idx.bucket f).size = (idx.bucket f).toList.length) ∧
    (∀ scanned, load? shard today scanned = some (load shard today scanned)) ∧
    (∀ e, idx.applyEntry? e = some (idx.applyEntry e)) ∧
    (∀ ps, ((idx.filter ps).map Task.id).Nodup ∧ (idx.filter ps).length ≤ idx.tasks.length) ∧
    ∀ limits ps, ((idx.lookup limits ps).tasks.map Task.id).Nodup ∧
      (idx.lookup limits ps).total ≤ idx.tasks.length := by
  have hsound := h.sound
  refine ⟨hsound.size_isPowerOfTwo, fun n t hn => h.shard_eq ▸ hsound.of_slot hn, fun f id hid => ?_,
    fun f => ⟨(hsound.bucket f).nodup, (hsound.bucket f).live⟩, load?_eq shard today,
    hsound.applyEntry?_eq, fun ps => ?_, fun limits ps => ?_⟩
  · obtain ⟨t, ht⟩ := hsound.filled f id hid
    exact ⟨t, get?_eq_some_iff.1 ht⟩
  · obtain ⟨hnodup, hsub⟩ := hsound.filter_subperm ps
    exact ⟨hnodup, hsub.length_le⟩
  · obtain ⟨hnodup, hsub⟩ := hsound.filter_subperm ps
    have htotal : (idx.lookup limits ps).total = (idx.filter ps).length :=
      (Task.sortBy_perm _ _ _).length_eq
    exact ⟨nodup_ofMatches hnodup _ _, htotal ▸ hsub.length_le⟩

/-- A scan with a repeated, an archived, a foreign and an unindexable task, and then an entry whose tag
does not speak of what it changes. -/
theorem integrity_of_reached_untagged :
    let today : Date := ⟨2026, 3, 1, by decide⟩
    let t := Task.fresh cedar 7 today
    let scanned := [t, t, { Task.fresh cedar 8 today with archived := true },
      Task.fresh ⟨"oak", by decide, by decide⟩ 9 today, Task.fresh cedar 0 today]
    let e : ChangeEntry := ⟨none, { t with area := "lexer", revision := 2 }, [.known .version]⟩
    let idx := ((load cedar today scanned).applyEntry e).1
    Reached cedar today idx ∧ ((idx.filter []).map Task.id).Nodup ∧
      (idx.lookup ⟨50, none, by simp⟩ []).total ≤ idx.tasks.length := by
  intro today t scanned e idx
  have h : Reached cedar today idx := .entry (.load scanned) e
  obtain ⟨-, -, -, -, -, -, hfilter, hlookup⟩ := integrity_of_reached cedar today idx h
  exact ⟨h, (hfilter []).1, (hlookup _ []).2⟩

end TaskIndex.Index
