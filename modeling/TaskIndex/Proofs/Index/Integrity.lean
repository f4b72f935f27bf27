import TaskIndex.Proofs.Index.Bucket
import TaskIndex.Proofs.Index.Facet
import TaskIndex.Proofs.Index.Slots

/-!
What every index keeps to, whatever was scanned and whatever changes claim to have done.

Applying an entry does one of five things, and only two of them change the index: a task comes in under
a free id, or the task of a known id is moved between buckets and replaced. Neither depends on the tags
being right for the slots to stay in order and for the buckets to stay sets of known ids.
-/

namespace TaskIndex.Index

/-- A task that the index may hold. -/
def Belongs (idx : Index) (t : Task) : Prop := t.shard = idx.shard ∧ t.HasIndexableId

/-- Moves the id of a known task as the tags say and replaces the task. -/
def change (idx : Index) (before : Task) (e : ChangeEntry) : Index :=
  ((movesOf idx.today before e).foldl (move e.after.id) idx).store e.after

/-- What can come of an entry, and when. -/
inductive Applies (idx : Index) (e : ChangeEntry) : Index × Outcome → Prop where
  | foreign (h : ¬idx.Belongs e.after) : Applies idx e (idx, .rejected)
  | gone (hb : idx.Belongs e.after) (hfree : idx.get? e.after.id = none)
      (ha : e.after.archived = true) : Applies idx e (idx, .rejected)
  | new (hb : idx.Belongs e.after) (hfree : idx.get? e.after.id = none)
      (ha : e.after.archived = false) : Applies idx e (idx.insertNew e.after, .applied)
  | stale (before : Task) (hb : idx.Belongs e.after) (hget : idx.get? e.after.id = some before)
      (hrev : e.after.revision ≤ before.revision) : Applies idx e (idx, .stale)
  | news (before : Task) (hb : idx.Belongs e.after) (hget : idx.get? e.after.id = some before)
      (hrev : before.revision < e.after.revision) : Applies idx e (idx.change before e, .applied)

lemma applies {idx : Index} {e : ChangeEntry} {result : Index × Outcome}
    (h : idx.applyEntry e = result) : Applies idx e result := by
  subst h
  unfold applyEntry
  split
  · next h => exact .foreign fun hb => h.elim (· hb.1) (· hb.2)
  · next h =>
    have hb : idx.Belongs e.after := by
      simpa [Belongs, not_or] using h
    split
    · next hfree =>
      split
      · next ha => exact .gone hb hfree ha
      · next ha => exact .new hb hfree (by simpa using ha)
    · next before hget =>
      split
      · next hrev => exact .stale before hb hget hrev
      · next hrev => exact .news before hb hget (UInt64.not_le.1 hrev)

/-! ### What stays and what is stored -/

variable {idx : Index} {id : TaskId} {t before : Task} {e : ChangeEntry} {f : Facet}

@[simp] lemma shard_insertNew (idx : Index) (t : Task) : (idx.insertNew t).shard = idx.shard := by
  rw [insertNew, shard_store, (frame_enterNew t.id (t.facets idx.today) idx).1]

@[simp] lemma today_insertNew (idx : Index) (t : Task) : (idx.insertNew t).today = idx.today := by
  rw [insertNew, today_store, (frame_enterNew t.id (t.facets idx.today) idx).2.1]

@[simp] lemma get?_insertNew (idx : Index) (t : Task) (id : TaskId) :
    (idx.insertNew t).get? id = if id = t.id then some t else idx.get? id := by
  rw [insertNew, get?_store]
  simp only [get?, (frame_enterNew t.id (t.facets idx.today) idx).2.2]

@[simp] lemma shard_change (idx : Index) (before : Task) (e : ChangeEntry) :
    (idx.change before e).shard = idx.shard := by
  rw [change, shard_store, (frame_moves e.after.id (movesOf idx.today before e) idx).1]

@[simp] lemma today_change (idx : Index) (before : Task) (e : ChangeEntry) :
    (idx.change before e).today = idx.today := by
  rw [change, today_store, (frame_moves e.after.id (movesOf idx.today before e) idx).2.1]

@[simp] lemma get?_change (idx : Index) (before : Task) (e : ChangeEntry) (id : TaskId) :
    (idx.change before e).get? id = if id = e.after.id then some e.after else idx.get? id := by
  rw [change, get?_store]
  simp only [get?, (frame_moves e.after.id (movesOf idx.today before e) idx).2.2]

@[simp] lemma shard_applyEntry (idx : Index) (e : ChangeEntry) :
    (idx.applyEntry e).1.shard = idx.shard := by
  generalize h : idx.applyEntry e = result
  cases applies h <;> simp

@[simp] lemma today_applyEntry (idx : Index) (e : ChangeEntry) :
    (idx.applyEntry e).1.today = idx.today := by
  generalize h : idx.applyEntry e = result
  cases applies h <;> simp

@[simp] lemma shard_accept (idx : Index) (t : Task) : (idx.accept t).shard = idx.shard := by
  unfold accept
  split <;> simp

@[simp] lemma today_accept (idx : Index) (t : Task) : (idx.accept t).today = idx.today := by
  unfold accept
  split <;> simp

/-! ### Integrity -/

def Fitted (idx : Index) : Prop :=
  idx.slots.size = 0 ∨ ∃ id t, idx.get? id = some t ∧ idx.slots.size = Index.room id.toNat

/-- The slots are in order, and the buckets are sets of the ids of stored tasks. -/
structure Sound (idx : Index) : Prop where
  placed : idx.Placed
  owned : ∀ id t, idx.get? id = some t → idx.Belongs t
  bucket : ∀ f, (idx.bucket f).Sound
  filled : ∀ f, ∀ id ∈ idx.bucket f, ∃ t, idx.get? id = some t
  fitted : idx.Fitted

lemma sound_start (shard : ShardKey) (today : Date) : ({ shard, today } : Index).Sound where
  placed n t h := by simp at h
  owned id t h := by simp [get?] at h
  bucket f := by simpa [Index.bucket] using IdSet.sound_empty
  filled f id h := by simp [Index.bucket] at h
  fitted := .inl rfl

lemma Fitted.of_slots_eq {idx' : Index} (h : idx.Fitted) (hslots : idx'.slots = idx.slots) :
    idx'.Fitted := by
  simp only [Fitted, get?, hslots] at h ⊢
  exact h

lemma Fitted.store (h : idx.Fitted) (t : Task) : (idx.store t).Fitted := by
  right
  rw [size_store]
  split
  · next hlt =>
    rcases h with h0 | ⟨id, u, hu, hsize⟩
    · omega
    · refine ⟨id, if id = t.id then t else u, ?_, hsize⟩
      rw [get?_store]
      split
      · rfl
      · exact hu
  · exact ⟨t.id, t, by simp, rfl⟩

namespace Sound

lemma not_mem_of_free (h : idx.Sound) (hfree : idx.get? id = none) : id ∉ idx.bucket f := by
  intro hmem
  obtain ⟨t, ht⟩ := h.filled f id hmem
  rw [hfree] at ht
  cases ht

lemma bucket_insertNew (h : idx.Sound) (hb : idx.Belongs t) (hfree : idx.get? t.id = none)
    (f : Facet) : ((idx.insertNew t).bucket f).Sound ∧
      ∀ x, x ∈ (idx.insertNew t).bucket f ↔
        x ∈ idx.bucket f ∨ (x = t.id ∧ f ∈ t.facets idx.today) := by
  rw [Index.insertNew, bucket_store]
  exact bucket_enterNew_all h.bucket hb.2.1 (Facet.nodup_facets t idx.today)
    (fun _ _ => h.not_mem_of_free hfree) f

lemma bucket_change (h : idx.Sound) (hb : idx.Belongs e.after) (before : Task) (f : Facet) :
    ((idx.change before e).bucket f).Sound ∧
      ∀ x, x ∈ (idx.change before e).bucket f ↔
        if x = e.after.id then
          (Move.outcome? f (movesOf idx.today before e)).elim (e.after.id ∈ idx.bucket f) (· = true)
        else x ∈ idx.bucket f := by
  rw [Index.change, bucket_store]
  exact bucket_moves h.bucket hb.2.1 (movesOf idx.today before e) f

lemma insertNew (h : idx.Sound) (hb : idx.Belongs t) (hfree : idx.get? t.id = none) :
    (idx.insertNew t).Sound where
  placed := (h.placed.of_slots_eq (frame_enterNew t.id (t.facets idx.today) idx).2.2).store t
  owned id u hu := by
    rw [get?_insertNew] at hu
    split at hu
    · cases hu; simpa [Belongs] using hb
    · simpa [Belongs] using h.owned id u hu
  bucket f := (h.bucket_insertNew hb hfree f).1
  filled f id hid := by
    rw [get?_insertNew]
    split
    · exact ⟨t, rfl⟩
    · next hne =>
      rcases ((h.bucket_insertNew hb hfree f).2 id).1 hid with hid | ⟨rfl, -⟩
      · exact h.filled f id hid
      · exact absurd rfl hne
  fitted := (h.fitted.of_slots_eq (frame_enterNew t.id (t.facets idx.today) idx).2.2).store t

lemma change (h : idx.Sound) (hb : idx.Belongs e.after) (before : Task) :
    (idx.change before e).Sound where
  placed :=
    (h.placed.of_slots_eq (frame_moves e.after.id (movesOf idx.today before e) idx).2.2).store e.after
  owned id u hu := by
    rw [get?_change] at hu
    split at hu
    · cases hu; simpa [Belongs] using hb
    · simpa [Belongs] using h.owned id u hu
  bucket f := (h.bucket_change hb before f).1
  filled f id hid := by
    rw [get?_change]
    split
    · exact ⟨e.after, rfl⟩
    · next hne =>
      have := ((h.bucket_change hb before f).2 id).1 hid
      rw [if_neg hne] at this
      exact h.filled f id this
  fitted :=
    (h.fitted.of_slots_eq (frame_moves e.after.id (movesOf idx.today before e) idx).2.2).store e.after

/-- No entry, whatever its tags, breaks an index. -/
lemma applyEntry (h : idx.Sound) (e : ChangeEntry) : (idx.applyEntry e).1.Sound := by
  generalize heq : idx.applyEntry e = result
  cases applies heq with
  | foreign | gone | stale => exact h
  | new hb hfree ha => exact h.insertNew hb hfree
  | news before hb hget hrev => exact h.change hb before

end Sound

/-! ### Loading and applying -/

def absorb (idx : Index) (es : List ChangeEntry) : Index :=
  es.foldl (fun idx e => (idx.applyEntry e).1) idx

@[simp] lemma absorb_nil (idx : Index) : idx.absorb [] = idx := rfl

@[simp] lemma absorb_cons (idx : Index) (e : ChangeEntry) (es : List ChangeEntry) :
    idx.absorb (e :: es) = (idx.applyEntry e).1.absorb es := rfl

lemma absorb_append (idx : Index) (es fs : List ChangeEntry) :
    idx.absorb (es ++ fs) = (idx.absorb es).absorb fs := by
  simp [absorb, List.foldl_append]

lemma applyBatch_fst (idx : Index) (batch : ChangeBatch) :
    (idx.applyBatch batch).1 = idx.absorb batch.entries := by
  have h : ∀ (es : List ChangeEntry) (state : Index × Tally),
      (es.foldl applyCounted state).1 = state.1.absorb es := by
    intro es
    induction es with
    | nil => intro state; rfl
    | cons e es ih =>
      intro state
      rw [List.foldl_cons, ih, absorb_cons]
      rfl
  exact h batch.entries (idx, {})

def applyBatches (idx : Index) (batches : List ChangeBatch) : Index :=
  batches.foldl (fun idx batch => (idx.applyBatch batch).1) idx

lemma applyBatches_eq (idx : Index) (batches : List ChangeBatch) :
    idx.applyBatches batches = idx.absorb (batches.flatMap (·.entries)) := by
  induction batches generalizing idx with
  | nil => rfl
  | cons batch batches ih =>
    rw [List.flatMap_cons, absorb_append, ← applyBatch_fst, ← ih]
    rfl

@[simp] lemma shard_absorb (idx : Index) (es : List ChangeEntry) :
    (idx.absorb es).shard = idx.shard := by
  induction es generalizing idx with
  | nil => rfl
  | cons e es ih => rw [absorb_cons, ih, shard_applyEntry]

@[simp] lemma today_absorb (idx : Index) (es : List ChangeEntry) :
    (idx.absorb es).today = idx.today := by
  induction es generalizing idx with
  | nil => rfl
  | cons e es ih => rw [absorb_cons, ih, today_applyEntry]

lemma accept_cases (idx : Index) (t : Task) :
    idx.accept t = idx ∨ (idx.accept t = idx.insertNew t ∧ t.archived = false ∧ idx.Belongs t ∧
      idx.get? t.id = none) := by
  unfold accept
  split
  · exact .inl rfl
  · next h =>
    simp only [not_or, Bool.not_eq_true, ne_eq, not_not, Option.isSome_eq_false_iff,
      Option.isNone_iff_eq_none] at h
    exact .inr ⟨rfl, h.1, ⟨h.2.1, h.2.2.1⟩, h.2.2.2⟩

def Takes (shard : ShardKey) (t : Task) : Prop :=
  t.archived = false ∧ t.shard = shard ∧ t.HasIndexableId

instance (shard : ShardKey) (t : Task) : Decidable (Takes shard t) :=
  inferInstanceAs (Decidable (_ ∧ _))

lemma get?_accept (idx : Index) (t : Task) (id : TaskId) :
    (idx.accept t).get? id =
      (idx.get? id).or (if t.id = id ∧ Takes idx.shard t then some t else none) := by
  unfold accept
  split
  · next h =>
    by_cases hid : t.id = id
    · subst hid
      cases hget : idx.get? t.id with
      | some u => simp
      | none =>
        simp only [hget, Option.isSome_none, Bool.false_eq_true, or_false] at h
        have htakes : ¬Takes idx.shard t := by
          unfold Takes
          grind
        simp [htakes]
    · simp [hid]
  · next h =>
    simp only [not_or, Bool.not_eq_true, ne_eq, not_not, Option.isSome_eq_false_iff,
      Option.isNone_iff_eq_none] at h
    obtain ⟨ha, hshard, hindexable, hfree⟩ := h
    rw [get?_insertNew]
    by_cases hid : id = t.id
    · simp [hid, hfree, Takes, ha, hshard, hindexable]
    · simp [hid, Ne.symm hid]

/-- Loading keeps the first task that may be taken under each id. -/
lemma get?_load (shard : ShardKey) (today : Date) (scanned : List Task) (id : TaskId) :
    (load shard today scanned).get? id = scanned.find? fun t => t.id = id ∧ Takes shard t := by
  have hfold : ∀ (scanned : List Task) (idx : Index), idx.shard = shard →
      (scanned.foldl accept idx).get? id =
        (idx.get? id).or (scanned.find? fun t => t.id = id ∧ Takes shard t) := by
    intro scanned
    induction scanned with
    | nil => intro idx _; simp
    | cons t scanned ih =>
      intro idx hshard
      rw [List.foldl_cons, ih _ ((shard_accept idx t).trans hshard), get?_accept, hshard,
        Option.or_assoc, List.find?_cons]
      by_cases htakes : t.id = id ∧ Takes shard t <;> simp [htakes]
  rw [load, hfold scanned { shard, today } rfl]
  simp [get?]

lemma Sound.accept (h : idx.Sound) (t : Task) : (idx.accept t).Sound := by
  rcases accept_cases idx t with heq | ⟨heq, -, hb, hfree⟩
  · rwa [heq]
  · rw [heq]
    exact h.insertNew hb hfree

lemma load_induction {motive : Index → Prop} {shard : ShardKey} {today : Date} (scanned : List Task)
    (start : motive { shard, today }) (step : ∀ idx t, motive idx → motive (idx.accept t)) :
    motive (load shard today scanned) := by
  unfold load
  generalize ({ shard, today } : Index) = idx at start
  induction scanned generalizing idx with
  | nil => exact start
  | cons t scanned ih => exact ih _ (step idx t start)

lemma shard_load (shard : ShardKey) (today : Date) (scanned : List Task) :
    (load shard today scanned).shard = shard :=
  load_induction (motive := fun idx => idx.shard = shard) scanned rfl
    fun idx t h => by rw [shard_accept, h]

lemma today_load (shard : ShardKey) (today : Date) (scanned : List Task) :
    (load shard today scanned).today = today :=
  load_induction (motive := fun idx => idx.today = today) scanned rfl
    fun idx t h => by rw [today_accept, h]

lemma sound_load (shard : ShardKey) (today : Date) (scanned : List Task) :
    (load shard today scanned).Sound :=
  load_induction (motive := Sound) scanned (sound_start shard today) fun _ t h => h.accept t

lemma Sound.absorb (h : idx.Sound) (es : List ChangeEntry) : (idx.absorb es).Sound := by
  induction es generalizing idx with
  | nil => exact h
  | cons e es ih => exact ih (h.applyEntry e)

end TaskIndex.Index
