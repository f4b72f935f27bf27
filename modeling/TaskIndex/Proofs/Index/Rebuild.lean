import Mathlib.Data.List.Dedup
import TaskIndex.Index.Stats
import TaskIndex.Proofs.Index.Coverage
import TaskIndex.Proofs.Index.Integrity

/-!
Keeping an index up to date is as good as building it anew.

An index is faithful when every bucket holds the ids of the stored tasks that carry its facet and no
others. Loading makes it so. An entry whose tags cover what has changed keeps it so: where a tag speaks
of a facet the id ends up where the new task belongs, and where none does the old and the new task
agree. What the occupancy counts then follows from the stored tasks alone.
-/

namespace TaskIndex

namespace Index

variable {idx : Index} {id : TaskId} {t before : Task} {e : ChangeEntry} {f : Facet}

/-- Every bucket holds the ids of the stored tasks that carry its facet, and no others. -/
def Faithful (idx : Index) : Prop :=
  ∀ f id, id ∈ idx.bucket f ↔ ∃ t, idx.get? id = some t ∧ f ∈ t.facets idx.today

/-- If the entry is news about a known task, its tags cover what has changed. -/
def Covers (idx : Index) (e : ChangeEntry) : Prop :=
  ∀ before, idx.Belongs e.after → idx.get? e.after.id = some before →
    before.revision < e.after.revision → Covered idx.today before e.after e.operations

/-- Every entry, when its turn comes, covers what it changes. -/
def CoveredRun (idx : Index) : List ChangeEntry → Prop
  | [] => True
  | e :: es => idx.Covers e ∧ CoveredRun (idx.applyEntry e).1 es

/-! ### Faithful from entry to entry -/

lemma faithful_start (shard : ShardKey) (today : Date) : ({ shard, today } : Index).Faithful := by
  intro f id
  simp [Index.bucket, get?]

lemma Faithful.insertNew (hf : idx.Faithful) (h : idx.Sound) (hb : idx.Belongs t)
    (hfree : idx.get? t.id = none) : (idx.insertNew t).Faithful := by
  intro f id
  rw [(h.bucket_insertNew hb hfree f).2, get?_insertNew, today_insertNew]
  by_cases hid : id = t.id
  · subst hid
    simp [h.not_mem_of_free hfree]
  · simp [hid, hf f id]

lemma Faithful.change (hf : idx.Faithful) (h : idx.Sound) (hb : idx.Belongs e.after)
    (hget : idx.get? e.after.id = some before)
    (hcov : Covered idx.today before e.after e.operations) : (idx.change before e).Faithful := by
  intro f id
  rw [(h.bucket_change hb before f).2, get?_change, today_change]
  by_cases hid : id = e.after.id
  · subst hid
    simp only [if_true, Option.some.injEq, exists_eq_left']
    cases hout : Move.outcome? f (movesOf idx.today before e) with
    | some b => exact settle_flatMap idx.today before e.after e.operations f b hout
    | none =>
      have hsame : f ∈ before.facets idx.today ↔ f ∈ e.after.facets idx.today := by
        by_contra hdiff
        have := Move.outcome?_isSome_of_speaks (hcov.speaks hdiff)
        rw [movesOf] at hout
        simp [hout] at this
      rw [Option.elim_none, hf f e.after.id, ← hsame]
      simp [hget]
  · simp only [hid, if_false]
    exact hf f id

lemma Faithful.applyEntry (hf : idx.Faithful) (h : idx.Sound) (hcov : idx.Covers e) :
    (idx.applyEntry e).1.Faithful := by
  generalize heq : idx.applyEntry e = result
  cases applies heq with
  | foreign | gone | stale => exact hf
  | new hb hfree ha => exact hf.insertNew h hb hfree
  | news before hb hget hrev => exact hf.change h hb hget (hcov before hb hget hrev)

lemma Faithful.absorb (hf : idx.Faithful) (h : idx.Sound) {es : List ChangeEntry}
    (hcov : idx.CoveredRun es) : (idx.absorb es).Faithful := by
  induction es generalizing idx with
  | nil => exact hf
  | cons e es ih => exact ih (hf.applyEntry h hcov.1) (h.applyEntry e) hcov.2

lemma faithful_load (shard : ShardKey) (today : Date) (scanned : List Task) :
    (load shard today scanned).Faithful := by
  refine (load_induction (motive := fun idx => idx.Sound ∧ idx.Faithful) scanned
    ⟨sound_start shard today, faithful_start shard today⟩ fun idx t ⟨h, hf⟩ => ?_).2
  refine ⟨h.accept t, ?_⟩
  rcases accept_cases idx t with heq | ⟨heq, -, hb, hfree⟩
  · rwa [heq]
  · rw [heq]
    exact hf.insertNew h hb hfree

/-! ### Counting again -/

/-- The occupancy that a look at the tasks alone comes to: the slots are the least power of two above
the largest id, and a facet is occupied when some task carries it. -/
def recount (shard : ShardKey) (today : Date) (tasks : List Task) : Stats where
  shard := shard
  tasks := tasks.length
  archived := tasks.countP (·.archived)
  slots := (tasks.map fun t => Index.room t.id.toNat).max?.getD 0
  occupied := Facet.properties.map fun p =>
    (p, (tasks.flatMap (·.facets today)).dedup.countP (·.property = p))

lemma Sound.size_eq (h : idx.Sound) :
    idx.slots.size = (idx.tasks.map fun t => Index.room t.id.toNat).max?.getD 0 := by
  apply Nat.le_antisymm
  · rcases h.fitted with h0 | ⟨id, t, ht, hsize⟩
    · omega
    · rw [hsize]
      refine List.le_max?_getD_of_mem (List.mem_map.2 ⟨t, h.placed.mem_tasks_of_get? ht, ?_⟩)
      rw [h.placed.id_eq ht]
  · cases hmax : (idx.tasks.map fun t => Index.room t.id.toNat).max? with
    | none => exact Nat.zero_le _
    | some m =>
      obtain ⟨t, ht, rfl⟩ := List.mem_map.1 (List.max?_eq_some_iff.1 hmax).1
      obtain ⟨hlt, -⟩ := Array.getElem?_eq_some_iff.1 (get?_eq_some_iff.1 (h.placed.mem_tasks.1 ht))
      refine room_le ?_ hlt
      rcases h.fitted with h0 | ⟨id, u, hu, hsize⟩
      · omega
      · rw [hsize]
        exact isPowerOfTwo_room _

lemma Sound.size_le (h : idx.Sound) : idx.slots.size ≤ UInt16.size := by
  rcases h.fitted with h0 | ⟨id, t, -, hsize⟩
  · omega
  · rw [hsize]
    exact room_le ⟨16, rfl⟩ id.toNat_lt

lemma listed_iff : (∃ ids, (f, ids) ∈ idx.buckets.toList ∧ ids.isEmpty = false) ↔
    (idx.bucket f).isEmpty = false := by
  simp only [Std.HashMap.mem_toList_iff_getElem?_eq_some, Index.bucket,
    Std.HashMap.getD_eq_getD_getElem?]
  cases idx.buckets[f]? <;> simp [IdSet.isEmpty, EmptyCollection.emptyCollection]

/-- The facets with an id behind them are the ones that some stored task carries. -/
lemma Faithful.occupied_iff (hf : idx.Faithful) (h : idx.Sound) :
    (idx.bucket f).isEmpty = false ↔ f ∈ idx.tasks.flatMap (·.facets idx.today) := by
  rw [(h.bucket f).not_isEmpty_iff, List.mem_flatMap]
  constructor
  · rintro ⟨id, hid⟩
    obtain ⟨t, ht, hcarried⟩ := (hf f id).1 hid
    exact ⟨t, h.placed.mem_tasks_of_get? ht, hcarried⟩
  · rintro ⟨t, ht, hcarried⟩
    exact ⟨t.id, (hf f t.id).2 ⟨t, h.placed.mem_tasks.1 ht, hcarried⟩⟩

lemma Faithful.occupied_eq (hf : idx.Faithful) (h : idx.Sound) (p : Property) :
    idx.occupied p = (idx.tasks.flatMap (·.facets idx.today)).dedup.countP (·.property = p) := by
  have hkeys : ((idx.buckets.toList.filter fun b => b.1.property = p && !b.2.isEmpty).map
      (·.1)).Perm ((idx.tasks.flatMap (·.facets idx.today)).dedup.filter (·.property = p)) := by
    -- neither list repeats a facet, so having the same members is enough
    refine (List.perm_ext_iff_of_nodup ?_ ((List.nodup_dedup _).filter _)).2 fun f => ?_
    · refine List.Pairwise.map _ (fun _ _ hne heq => ?_)
        (Std.HashMap.distinct_keys_toList.filter _)
      simp [heq] at hne
    · rw [List.mem_filter, List.mem_dedup, ← hf.occupied_iff h, ← listed_iff]
      simp only [List.mem_map, List.mem_filter, Prod.exists]
      grind
  rw [occupied, List.countP_eq_length_filter, List.countP_eq_length_filter, ← hkeys.length_eq,
    List.length_map]

lemma Faithful.stats_eq (hf : idx.Faithful) (h : idx.Sound) :
    idx.stats = recount idx.shard idx.today idx.tasks := by
  unfold stats recount
  rw [h.size_eq]
  simp only [hf.occupied_eq h]

/-! ### Building anew -/

def build (shard : ShardKey) (today : Date) (tasks : List Task) : Index :=
  tasks.foldl insertNew { shard, today }

/-- Taking in tasks of different ids, none of which is taken, keeps all that matters. -/
lemma insertNew_all {tasks : List Task} (hids : tasks.Pairwise fun a b => a.id ≠ b.id)
    (h : idx.Sound) (hf : idx.Faithful)
    (hnew : ∀ t ∈ tasks, idx.Belongs t ∧ idx.get? t.id = none) :
    (tasks.foldl insertNew idx).Sound ∧ (tasks.foldl insertNew idx).Faithful ∧
      (tasks.foldl insertNew idx).shard = idx.shard ∧
      (tasks.foldl insertNew idx).today = idx.today ∧
      ∀ id, (tasks.foldl insertNew idx).get? id = (tasks.find? (·.id = id)).or (idx.get? id) := by
  induction tasks generalizing idx with
  | nil => exact ⟨h, hf, rfl, rfl, fun id => by simp⟩
  | cons t tasks ih =>
    obtain ⟨hfirst, hrest⟩ := List.pairwise_cons.1 hids
    obtain ⟨hb, hfree⟩ := hnew t List.mem_cons_self
    have hnext : ∀ u ∈ tasks, (idx.insertNew t).Belongs u ∧ (idx.insertNew t).get? u.id = none := by
      intro u hu
      obtain ⟨hbu, hfreeu⟩ := hnew u (List.mem_cons_of_mem t hu)
      refine ⟨by simpa [Belongs] using hbu, ?_⟩
      rw [get?_insertNew, if_neg (hfirst u hu).symm, hfreeu]
    obtain ⟨hsound, hfaithful, hshard, htoday, hget⟩ :=
      ih hrest (h.insertNew hb hfree) (hf.insertNew h hb hfree) hnext
    refine ⟨hsound, hfaithful, by simpa using hshard, by simpa using htoday, fun id => ?_⟩
    rw [List.foldl_cons, hget, get?_insertNew, List.find?_cons]
    by_cases hid : id = t.id
    · have hnone : tasks.find? (·.id = id) = none := by
        refine List.find?_eq_none.2 fun u hu => ?_
        simpa [hid] using (hfirst u hu).symm
      rw [hnone, if_pos hid]
      simp [hid]
    · simp [hid, Ne.symm hid]

/-- Building the tasks of a sound index anew gives a sound and faithful index with the same slots. -/
lemma Sound.build_tasks (h : idx.Sound) :
    (build idx.shard idx.today idx.tasks).Sound ∧ (build idx.shard idx.today idx.tasks).Faithful ∧
      (build idx.shard idx.today idx.tasks).shard = idx.shard ∧
      (build idx.shard idx.today idx.tasks).today = idx.today ∧
      (build idx.shard idx.today idx.tasks).slots = idx.slots := by
  obtain ⟨hsound, hfaithful, hshard, htoday, hget⟩ := insertNew_all h.placed.tasks_ids_ne
    (sound_start idx.shard idx.today) (faithful_start idx.shard idx.today)
    fun t ht => ⟨h.owned t.id t (h.placed.mem_tasks.1 ht), by simp [get?]⟩
  have hsame : ∀ id, (build idx.shard idx.today idx.tasks).get? id = idx.get? id := fun id => by
    rw [build, hget, ← h.placed.get?_eq_find?]
    simp [get?]
  refine ⟨hsound, hfaithful, hshard, htoday, ?_⟩
  have htasks : (build idx.shard idx.today idx.tasks).tasks = idx.tasks :=
    hsound.placed.tasks_eq h.placed hsame
  have hsize : (build idx.shard idx.today idx.tasks).slots.size = idx.slots.size := by
    have := hsound.size_eq
    rwa [← build, htasks, ← h.size_eq] at this
  exact slots_ext hsize (hsize ▸ h.size_le) hsame

/-- **As good as built anew**: after loading from any scan and any batches whose tags cover what they
change, a bucket holds an id exactly when the stored task of the id carries the facet, archived or not;
the index has the slots and the buckets of one built anew from its tasks, and its occupancy is what
counting those tasks comes to. -/
theorem maintained_eq_rebuilt (shard : ShardKey) (today : Date) (scanned : List Task)
    (batches : List ChangeBatch)
    (hcov : (load shard today scanned).CoveredRun (batches.flatMap (·.entries))) :
    let idx := (load shard today scanned).applyBatches batches
    let anew := build shard today idx.tasks
    (∀ f id, (idx.bucket f).contains id = true ↔
      ∃ t, idx.get? id = some t ∧ f ∈ t.facets today) ∧
    (∀ f, (idx.bucket f).toList.Perm (anew.bucket f).toList) ∧
    idx.slots = anew.slots ∧ idx.stats = anew.stats ∧
    idx.stats = recount shard today idx.tasks := by
  intro idx anew
  have hidx : idx = (load shard today scanned).absorb (batches.flatMap (·.entries)) :=
    applyBatches_eq _ batches
  have hshard : idx.shard = shard := by rw [hidx, shard_absorb, shard_load]
  have htoday : idx.today = today := by rw [hidx, today_absorb, today_load]
  have hsound : idx.Sound := by
    rw [hidx]
    exact (sound_load shard today scanned).absorb _
  have hfaithful : idx.Faithful := by
    rw [hidx]
    exact (faithful_load shard today scanned).absorb (sound_load shard today scanned) hcov
  obtain ⟨hsound', hfaithful', hshard', htoday', hslots⟩ : anew.Sound ∧ anew.Faithful ∧
      anew.shard = shard ∧ anew.today = today ∧ anew.slots = idx.slots := by
    have := hsound.build_tasks
    rwa [hshard, htoday] at this
  have hget : ∀ id, anew.get? id = idx.get? id := fun id => by rw [get?, get?, hslots]
  have htasks : anew.tasks = idx.tasks := hsound'.placed.tasks_eq hsound.placed hget
  refine ⟨fun f id => ?_, fun f => ?_, hslots.symm, ?_, ?_⟩
  · rw [(hsound.bucket f).contains_iff, hfaithful f id, htoday]
  · refine (List.perm_ext_iff_of_nodup (hsound.bucket f).nodup (hsound'.bucket f).nodup).2
      fun id => ?_
    rw [← IdSet.mem_def, ← IdSet.mem_def, hfaithful f id, hfaithful' f id, htoday, htoday']
    simp only [hget]
  · rw [hfaithful.stats_eq hsound, hfaithful'.stats_eq hsound', hshard, htoday, hshard', htoday',
      htasks]
  · rw [hfaithful.stats_eq hsound, hshard, htoday]

def cedar : ShardKey := ⟨"cedar", by decide, by decide⟩

/-- A task that is resolved and moved to another area in one entry, with tags out of order, repeated
and foreign. -/
theorem maintained_eq_rebuilt_resolved :
    let today : Date := ⟨2026, 3, 1, by decide⟩
    let t := Task.fresh cedar 7 today
    let after := { t with status := .resolved, solver := some "ana", area := "lexer", revision := 2 }
    let e : ChangeEntry := ⟨some t, after, [.known .area, .ofText "shiny", .known .resolved, .known .area]⟩
    let batch : ChangeBatch := ⟨cedar, [e], by simp, by simp [ChangeEntry.shard, e, after, t, Task.fresh]⟩
    let idx := (load cedar today [t]).applyBatches [batch]
    (load cedar today [t]).CoveredRun [e] ∧ idx.stats = recount cedar today idx.tasks := by
  intro today t after e batch idx
  have hload : (load cedar today [t]).get? t.id = some t := by
    have hnew : ({ shard := cedar, today } : Index).accept t =
        ({ shard := cedar, today } : Index).insertNew t := by
      rw [accept, if_neg (by decide)]
    simp [load, hnew]
  have hcov : (load cedar today [t]).CoveredRun [e] := by
    refine ⟨fun before hb hget hrev => .inr ?_, trivial⟩
    rw [show e.after.id = t.id from rfl, hload] at hget
    obtain rfl := Option.some.inj hget
    exact
      { area := fun _ => by simp [e]
        version := fun h => absurd rfl h
        status := fun _ => by simp [Closing, e]
        solver := fun _ => by simp [Closing, e]
        participantLeft := fun _ hname => absurd hname List.not_mem_nil
        aspirantLeft := fun _ hname => absurd hname List.not_mem_nil
        participantJoined := fun _ hname => absurd hname List.not_mem_nil
        aspirantJoined := fun _ hname => absurd hname List.not_mem_nil
        watchers := fun h => absurd rfl h
        temperature := fun h => absurd rfl h
        reporter := rfl
        motive := rfl
        purpose := rfl
        predecessor := rfl
        origin := rfl
        serial := rfl }
  exact ⟨hcov, (maintained_eq_rebuilt cedar today [t] [batch] hcov).2.2.2.2⟩

end Index

end TaskIndex
