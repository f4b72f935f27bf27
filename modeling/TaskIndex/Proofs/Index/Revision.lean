import TaskIndex.Proofs.Index.Integrity
import TaskIndex.Proofs.Store

/-!
Revisions alone keep an index from falling behind.

Of every task there is a line of states, each of a larger revision than the one before. An index keeps
up with the states it has been shown when, at every id, it holds a state no older than those, or nothing
because a state no older than those is archived. Loading shows it the latest states at once; an entry
shows it one more state, and it does not matter whether that one comes late, twice, or after a load that
has seen it already.
-/

namespace TaskIndex

namespace Index

variable {past past' seen : List Task} {idx : Index} {e : ChangeEntry} {store : Store}

/-- Among the states that ever were, the index holds at every id one that is no older than the states
it was shown, or none because one that is no older is archived. -/
structure KeepsUp (past seen : List Task) (idx : Index) : Prop where
  held : ∀ id t, idx.get? id = some t → t ∈ past ∧ t.shard = idx.shard ∧ t.id = id ∧
    ∀ u ∈ seen, u.SamePlace t → u.revision ≤ t.revision
  gone : ∀ u ∈ seen, u.shard = idx.shard → idx.get? u.id = none →
    ∃ h ∈ past, h.SamePlace u ∧ h.archived = true ∧ u.revision ≤ h.revision

lemma KeepsUp.mono (h : idx.KeepsUp past seen) (hpast : past ⊆ past') : idx.KeepsUp past' seen where
  held id t ht := ⟨hpast (h.held id t ht).1, (h.held id t ht).2⟩
  gone u hu hshard hnone := by
    obtain ⟨a, ha, hrest⟩ := h.gone u hu hshard hnone
    exact ⟨a, hpast ha, hrest⟩

lemma KeepsUp.stored (h : idx.KeepsUp past seen) {idx' : Index} {t : Task} (hpast : t ∈ past)
    (hshard : t.shard = idx.shard) (hseen : ∀ u ∈ seen, u.SamePlace t → u.revision ≤ t.revision)
    (hshard' : idx'.shard = idx.shard)
    (hget : ∀ id, idx'.get? id = if id = t.id then some t else idx.get? id) :
    idx'.KeepsUp past (seen ++ [t]) where
  held id u hu := by
    rw [hget] at hu
    split at hu
    · next hid =>
      obtain rfl := Option.some.inj hu
      refine ⟨hpast, hshard.trans hshard'.symm, hid.symm, fun v hv hplace => ?_⟩
      rcases List.mem_append.1 hv with hv | hv
      · exact hseen v hv hplace
      · rw [List.mem_singleton.1 hv]
        exact UInt64.le_refl _
    · next hid =>
      obtain ⟨hu', hshardu, hidu, hnewest⟩ := h.held id u hu
      refine ⟨hu', hshardu.trans hshard'.symm, hidu, fun v hv hplace => ?_⟩
      rcases List.mem_append.1 hv with hv | hv
      · exact hnewest v hv hplace
      · rw [List.mem_singleton.1 hv] at hplace
        exact absurd (hplace.2.trans hidu).symm hid
  gone u hu hshardu hnone := by
    rw [hget] at hnone
    split at hnone
    · cases hnone
    · next hid =>
      rcases List.mem_append.1 hu with hu | hu
      · exact h.gone u hu (hshardu.trans hshard') hnone
      · exact absurd (congrArg Task.id (List.mem_singleton.1 hu)) hid

/-- Passing over a state that is archived and not held, or no newer than the one that is held. -/
lemma KeepsUp.passed (h : idx.KeepsUp past seen) {t : Task}
    (hheld : ∀ u, idx.get? t.id = some u → t.revision ≤ u.revision)
    (hgone : idx.get? t.id = none → t ∈ past ∧ t.archived = true) :
    idx.KeepsUp past (seen ++ [t]) where
  held id u hu := by
    obtain ⟨hu', hshardu, hidu, hnewest⟩ := h.held id u hu
    refine ⟨hu', hshardu, hidu, fun v hv hplace => ?_⟩
    rcases List.mem_append.1 hv with hv | hv
    · exact hnewest v hv hplace
    · obtain rfl := List.mem_singleton.1 hv
      exact hheld u (by rw [hplace.2, hidu, hu])
  gone u hu hshardu hnone := by
    rcases List.mem_append.1 hu with hu | hu
    · exact h.gone u hu hshardu hnone
    · obtain rfl := List.mem_singleton.1 hu
      exact ⟨u, (hgone hnone).1, ⟨rfl, rfl⟩, (hgone hnone).2, UInt64.le_refl _⟩

/-- **One more state shown**: an entry that is no older than what was shown before does its part,
whether it is applied, stale or rejected. -/
theorem KeepsUp.applyEntry (h : idx.KeepsUp past seen) (hpast : e.after ∈ past)
    (hb : idx.Belongs e.after)
    (hseen : ∀ u ∈ seen, u.SamePlace e.after → u.revision ≤ e.after.revision) :
    (idx.applyEntry e).1.KeepsUp past (seen ++ [e.after]) := by
  generalize heq : idx.applyEntry e = result
  cases applies heq with
  | foreign hforeign => exact absurd hb hforeign
  | gone _ hfree ha => exact h.passed (fun u hu => by simp [hfree] at hu) fun _ => ⟨hpast, ha⟩
  | new _ hfree ha => exact h.stored hpast hb.1 hseen (shard_insertNew _ _) (get?_insertNew _ _)
  | stale before _ hget hrev =>
    refine h.passed (fun u hu => ?_) fun hnone => by simp [hget] at hnone
    rwa [← Option.some.inj (hget.symm.trans hu)]
  | news before _ hget hrev =>
    exact h.stored hpast hb.1 hseen (shard_change _ _ _) (get?_change _ _ _)

lemma KeepsUp.absorb {es : List ChangeEntry} (h : idx.KeepsUp past seen)
    (hpast : ∀ e ∈ es, e.after ∈ past) (hb : ∀ e ∈ es, idx.Belongs e.after)
    (horder : (seen ++ es.map (·.after)).Pairwise fun t u => t.SamePlace u → t.revision ≤ u.revision) :
    (idx.absorb es).KeepsUp past (seen ++ es.map (·.after)) := by
  induction es generalizing idx seen with
  | nil => simpa using h
  | cons e es ih =>
    have hsplit : seen ++ (e :: es).map (·.after) = (seen ++ [e.after]) ++ es.map (·.after) := by simp
    have hseen : ∀ u ∈ seen, u.SamePlace e.after → u.revision ≤ e.after.revision := fun u hu =>
      (List.pairwise_append.1 horder).2.2 u hu e.after (by simp)
    rw [hsplit] at horder ⊢
    refine ih (h.applyEntry (hpast e (by simp)) (hb e (by simp)) hseen) ?_ ?_ horder
    · exact fun e' he' => hpast e' (List.mem_cons_of_mem e he')
    · intro e' he'
      simpa [Belongs] using hb e' (List.mem_cons_of_mem e he')

/-! ### Loading -/

/-- Loading shows the index the latest state of every task at once. -/
lemma keepsUp_load (shard : ShardKey) (today : Date) (hpast : ∀ t ∈ store.tasks, t ∈ past)
    (hids : ∀ t ∈ store.tasks, t.HasIndexableId)
    (hnewest : ∀ u ∈ seen, ∃ t, store.get? u.shard u.id = some t ∧ u.revision ≤ t.revision) :
    (load shard today (store.live shard)).KeepsUp past seen where
  held id t ht := by
    rw [get?_load] at ht
    obtain ⟨hid, htakes⟩ : t.id = id ∧ Takes shard t := by simpa using List.find?_some ht
    have hget := (Store.mem_live.1 (List.mem_of_find?_eq_some ht)).1
    refine ⟨hpast t (Store.get?_eq_some_iff.1 hget).1, ?_, hid, fun u hu hplace => ?_⟩
    · rw [htakes.2.1, shard_load]
    · obtain ⟨v, hv, hrev⟩ := hnewest u hu
      rw [hplace.1, hplace.2, htakes.2.1, hget] at hv
      rwa [Option.some.inj hv]
  gone u hu hshard hnone := by
    rw [shard_load] at hshard
    rw [get?_load] at hnone
    obtain ⟨t, hget, hrev⟩ := hnewest u hu
    obtain ⟨ht, hplace⟩ := Store.get?_eq_some_iff.1 hget
    refine ⟨t, hpast t ht, hplace, ?_, hrev⟩
    by_contra harchived
    have hlive : t ∈ store.live shard := by
      rw [Store.mem_live, ← hshard, hplace.2]
      exact ⟨hget, by simpa using harchived⟩
    have htakes : Takes shard t :=
      ⟨by simpa using harchived, hplace.1.trans hshard, hids t ht⟩
    simpa [hplace.2, htakes] using List.find?_eq_none.1 hnone t hlive

/-! ### Catching up -/

lemma eq_of_revision (hrising : past.Pairwise fun t u => t.SamePlace u → t.revision < u.revision)
    {t u : Task} (ht : t ∈ past) (hu : u ∈ past) (hplace : t.SamePlace u) (hle : t.revision ≤ u.revision)
    (hge : u.revision ≤ t.revision) : t = u := by
  by_contra hne
  have hdiffer : past.Pairwise fun t u => t.SamePlace u → t.revision ≠ u.revision :=
    hrising.imp fun hlt hplace heq => UInt64.lt_irrefl _ (heq ▸ hlt hplace)
  have : Std.Symm fun t u : Task => t.SamePlace u → t.revision ≠ u.revision :=
    ⟨fun _ _ h hplace => (h hplace.symm).symm⟩
  exact List.Pairwise.forall hdiffer ht hu hne hplace (UInt64.le_antisymm hle hge)

/-- An index that keeps up with the latest states holds what the store holds, archived tasks aside. -/
lemma KeepsUp.agrees (h : idx.KeepsUp past seen)
    (hrising : past.Pairwise fun t u => t.SamePlace u → t.revision < u.revision)
    (hpast : ∀ t ∈ store.tasks, t ∈ past)
    (hnewest : ∀ u ∈ past, ∃ t, store.get? u.shard u.id = some t ∧ u.revision ≤ t.revision)
    (hseen : ∀ t ∈ store.tasks, t.shard = idx.shard → t ∈ seen) (id : TaskId) :
    (∀ t, store.get? idx.shard id = some t → t.archived = false → idx.get? id = some t) ∧
    (∀ t, store.get? idx.shard id = some t → t.archived = true →
      idx.get? id = some t ∨ idx.get? id = none) ∧
    (store.get? idx.shard id = none → idx.get? id = none) := by
  have hlatest : ∀ t u, store.get? idx.shard id = some t → u ∈ past → u.SamePlace t →
      t.revision ≤ u.revision → u = t := by
    intro t u ht hu hplace hle
    obtain ⟨hmem, hshard, hid⟩ := Store.get?_eq_some_iff.1 ht
    obtain ⟨v, hv, hrev⟩ := hnewest u hu
    rw [hplace.1, hplace.2, hshard, hid, ht] at hv
    obtain rfl := Option.some.inj hv
    exact eq_of_revision hrising hu (hpast t hmem) hplace hrev hle
  have hheld : ∀ t u, store.get? idx.shard id = some t → idx.get? id = some u → u = t := by
    intro t u ht hu
    obtain ⟨hmem, hshard, hid⟩ := Store.get?_eq_some_iff.1 ht
    obtain ⟨hpastu, hshardu, hidu, hnewestu⟩ := h.held id u hu
    have hplace : t.SamePlace u := ⟨hshard.trans hshardu.symm, hid.trans hidu.symm⟩
    exact hlatest t u ht hpastu hplace.symm (hnewestu t (hseen t hmem hshard) hplace)
  refine ⟨fun t ht hlive => ?_, fun t ht _ => ?_, fun hnone => ?_⟩
  · cases hget : idx.get? id with
    | some u => rw [hheld t u ht hget]
    | none =>
      obtain ⟨hmem, hshard, hid⟩ := Store.get?_eq_some_iff.1 ht
      obtain ⟨a, ha, hplace, harchived, hrev⟩ :=
        h.gone t (hseen t hmem hshard) hshard (by rwa [hid])
      rw [hlatest t a ht ha hplace hrev, hlive] at harchived
      cases harchived
  · cases hget : idx.get? id with
    | some u => exact .inl (by rw [hheld t u ht hget])
    | none => exact .inr rfl
  · cases hget : idx.get? id with
    | none => rfl
    | some u =>
      obtain ⟨hpastu, hshardu, hidu, -⟩ := h.held id u hget
      obtain ⟨v, hv, -⟩ := hnewest u hpastu
      rw [hshardu, hidu, hnone] at hv
      cases hv

end Index

end TaskIndex
