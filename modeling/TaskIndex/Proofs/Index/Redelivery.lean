import TaskIndex.Proofs.Index.Rebuild
import TaskIndex.Proofs.Query.Order

/-!
Changes that come again.

An entry that is not applied leaves the index as it is, and one that is applied touches its own id only
and raises its revision. So an index only moves forward, and it stays past every entry that it was once
shown: a state as new as that of the entry is held, or nothing is and the entry brings nothing in. Showing
it the entry again does nothing, at any later time and in whatever company.
-/

namespace TaskIndex.Index

variable {idx idx' idx'' : Index} {e e' : ChangeEntry} {es : List ChangeEntry} {id : TaskId}

/-! ### One entry -/

lemma applyEntry_eq_self (h : (idx.applyEntry e).2 ≠ .applied) : (idx.applyEntry e).1 = idx := by
  generalize heq : idx.applyEntry e = result at h ⊢
  cases applies heq with
  | foreign | gone | stale => rfl
  | new | news => exact absurd rfl h

/-- An entry concerns its own id only, in the slots and in every bucket. -/
lemma Sound.applyEntry_of_ne (h : idx.Sound) (hid : id ≠ e.after.id) :
    (idx.applyEntry e).1.get? id = idx.get? id ∧
      ∀ f, id ∈ (idx.applyEntry e).1.bucket f ↔ id ∈ idx.bucket f := by
  generalize heq : idx.applyEntry e = result
  cases applies heq with
  | foreign | gone | stale => exact ⟨rfl, fun _ => Iff.rfl⟩
  | new hb hfree =>
    refine ⟨by rw [get?_insertNew, if_neg hid], fun f => ?_⟩
    rw [(h.bucket_insertNew hb hfree f).2 id]
    simp [hid]
  | news before hb =>
    refine ⟨by rw [get?_change, if_neg hid], fun f => ?_⟩
    rw [(h.bucket_change hb before f).2 id, if_neg hid]

/-! ### Moving forward -/

/-- The second index holds every id that the first one holds, with no smaller revision. -/
def Extends (idx idx' : Index) : Prop :=
  ∀ id t, idx.get? id = some t → ∃ u, idx'.get? id = some u ∧ t.revision ≤ u.revision

lemma Extends.refl (idx : Index) : idx.Extends idx := fun _ t ht => ⟨t, ht, UInt64.le_refl _⟩

lemma Extends.trans (h : idx.Extends idx') (h' : idx'.Extends idx'') : idx.Extends idx'' := by
  intro id t ht
  obtain ⟨u, hu, hle⟩ := h id t ht
  obtain ⟨v, hv, hle'⟩ := h' id u hu
  exact ⟨v, hv, UInt64.le_trans hle hle'⟩

/-- The slots are as they were, but for one id, which is new or has risen. -/
lemma extends_of_get? {t : Task} (hget : ∀ id, idx'.get? id = if id = t.id then some t else idx.get? id)
    (hrises : ∀ u, idx.get? t.id = some u → u.revision ≤ t.revision) : idx.Extends idx' := by
  intro id u hu
  by_cases hid : id = t.id
  · subst hid
    exact ⟨t, by rw [hget, if_pos rfl], hrises u hu⟩
  · exact ⟨u, by rw [hget, if_neg hid, hu], UInt64.le_refl _⟩

lemma extends_applyEntry (idx : Index) (e : ChangeEntry) : idx.Extends (idx.applyEntry e).1 := by
  generalize heq : idx.applyEntry e = result
  cases applies heq with
  | foreign | gone | stale => exact .refl idx
  | new _ hfree =>
    refine extends_of_get? (get?_insertNew _ _) fun u hu => ?_
    rw [hfree] at hu
    cases hu
  | news before _ hget hrev =>
    refine extends_of_get? (get?_change _ _ _) fun u hu => ?_
    obtain rfl : before = u := Option.some.inj (hget.symm.trans hu)
    exact UInt64.le_of_lt hrev

lemma extends_absorb (idx : Index) (es : List ChangeEntry) : idx.Extends (idx.absorb es) := by
  induction es generalizing idx with
  | nil => exact .refl idx
  | cons e es ih => exact (extends_applyEntry idx e).trans (ih _)

/-! ### What is no news any more -/

/-- The index would not apply the entry: it holds a state that is no older, it holds none and the entry
is archived, or the entry is not for it. -/
def IsPast (idx : Index) (e : ChangeEntry) : Prop :=
  idx.Belongs e.after →
    (∃ u, idx.get? e.after.id = some u ∧ e.after.revision ≤ u.revision) ∨
      (idx.get? e.after.id = none ∧ e.after.archived = true)

lemma IsPast.not_applied (h : idx.IsPast e) : (idx.applyEntry e).2 ≠ .applied := by
  generalize heq : idx.applyEntry e = result
  cases applies heq with
  | foreign | gone | stale => exact fun hout => nomatch hout
  | new hb hfree ha =>
    rcases h hb with ⟨u, hu, -⟩ | ⟨-, ha'⟩
    · rw [hfree] at hu
      cases hu
    · rw [ha] at ha'
      cases ha'
  | news before hb hget hrev =>
    rcases h hb with ⟨u, hu, hle⟩ | ⟨hnone, -⟩
    · obtain rfl : before = u := Option.some.inj (hget.symm.trans hu)
      exact absurd hle (UInt64.not_le.2 hrev)
    · rw [hget] at hnone
      cases hnone

/-- The index is past an entry as soon as it was shown it, whatever came of it. -/
lemma isPast_applyEntry (idx : Index) (e : ChangeEntry) : (idx.applyEntry e).1.IsPast e := by
  generalize heq : idx.applyEntry e = result
  cases applies heq with
  | foreign hforeign => exact fun hb => absurd hb hforeign
  | gone _ hfree ha => exact fun _ => .inr ⟨hfree, ha⟩
  | new => exact fun _ => .inl ⟨e.after, by rw [get?_insertNew, if_pos rfl], UInt64.le_refl _⟩
  | stale before _ hget hrev => exact fun _ => .inl ⟨before, hget, hrev⟩
  | news => exact fun _ => .inl ⟨e.after, by rw [get?_change, if_pos rfl], UInt64.le_refl _⟩

/-- It stays past an entry when it is shown another one that is no older: an archived task that it did
not take in may come in later, but only in a later state. -/
lemma IsPast.applyEntry (h : idx.IsPast e)
    (hrising : e.after.SamePlace e'.after → e.after.revision ≤ e'.after.revision) :
    (idx.applyEntry e').1.IsPast e := by
  intro hb
  have hb : idx.Belongs e.after := by simpa [Belongs] using hb
  rcases h hb with ⟨u, hu, hle⟩ | ⟨hnone, ha⟩
  · obtain ⟨v, hv, hle'⟩ := extends_applyEntry idx e' _ u hu
    exact .inl ⟨v, hv, UInt64.le_trans hle hle'⟩
  · generalize heq : idx.applyEntry e' = result
    cases applies heq with
    | foreign | gone | stale => exact .inr ⟨hnone, ha⟩
    | new hb' =>
      by_cases hid : e.after.id = e'.after.id
      · exact .inl ⟨e'.after, by rw [get?_insertNew, if_pos hid], hrising ⟨hb.1.trans hb'.1.symm, hid⟩⟩
      · exact .inr ⟨by rw [get?_insertNew, if_neg hid, hnone], ha⟩
    | news before _ hget =>
      have hid : e.after.id ≠ e'.after.id := by
        intro hid
        rw [hid, hget] at hnone
        cases hnone
      exact .inr ⟨by rw [get?_change, if_neg hid, hnone], ha⟩

/-- In every task the revisions rise strictly from entry to entry. -/
def Rising (es : List ChangeEntry) : Prop :=
  es.Pairwise fun a b => a.after.SamePlace b.after → a.after.revision < b.after.revision

/-- After entries that rise the index is past each of them, and past what it was past before. -/
lemma isPast_absorb (past : List ChangeEntry) (hpast : ∀ e ∈ past, idx.IsPast e)
    (hrising : Rising (past ++ es)) : ∀ e ∈ past ++ es, (idx.absorb es).IsPast e := by
  induction es generalizing idx past with
  | nil => simpa using hpast
  | cons e es ih =>
    have hsplit : past ++ e :: es = (past ++ [e]) ++ es := by simp
    rw [hsplit] at hrising ⊢
    refine ih (past ++ [e]) (fun e' he' => ?_) hrising
    rcases List.mem_append.1 he' with he' | he'
    · have hbefore := (List.pairwise_append.1 (List.pairwise_append.1 hrising).1).2.2 e' he' e (by simp)
      exact (hpast e' he').applyEntry fun hplace => UInt64.le_of_lt (hbefore hplace)
    · rw [List.mem_singleton.1 he']
      exact isPast_applyEntry idx e

lemma IsPast.applyCounted (h : idx.IsPast e) (tally : Tally) :
    ∃ tally', Index.applyCounted (idx, tally) e = (idx, tally') ∧ tally'.applied = tally.applied := by
  have hout := h.not_applied
  refine ⟨(Index.applyCounted (idx, tally) e).2, Prod.ext (applyEntry_eq_self hout) rfl, ?_⟩
  simp only [Index.applyCounted]
  cases heq : (idx.applyEntry e).2 with
  | applied => exact absurd heq hout
  | stale | rejected => rfl

lemma applyBatch_of_isPast {batch : ChangeBatch} (h : ∀ e ∈ batch.entries, idx.IsPast e) :
    (idx.applyBatch batch).1 = idx ∧ (idx.applyBatch batch).2.applied = 0 := by
  have hfold : ∀ (es : List ChangeEntry) (tally : Tally), (∀ e ∈ es, idx.IsPast e) →
      (es.foldl Index.applyCounted (idx, tally)).1 = idx ∧
        (es.foldl Index.applyCounted (idx, tally)).2.applied = tally.applied := by
    intro es
    induction es with
    | nil => exact fun _ _ => ⟨rfl, rfl⟩
    | cons e es ih =>
      intro tally hes
      obtain ⟨tally', hstep, happlied⟩ := (hes e List.mem_cons_self).applyCounted tally
      rw [List.foldl_cons, hstep, ← happlied]
      exact ih tally' fun e' he' => hes e' (List.mem_cons_of_mem e he')
  exact hfold batch.entries {} h

lemma applyBatches_of_isPast {batches : List ChangeBatch}
    (h : ∀ batch ∈ batches, ∀ e ∈ batch.entries, idx.IsPast e) : idx.applyBatches batches = idx := by
  induction batches with
  | nil => rfl
  | cons batch batches ih =>
    rw [applyBatches, List.foldl_cons, (applyBatch_of_isPast (h batch List.mem_cons_self)).1]
    exact ih fun b hb => h b (List.mem_cons_of_mem batch hb)

/-! ### Every run -/

/-- **Only forward, and once**: in an index that a scan and any batches have led to, an entry that is
stale or rejected changes nothing, one that is applied changes the slot and the bucket memberships of its
own id only, and whatever batches follow, no id is lost and no revision falls. If the revisions of every
task have risen from entry to entry, then delivering any of the entries again, however often and however
grouped, changes nothing and counts none of them as applied. -/
theorem redelivery_changes_nothing (shard : ShardKey) (today : Date) (scanned : List Task)
    (delivered : List ChangeBatch) :
    let idx := (load shard today scanned).applyBatches delivered
    (∀ e, (idx.applyEntry e).2 = .stale ∨ (idx.applyEntry e).2 = .rejected →
      (idx.applyEntry e).1 = idx) ∧
    (∀ e, (idx.applyEntry e).2 = .applied → ∀ id, id ≠ e.after.id →
      (idx.applyEntry e).1.get? id = idx.get? id ∧
        ∀ f, ((idx.applyEntry e).1.bucket f).contains id = (idx.bucket f).contains id) ∧
    (∀ later : List ChangeBatch, ∀ id t, idx.get? id = some t →
      ∃ u, (idx.applyBatches later).get? id = some u ∧ t.revision ≤ u.revision) ∧
    (Rising (delivered.flatMap (·.entries)) → ∀ again : List ChangeBatch,
      (∀ batch ∈ again, ∀ e ∈ batch.entries, e ∈ delivered.flatMap (·.entries)) →
      idx.applyBatches again = idx ∧
        ∀ before batch after, again = before ++ batch :: after →
          ((idx.applyBatches before).applyBatch batch).2.applied = 0) := by
  intro idx
  have hidx : idx = (load shard today scanned).absorb (delivered.flatMap (·.entries)) :=
    applyBatches_eq _ delivered
  have hsound : idx.Sound := by
    rw [hidx]
    exact (sound_load shard today scanned).absorb _
  refine ⟨fun e hout => ?_, fun e _ id hid => ?_, fun later id t ht => ?_, fun hrising again hagain => ?_⟩
  · refine applyEntry_eq_self fun happlied => ?_
    rcases hout with hout | hout <;> rw [happlied] at hout <;> cases hout
  · refine ⟨(hsound.applyEntry_of_ne hid).1, fun f => ?_⟩
    rw [Bool.eq_iff_iff, ((hsound.applyEntry e).bucket f).contains_iff, (hsound.bucket f).contains_iff]
    exact (hsound.applyEntry_of_ne hid).2 f
  · rw [applyBatches_eq]
    exact extends_absorb idx _ id t ht
  · have hpast : ∀ e ∈ delivered.flatMap (·.entries), idx.IsPast e := by
      rw [hidx]
      exact isPast_absorb [] (fun e he => absurd he List.not_mem_nil) hrising
    refine ⟨applyBatches_of_isPast fun batch hbatch e he => hpast e (hagain batch hbatch e he), ?_⟩
    rintro before batch after rfl
    have hbefore : idx.applyBatches before = idx := applyBatches_of_isPast fun b hb e he =>
      hpast e (hagain b (List.mem_append_left _ hb) e he)
    rw [hbefore]
    exact (applyBatch_of_isPast fun e he => hpast e (hagain batch (by simp) e he)).2

/-- An archived task that is not known is rejected and comes in later; then both entries come again. -/
theorem redelivery_changes_nothing_archived :
    let today : Date := ⟨2026, 3, 1, by decide⟩
    let t := Task.fresh cedar 7 today
    let gone : ChangeEntry := ⟨none, { t with archived := true }, [.known .archived]⟩
    let back : ChangeEntry := ⟨none, { t with revision := 2 }, [.known .created]⟩
    let first : ChangeBatch := ⟨cedar, [gone], by simp, by simp [ChangeEntry.shard, gone, t, Task.fresh]⟩
    let second : ChangeBatch := ⟨cedar, [back], by simp, by simp [ChangeEntry.shard, back, t, Task.fresh]⟩
    let idx := (load cedar today []).applyBatches [first, second]
    Rising [gone, back] ∧ idx.applyBatches [second, first, second] = idx := by
  intro today t gone back first second idx
  have hrising : Rising [gone, back] := by
    refine List.pairwise_pair.2 fun _ => ?_
    decide
  refine ⟨hrising, ((redelivery_changes_nothing cedar today [] [first, second]).2.2.2 hrising
    [second, first, second] fun batch hbatch e he => ?_).1⟩
  simp only [List.mem_cons, List.not_mem_nil, or_false] at hbatch
  rcases hbatch with rfl | rfl | rfl <;> simp_all [first, second]

end TaskIndex.Index
