import TaskIndex.Proofs.Index.Revision
import TaskIndex.Shard.Mailbox

/-!
A shard that follows what it is told.

What has been committed, and what of it has been told to the shards, is kept in a ledger. The mailbox of
a shard follows the ledger when what lies in it is the end of what the shard was told, and the index, once
there is one, keeps up with everything before. Posting a change, finishing the scan at whatever time and
working off the letters all keep it so.
-/

namespace TaskIndex

/-! ### The ledger -/

/-- The states that tasks were in at the beginning, what was committed since, and what of it the shards
were told, both in order. -/
structure Ledger where
  initial : List Task
  committed : List ChangeEntry := []
  notified : List ChangeEntry := []

namespace Ledger

def past (l : Ledger) : List Task := l.initial ++ l.committed.map (·.after)

def told (l : Ledger) (key : ShardKey) : List ChangeEntry := l.notified.filter (·.shard = key)

def commit (l : Ledger) (e : ChangeEntry) : Ledger := { l with committed := l.committed ++ [e] }

def notify (l : Ledger) (batch : ChangeBatch) : Ledger :=
  { l with notified := l.notified ++ batch.entries }

/-- Revisions rise from state to state, every id can be indexed, only what is committed is told, and of
one task nothing older is told after something newer. -/
structure Sound (l : Ledger) : Prop where
  rising : l.past.Pairwise fun t u => t.SamePlace u → t.revision < u.revision
  ids : ∀ t ∈ l.past, t.HasIndexableId
  committed : ∀ e ∈ l.notified, e ∈ l.committed
  ordered : l.notified.Pairwise fun a b =>
    a.after.SamePlace b.after → a.after.revision ≤ b.after.revision

variable {l l' : Ledger} {key : ShardKey} {batch : ChangeBatch} {e : ChangeEntry}

lemma past_commit (l : Ledger) (e : ChangeEntry) : (l.commit e).past = l.past ++ [e.after] := by
  simp [past, commit]

lemma mem_past_of_committed (he : e ∈ l.committed) : e.after ∈ l.past :=
  List.mem_append_right _ (List.mem_map_of_mem he)

lemma told_notify (l : Ledger) (batch : ChangeBatch) (key : ShardKey) :
    (l.notify batch).told key = l.told key ++ if batch.shard = key then batch.entries else [] := by
  have hbatch : batch.entries.filter (·.shard = key) = if batch.shard = key then batch.entries else [] := by
    split
    · next heq =>
      exact List.filter_eq_self.2 fun e he => by simpa using (batch.shard_eq e he).trans heq
    · next hne =>
      refine List.filter_eq_nil_iff.2 fun e he => ?_
      rw [batch.shard_eq e he]
      simpa using hne
  rw [told, notify, List.filter_append, hbatch, told]

lemma Sound.commit (h : l.Sound) (hid : e.after.HasIndexableId)
    (hnewer : ∀ u ∈ l.past, u.SamePlace e.after → u.revision < e.after.revision) :
    (l.commit e).Sound where
  rising := by
    rw [past_commit, List.pairwise_append]
    refine ⟨h.rising, List.pairwise_singleton _ _, fun u hu v hv => ?_⟩
    rw [List.mem_singleton.1 hv]
    exact hnewer u hu
  ids t ht := by
    rw [past_commit, List.mem_append, List.mem_singleton] at ht
    rcases ht with ht | rfl
    · exact h.ids t ht
    · exact hid
  committed a ha := List.mem_append_left _ (h.committed a ha)
  ordered := h.ordered

lemma Sound.notify (h : l.Sound) (hcommitted : ∀ e ∈ batch.entries, e ∈ l.committed)
    (horder : (l.notified ++ batch.entries).Pairwise fun a b =>
      a.after.SamePlace b.after → a = b ∨ [a, b].Sublist l.committed) : (l.notify batch).Sound where
  rising := h.rising
  ids := h.ids
  committed e he := (List.mem_append.1 he).elim (h.committed e) (hcommitted e)
  ordered := by
    refine horder.imp fun {a b} hab hplace => ?_
    rcases hab hplace with rfl | hsublist
    · exact UInt64.le_refl _
    · have hpast : [a.after, b.after].Sublist l.past :=
        (hsublist.map ChangeEntry.after).trans (List.sublist_append_right _ _)
      exact UInt64.le_of_lt (h.rising.forall_sublist hpast hplace)

/-- The states that a shard is shown come in an order in which none is shown after a newer one. -/
lemma Sound.shown_ordered (h : l.Sound) (key : ShardKey) :
    (l.initial ++ (l.told key).map (·.after)).Pairwise fun t u =>
      t.SamePlace u → t.revision ≤ u.revision := by
  obtain ⟨hinitial, -, hacross⟩ := List.pairwise_append.1 h.rising
  refine List.pairwise_append.2 ⟨?_, ?_, fun t ht u hu hplace => ?_⟩
  · exact hinitial.imp fun hlt hplace => UInt64.le_of_lt (hlt hplace)
  · exact List.pairwise_map.2 (h.ordered.filter _)
  · obtain ⟨e, he, rfl⟩ := List.mem_map.1 hu
    have hcommitted := h.committed e (List.mem_filter.1 he).1
    exact UInt64.le_of_lt (hacross t ht e.after (List.mem_map_of_mem hcommitted) hplace)

end Ledger

/-! ### The mailbox -/

def Letter.entries : Letter → List ChangeEntry
  | .request _ (.apply batch) => batch.entries
  | _ => []

namespace Mailbox

def pending (m : Mailbox) : List ChangeEntry := m.queue.flatMap Letter.entries

/-- How far the shard of a key has come with what it was shown. -/
def Shown (l : Ledger) (key : ShardKey) (done : List ChangeEntry) : Phase → Prop
  | .loading => True
  | .serving s => ∃ idx, s.content = .ok idx ∧ idx.shard = key ∧
      idx.KeepsUp l.past (l.initial ++ done.map (·.after))
  | _ => False

lemma Shown.mono {l l' : Ledger} {key : ShardKey} {done : List ChangeEntry} {phase : Phase}
    (h : Shown l key done phase) (hinitial : l'.initial = l.initial) (hpast : l.past ⊆ l'.past) :
    Shown l' key done phase := by
  cases phase with
  | serving s =>
    obtain ⟨idx, hcontent, hshard, hkeeps⟩ := h
    exact ⟨idx, hcontent, hshard, hinitial ▸ hkeeps.mono hpast⟩
  | loading => trivial
  | closing | draining | stopped => exact h

lemma Shown.serve {l : Ledger} {key : ShardKey} {done rest : List ChangeEntry} {s : Shard}
    (h : Shown l key done (.serving s)) (hl : l.Sound) (limits : PageLimits) (ticket : Ticket)
    (request : Request)
    (htold : l.told key = done ++ ((Letter.request ticket request).entries ++ rest)) :
    Shown l key (done ++ (Letter.request ticket request).entries)
      (.serving (s.serve limits request).1) := by
  cases request with
  | lookup | filter | stats =>
    simp only [Letter.entries, List.append_nil]
    exact h
  | apply batch =>
    obtain ⟨idx, hcontent, hshard, hkeeps⟩ := h
    have hmem : ∀ e ∈ batch.entries, e ∈ l.told key := fun e he => by
      rw [htold]
      exact List.mem_append_right _ (List.mem_append_left _ he)
    have hpast : ∀ e ∈ batch.entries, e.after ∈ l.past := fun e he =>
      Ledger.mem_past_of_committed (hl.committed e (List.mem_filter.1 (hmem e he)).1)
    refine ⟨(idx.applyBatch batch).1, by simp [Shard.serve, Shard.apply, hcontent], ?_, ?_⟩
    · rw [Index.applyBatch_fst, Index.shard_absorb, hshard]
    · rw [Index.applyBatch_fst, List.map_append, ← List.append_assoc]
      refine hkeeps.absorb hpast (fun e he => ⟨?_, hl.ids _ (hpast e he)⟩) ?_
      · have hkey : e.shard = key := by simpa using (List.mem_filter.1 (hmem e he)).2
        exact hkey.trans hshard.symm
      · have horder := hl.shown_ordered key
        rw [htold, List.map_append, List.map_append, ← List.append_assoc, ← List.append_assoc] at horder
        exact (List.pairwise_append.1 horder).1

lemma work_of_request {m : Mailbox} {s : Shard} {ticket : Ticket} {request : Request}
    {rest : List Letter} (hphase : m.phase = .serving s)
    (hqueue : m.queue = .request ticket request :: rest) :
    m.work.key = m.key ∧ m.work.queue = rest ∧
      m.work.phase = .serving (s.serve m.limits request).1 := by
  simp [work, hphase, hqueue, answer]

/-- The mailbox is that of the key and will not be closed, and what lies in it is what the shard has
still to be shown of what it was told. -/
structure Follows (l : Ledger) (key : ShardKey) (m : Mailbox) : Prop where
  key_eq : m.key = key
  stays : Letter.close ∉ m.queue
  shown : ∃ done, l.told key = done ++ m.pending ∧ Shown l key done m.phase

namespace Follows

variable {l l' : Ledger} {key : ShardKey} {m : Mailbox} {letter : Letter}

lemma isOpen (h : m.Follows l key) : m.isOpen = true := by
  obtain ⟨done, -, hshown⟩ := h.shown
  unfold Mailbox.isOpen
  cases hphase : m.phase <;> simp [hphase, Shown] at hshown ⊢

lemma fresh (l : Ledger) (key : ShardKey) (today : Date) (limits : PageLimits) :
    Mailbox.Follows l key { key, today, limits } :=
  ⟨rfl, List.not_mem_nil, l.told key, (List.append_nil _).symm, trivial⟩

lemma mono (h : m.Follows l key) (hinitial : l'.initial = l.initial) (hpast : l.past ⊆ l'.past)
    (htold : l'.told key = l.told key) : m.Follows l' key := by
  obtain ⟨done, hdone, hshown⟩ := h.shown
  exact ⟨h.key_eq, h.stays, done, htold.trans hdone, hshown.mono hinitial hpast⟩

/-- A letter is posted that brings what the shard is told now, if anything. -/
lemma post (h : m.Follows l key) (hstays : letter ≠ .close) (hinitial : l'.initial = l.initial)
    (hpast : l.past ⊆ l'.past) (htold : l'.told key = l.told key ++ letter.entries) :
    (m.post letter).Follows l' key := by
  have hpost : m.post letter = { m with queue := m.queue ++ [letter] } := by
    simp [Mailbox.post, h.isOpen]
  obtain ⟨done, hdone, hshown⟩ := h.shown
  rw [hpost]
  refine ⟨h.key_eq, ?_, done, ?_, hshown.mono hinitial hpast⟩
  · simpa [h.stays] using hstays.symm
  · rw [htold, hdone, List.append_assoc]
    simp [pending]

/-- The scan is finished, some time after the shard was told the first things. -/
lemma loaded (h : m.Follows l key) {store : Store} (hpast : ∀ t ∈ store.tasks, t ∈ l.past)
    (hl : l.Sound)
    (hnewest : ∀ u ∈ l.past, ∃ t, store.get? u.shard u.id = some t ∧ u.revision ≤ t.revision) :
    (m.step (.loaded (.ok (store.live m.key)))).Follows l key := by
  obtain ⟨done, hdone, hshown⟩ := h.shown
  cases hphase : m.phase with
  | loading =>
    have hdone' : ∀ e ∈ done, e ∈ l.committed := fun e he => by
      have htold : e ∈ l.told key := hdone ▸ List.mem_append_left _ he
      exact hl.committed e (List.mem_filter.1 htold).1
    have hkeeps : (Index.load m.key m.today (store.live m.key)).KeepsUp l.past
        (l.initial ++ done.map (·.after)) := by
      refine Index.keepsUp_load m.key m.today hpast (fun t ht => hl.ids t (hpast t ht)) fun u hu => ?_
      refine hnewest u ?_
      rcases List.mem_append.1 hu with hu | hu
      · exact List.mem_append_left _ hu
      · obtain ⟨e, he, rfl⟩ := List.mem_map.1 hu
        exact Ledger.mem_past_of_committed (hdone' e he)
    simp only [step, hphase]
    exact ⟨h.key_eq, h.stays, done, hdone, _, rfl, (Index.shard_load ..).trans h.key_eq, hkeeps⟩
  | serving | closing | draining | stopped =>
    simp only [step, hphase]
    exact h

lemma work (h : m.Follows l key) (hl : l.Sound) : m.work.Follows l key := by
  obtain ⟨done, hdone, hshown⟩ := h.shown
  cases hphase : m.phase with
  | loading =>
    have hwork : m.work = m := by simp [Mailbox.work, hphase]
    rwa [hwork]
  | serving s =>
    rw [hphase] at hshown
    cases hqueue : m.queue with
    | nil =>
      have hwork : m.work = m := by simp [Mailbox.work, hphase, hqueue]
      rwa [hwork]
    | cons letter rest =>
      have hstays := h.stays
      rw [hqueue, List.mem_cons, not_or] at hstays
      cases letter with
      | close => exact absurd rfl hstays.1
      | request ticket request =>
        obtain ⟨hkey, hrest, hphase'⟩ := work_of_request hphase hqueue
        rw [pending, hqueue, List.flatMap_cons] at hdone
        refine ⟨hkey.trans h.key_eq, hrest ▸ hstays.2, _, ?_, hphase' ▸ hshown.serve hl _ _ _ hdone⟩
        rw [pending, hrest, hdone, List.append_assoc]
  | closing | draining | stopped =>
    rw [hphase] at hshown
    exact hshown.elim

lemma work_all (h : m.Follows l key) (hl : l.Sound) {s : Shard} (hphase : m.phase = .serving s) :
    (m.run (List.replicate m.queue.length .work)).Follows l key ∧
      (m.run (List.replicate m.queue.length .work)).queue = [] ∧
      ∃ s', (m.run (List.replicate m.queue.length .work)).phase = .serving s' := by
  generalize hqueue : m.queue = queue
  induction queue generalizing m s with
  | nil => exact ⟨h, hqueue, s, hphase⟩
  | cons letter rest ih =>
    have hstays := h.stays
    rw [hqueue, List.mem_cons, not_or] at hstays
    cases letter with
    | close => exact absurd rfl hstays.1
    | request ticket request =>
      obtain ⟨-, hrest, hphase'⟩ := work_of_request hphase hqueue
      exact ih (h.work hl) hphase' hrest

end Follows

end Mailbox

end TaskIndex
