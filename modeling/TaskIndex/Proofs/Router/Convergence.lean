import TaskIndex.Proofs.Router.Traffic

/-!
No committed change is lost or undone.

Changes are committed to the store and told to the router, each in its own time, while queries, evictions
and the turn of the day load and drop shards. A change can reach a shard through its scan, through the
mailbox, through both or not at all, because the shard was not cached. Once everything that was committed
to a shard has been told, a cached shard that has worked off what it was told holds what the store holds.
-/

namespace TaskIndex

/-- A router over a store, and the ledger of what was committed and told. -/
structure Deployment where
  traffic : Traffic
  ledger : Ledger

namespace Deployment

def start (store : Store) (today : Date) (limits : PageLimits) : Deployment where
  traffic := .ofRouter (.start { store } today limits)
  ledger := { initial := store.tasks }

def store (s : Deployment) : Store := s.traffic.source.store

def commit (s : Deployment) (e : ChangeEntry) : Deployment where
  traffic := { s.traffic with source := { s.traffic.source with store := s.store.commit e } }
  ledger := s.ledger.commit e

def notify (s : Deployment) (batch : ChangeBatch) : Deployment where
  traffic := s.traffic.start (.notify batch)
  ledger := s.ledger.notify batch

/-- The change has an id that can be indexed, and a larger revision than the state it replaces. -/
def MayCommit (s : Deployment) (e : ChangeEntry) : Prop :=
  e.after.HasIndexableId ∧ ∀ t, s.store.get? e.after.shard e.after.id = some t →
    t.revision < e.after.revision

/-- Only committed changes are told, and those of one task in the order in which they were committed. -/
def MayNotify (s : Deployment) (batch : ChangeBatch) : Prop :=
  (∀ e ∈ batch.entries, e ∈ s.ledger.committed) ∧
    (s.ledger.notified ++ batch.entries).Pairwise fun a b =>
      a.after.SamePlace b.after → a = b ∨ [a, b].Sublist s.ledger.committed

/-- The states that commits, notifications and everything else that can happen lead to, in whatever
order. -/
inductive Reachable : Deployment → Prop where
  | start (store : Store) (today : Date) (limits : PageLimits)
      (hids : ∀ t ∈ store.tasks, t.HasIndexableId) : Reachable (start store today limits)
  | commit (s : Deployment) (e : ChangeEntry) (he : s.MayCommit e) (h : Reachable s) :
      Reachable (s.commit e)
  | notify (s : Deployment) (batch : ChangeBatch) (hbatch : s.MayNotify batch) (h : Reachable s) :
      Reachable (s.notify batch)
  /-- Any other request is started, or something that is under way goes on. -/
  | step (s : Deployment) (e : Traffic.Event) (he : ∀ batch, e ≠ .start (.notify batch))
      (h : Reachable s) : Reachable { s with traffic := s.traffic.step e }
  /-- The clock is set. -/
  | tick (s : Deployment) (today : Date) (h : Reachable s) :
      Reachable { s with traffic := { s.traffic with today } }

/-- The ledger is in order, the store holds the latest state of every task, and the cached shards follow
the ledger. -/
structure Sound (s : Deployment) : Prop where
  ledger : s.ledger.Sound
  online : s.traffic.source.offline = []
  plain : s.traffic.source.further = []
  past : ∀ t ∈ s.store.tasks, t ∈ s.ledger.past
  newest : ∀ u ∈ s.ledger.past, ∃ t, s.store.get? u.shard u.id = some t ∧ u.revision ≤ t.revision
  follows : s.traffic.Follows s.ledger

variable {s : Deployment} {e : ChangeEntry} {batch : ChangeBatch}

lemma past_commit (s : Deployment) (e : ChangeEntry) :
    (s.commit e).ledger.past = s.ledger.past ++ [e.after] := Ledger.past_commit _ _

lemma sound_start (store : Store) (today : Date) (limits : PageLimits)
    (hids : ∀ t ∈ store.tasks, t.HasIndexableId) : (start store today limits).Sound where
  ledger := by
    have hpast : (start store today limits).ledger.past = store.tasks := List.append_nil _
    refine ⟨?_, by rwa [hpast], fun e he => absurd he List.not_mem_nil, List.Pairwise.nil⟩
    rw [hpast]
    exact store.apart.imp fun hapart hplace => absurd hplace hapart
  online := rfl
  plain := rfl
  past t ht := List.mem_append_left _ ht
  newest u hu := by
    have hmem : u ∈ store.tasks := by simpa [start, Ledger.past] using hu
    exact ⟨u, Store.get?_eq_some_iff.2 ⟨hmem, rfl, rfl⟩, UInt64.le_refl _⟩
  follows key box hbox := by cases hbox

namespace Sound

/-- Nothing that ever was at the place of a change is as new as the change. -/
lemma older_of_mayCommit (h : s.Sound) (he : s.MayCommit e) {u : Task} (hu : u ∈ s.ledger.past)
    (hplace : u.SamePlace e.after) : u.revision < e.after.revision := by
  obtain ⟨t, ht, hrev⟩ := h.newest u hu
  rw [hplace.1, hplace.2] at ht
  exact UInt64.lt_of_le_of_lt hrev (he.2 t ht)

lemma commit (h : s.Sound) (he : s.MayCommit e) : (s.commit e).Sound where
  ledger := h.ledger.commit he.1 fun u hu hplace => h.older_of_mayCommit he hu hplace
  online := h.online
  plain := h.plain
  past t ht := by
    have hget : (s.store.insert e.after).get? t.shard t.id = some t :=
      Store.get?_eq_some_iff.2 ⟨ht, rfl, rfl⟩
    rw [past_commit, List.mem_append, List.mem_singleton]
    rw [Store.get?_insert] at hget
    split at hget
    · exact .inr (Option.some.inj hget).symm
    · exact .inl (h.past t (Store.get?_eq_some_iff.1 hget).1)
  newest u hu := by
    show ∃ t, (s.store.insert e.after).get? u.shard u.id = some t ∧ u.revision ≤ t.revision
    rw [Store.get?_insert]
    rw [past_commit, List.mem_append, List.mem_singleton] at hu
    rcases hu with hu | rfl
    · split
      · next hplace =>
        exact ⟨e.after, rfl, UInt64.le_of_lt (h.older_of_mayCommit he hu ⟨hplace.1.symm, hplace.2.symm⟩)⟩
      · exact h.newest u hu
    · exact ⟨e.after, by simp, UInt64.le_refl _⟩
  follows := by
    intro key box hbox
    obtain ⟨m, hm, hfollows⟩ := h.follows key box hbox
    refine ⟨m, hm, hfollows.mono rfl ?_ rfl⟩
    rw [past_commit]
    exact List.subset_append_left _ _

lemma notify (h : s.Sound) (hbatch : s.MayNotify batch) : (s.notify batch).Sound := by
  have hsource : (s.notify batch).traffic.source = s.traffic.source := Traffic.source_start _ _
  have hstore : (s.notify batch).store = s.store := congrArg Source.store hsource
  exact ⟨h.ledger.notify hbatch.1 hbatch.2, hsource ▸ h.online, hsource ▸ h.plain, hstore ▸ h.past,
    hstore ▸ h.newest, h.follows.notify batch⟩

lemma step (h : s.Sound) (e : Traffic.Event) (he : ∀ batch, e ≠ .start (.notify batch)) :
    Sound { s with traffic := s.traffic.step e } := by
  obtain ⟨log, hsource⟩ := Traffic.source_step s.traffic e
  have hstore : (s.traffic.step e).source.store = s.store := by rw [hsource]; rfl
  refine ⟨h.ledger, by rw [hsource]; exact h.online, by rw [hsource]; exact h.plain,
    fun t ht => h.past t (hstore ▸ ht), fun u hu => ?_, ?_⟩
  · rw [store, hstore]
    exact h.newest u hu
  · exact h.follows.step h.ledger e he h.online h.plain h.past h.newest

end Sound

lemma Reachable.sound (h : s.Reachable) : s.Sound := by
  induction h with
  | start store today limits hids => exact sound_start store today limits hids
  | commit s e he _ ih => exact ih.commit he
  | notify s batch hbatch _ ih => exact ih.notify hbatch
  | step s e he _ ih => exact ih.step e he
  | tick s today _ ih => exact ⟨ih.ledger, ih.online, ih.plain, ih.past, ih.newest, ih.follows⟩

/-! ### Nothing is lost -/

/-- The shard at work behind a mailbox holds, under every id, what the store holds: exactly the task that
is there if it is not archived, that task or nothing if it is, and nothing if there is none. -/
def Agrees (store : Store) (key : ShardKey) (m : Mailbox) : Prop :=
  ∃ sh idx, m.phase = .serving sh ∧ sh.content = .ok idx ∧ ∀ id,
    (∀ t, store.get? key id = some t → t.archived = false → idx.get? id = some t) ∧
    (∀ t, store.get? key id = some t → t.archived = true →
      idx.get? id = some t ∨ idx.get? id = none) ∧
    (store.get? key id = none → idx.get? id = none)

/-- A shard that was told everything and has nothing left to be shown agrees with the store. -/
lemma Sound.agrees (h : s.Sound) {key : ShardKey} {m : Mailbox} (hm : m.Follows s.ledger key)
    (hall : ∀ e ∈ s.ledger.committed, e.shard = key → e ∈ s.ledger.notified)
    (hserving : ∃ sh, m.phase = .serving sh) (hpending : m.pending = []) :
    Agrees s.store key m := by
  obtain ⟨sh, hphase⟩ := hserving
  obtain ⟨done, hdone, hshown⟩ := hm.shown
  rw [hpending, List.append_nil] at hdone
  rw [hphase] at hshown
  obtain ⟨idx, hcontent, rfl, hkeeps⟩ := hshown
  refine ⟨sh, idx, hphase, hcontent,
    hkeeps.agrees h.ledger.rising h.past h.newest fun t ht hshard => ?_⟩
  rcases List.mem_append.1 (h.past t ht) with hinitial | hcommitted
  · exact List.mem_append_left _ hinitial
  · obtain ⟨e, he, rfl⟩ := List.mem_map.1 hcommitted
    refine List.mem_append_right _ (List.mem_map_of_mem ?_)
    rw [← hdone, Ledger.told, List.mem_filter]
    exact ⟨hall e he hshard, decide_eq_true hshard⟩

def caughtUp (t : Traffic) (box : Nat) (m : Mailbox) : Traffic :=
  (t.load box).run (List.replicate m.queue.length (.work box))

/-- **No committed change is lost or undone**: whatever was committed, told, loaded, dropped and asked in
whatever order, when everything that was committed to a cached shard has been told, the shard agrees with
the store as soon as it is at work with no change in its mailbox; and finishing its scan and working off
its letters brings it there. -/
theorem agrees_of_told (s : Deployment) (hs : s.Reachable) (key : ShardKey) (box : Nat)
    (hcached : s.traffic.boxOf? key = some box)
    (hall : ∀ e ∈ s.ledger.committed, e.shard = key → e ∈ s.ledger.notified) :
    ∃ m, s.traffic.boxes[box]? = some m ∧
      ((∃ sh, m.phase = .serving sh) → m.pending = [] → Agrees s.store key m) ∧
      ∃ m', (caughtUp s.traffic box m).boxes[box]? = some m' ∧ m'.queue = [] ∧
        Agrees s.store key m' := by
  have h := hs.sound
  obtain ⟨m, hm, hfollows⟩ := h.follows key box hcached
  refine ⟨m, hm, h.agrees hfollows hall, ?_⟩
  obtain ⟨m₁, hm₁, hqueue, sh, hphase⟩ := Traffic.exists_serving_load hm hfollows
  have hfollows₁ : m₁.Follows s.ledger key := by
    have hload := h.follows.load h.ledger box h.online h.plain h.past h.newest
    obtain ⟨m₂, hm₂, hfollows₂⟩ := hload key box (by rwa [Traffic.boxOf?, Traffic.cached_load])
    rwa [Option.some.inj (hm₁.symm.trans hm₂)]
  obtain ⟨hfollows', hempty, hserving'⟩ := hfollows₁.work_all h.ledger hphase
  refine ⟨_, ?_, hempty, h.agrees hfollows' hall hserving' ?_⟩
  · rw [caughtUp, ← hqueue, Traffic.boxes_run_work, hm₁, Option.map_some]
  · rw [Mailbox.pending, hempty, List.flatMap_nil]

def birch : ShardKey := ⟨"birch", by decide, by decide⟩

/-- A change is committed while its shard is still being scanned, and told before the scan is finished. -/
theorem agrees_of_told_early :
    let today : Date := ⟨2026, 3, 1, by decide⟩
    let t := Task.fresh birch 7 today
    let e : ChangeEntry := ⟨some t, { t with archived := true, revision := 2 }, [.known .archived]⟩
    let batch : ChangeBatch := ⟨birch, [e], by simp, by simp [ChangeEntry.shard, e, t, Task.fresh]⟩
    let asked : Traffic.Event := .start (.query ⟨"ana", ∅⟩ [.inShard birch])
    let s₀ := start (.ofTasks [t]) today default
    let s₁ : Deployment := { s₀ with traffic := s₀.traffic.step asked }
    let s := (s₁.commit e).notify batch
    s.Reachable ∧ ∃ m, s.traffic.boxes[0]? = some m ∧
      ∃ m', (caughtUp s.traffic 0 m).boxes[0]? = some m' ∧ Agrees s.store birch m' := by
  intro today t e batch asked s₀ s₁ s
  have h₀ : s₀.Reachable := .start _ today default (by decide)
  have h₁ : s₁.Reachable := .step s₀ asked (fun _ => by simp [asked]) h₀
  have h₂ : (s₁.commit e).Reachable := by
    refine .commit s₁ e ⟨by decide, fun u hu => ?_⟩ h₁
    have hstored : s₁.store.get? birch 7 = some t := by rfl
    obtain rfl : t = u := Option.some.inj (hstored.symm.trans hu)
    decide
  have h : s.Reachable := by
    refine .notify _ batch ⟨fun e' he' => he', ?_⟩ h₂
    exact List.pairwise_singleton _ _
  have hcached : s.traffic.boxOf? birch = some 0 := by rfl
  obtain ⟨m, hm, -, m', hm', -, hagrees⟩ :=
    agrees_of_told s h birch 0 hcached fun e' he' _ => he'
  exact ⟨h, m, hm, m', hm', hagrees⟩

end Deployment

end TaskIndex
