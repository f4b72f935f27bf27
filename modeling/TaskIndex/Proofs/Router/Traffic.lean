import TaskIndex.Proofs.Shard.Mailbox
import TaskIndex.Router.Traffic

/-!
Every cached shard follows what it is told.

Whatever is started and however it goes on, the mailbox of a cached shard follows the ledger: a shard is
told a batch when it is cached, has it in its scan when it is loaded later, and is not heard of again once
it has been dropped.
-/

namespace TaskIndex.Traffic

def Follows (l : Ledger) (t : Traffic) : Prop :=
  ∀ key box, t.boxOf? key = some box → ∃ m, t.boxes[box]? = some m ∧ m.Follows l key

variable {l l' : Ledger} {t t' : Traffic} {key : ShardKey} {box : Nat}

/-! ### One mailbox -/

lemma getElem?_atBox (t : Traffic) (box : Nat) (e : Mailbox.Event) (i : Nat) :
    (t.atBox box e).boxes[i]? = if box = i then (t.boxes[i]?).map (·.step e) else t.boxes[i]? := by
  simp [atBox, Array.getElem?_modify]

lemma lookup_filter_ne (cached : List (ShardKey × Nat)) (key key' : ShardKey) :
    (cached.filter (·.1 ≠ key)).lookup key' = if key' = key then none else cached.lookup key' := by
  induction cached with
  | nil => simp
  | cons entry cached ih =>
    obtain ⟨k, b⟩ := entry
    rw [List.filter_cons, List.lookup_cons]
    grind

lemma atBoxes_eq (t : Traffic) (boxes : List Nat) (e : Mailbox.Event) :
    t.atBoxes boxes e =
      { t with boxes := boxes.foldl (fun boxes box => boxes.modify box (·.step e)) t.boxes } := by
  induction boxes generalizing t with
  | nil => rfl
  | cons box boxes ih => exact ih (t.atBox box e)

/-! ### The source -/

lemma source_atBoxes (t : Traffic) (boxes : List Nat) (e : Mailbox.Event) :
    (t.atBoxes boxes e).source = t.source := by
  rw [atBoxes_eq]

lemma source_rollOver (t : Traffic) : t.rollOver.source = t.source := by
  unfold rollOver
  split
  · exact source_atBoxes t _ .close
  · rfl

lemma source_obtain (t : Traffic) (key : ShardKey) : (t.obtain key).1.source = t.source := by
  unfold obtain
  split <;> rfl

lemma source_route (t : Traffic) (today : Date) (actor : Actor) (ps : List Predicate) :
    (t.route today actor ps).source = t.source := by
  unfold route
  split
  · exact source_obtain t _
  · rfl
  · split <;> rfl
  · exact source_atBoxes t _ _

lemma source_startQuery (t : Traffic) (actor : Actor) (ps : List Predicate) :
    (t.startQuery actor ps).source = t.source := by
  unfold startQuery
  dsimp only
  split
  · exact source_rollOver t
  · exact (source_route t.rollOver _ actor ps).trans (source_rollOver t)

/-- Starting a request asks nothing of the source. -/
lemma source_start (t : Traffic) (s : Start) : (t.start s).source = t.source := by
  cases s with
  | query actor ps => exact source_startQuery t actor ps
  | notify | stats | evict =>
    unfold start
    dsimp only
    split <;> rfl
  | close =>
    unfold start
    dsimp only
    split
    · rfl
    · exact source_atBoxes t _ .close

/-- Whatever happens, the source only notes what it was asked to scan. -/
lemma source_step (t : Traffic) (e : Event) : ∃ log, (t.step e).source = { t.source with log } := by
  cases e with
  | start s => exact ⟨t.source.log, source_start t s⟩
  | load box =>
    simp only [step, load]
    split
    · next m _ =>
      split
      · unfold Source.scan
        split <;> exact ⟨_, rfl⟩
      · exact ⟨_, rfl⟩
    · exact ⟨_, rfl⟩
  | work box => exact ⟨_, rfl⟩
  | collect call =>
    refine ⟨t.source.log, ?_⟩
    simp only [step, collect]
    split
    · split <;> rfl
    · rfl
  | merge => exact ⟨_, rfl⟩

/-! ### The cached shards -/

namespace Follows

lemma of_eq (h : t.Follows l) (hcached : t'.cached = t.cached) (hboxes : t'.boxes = t.boxes) :
    t'.Follows l := by
  intro key box hbox
  rw [boxOf?, hcached] at hbox
  rw [hboxes]
  exact h key box hbox

lemma opened (h : t.Follows l) (call : Call) : (t.opened call).Follows l := h

lemma key_unique (h : t.Follows l) {key' : ShardKey} (hbox : t.boxOf? key = some box)
    (hbox' : t.boxOf? key' = some box) : key = key' := by
  obtain ⟨m, hm, hfollows⟩ := h key box hbox
  obtain ⟨m', hm', hfollows'⟩ := h key' box hbox'
  obtain rfl := Option.some.inj (hm.symm.trans hm')
  exact hfollows.key_eq.symm.trans hfollows'.key_eq

/-- What happens to one mailbox concerns the shard of that mailbox. -/
lemma atBox (h : t.Follows l) (box : Nat) (e : Mailbox.Event)
    (hhere : ∀ key (m : Mailbox), t.boxOf? key = some box → t.boxes[box]? = some m →
      m.Follows l key → (m.step e).Follows l' key)
    (helse : ∀ key box' (m : Mailbox), t.boxOf? key = some box' → box' ≠ box → m.Follows l key →
      m.Follows l' key) : (t.atBox box e).Follows l' := by
  intro key box' hbox'
  obtain ⟨m, hm, hfollows⟩ := h key box' hbox'
  rw [getElem?_atBox, hm]
  split
  · next heq =>
    subst heq
    exact ⟨m.step e, rfl, hhere key m hbox' hm hfollows⟩
  · next hne => exact ⟨m, rfl, helse key box' m hbox' (Ne.symm hne) hfollows⟩

lemma post (h : t.Follows l) (box : Nat) (ticket : Ticket) (request : Request)
    (hrequest : (Letter.request ticket request).entries = []) :
    (t.atBox box (.post ticket request)).Follows l := by
  refine h.atBox box _ (fun key m _ _ hm => ?_) fun _ _ _ _ _ hm => hm
  exact hm.post (fun heq => nomatch heq) rfl (List.Subset.refl _) (by rw [hrequest, List.append_nil])

lemma posts (h : t.Follows l) (boxes : List Nat) (ticket : Ticket) (request : Request)
    (hrequest : (Letter.request ticket request).entries = []) :
    (t.atBoxes boxes (.post ticket request)).Follows l := by
  induction boxes generalizing t with
  | nil => exact h
  | cons box boxes ih => exact ih (h.post box ticket request hrequest)

lemma work (h : t.Follows l) (hl : l.Sound) (box : Nat) : (t.atBox box .work).Follows l :=
  h.atBox box _ (fun _ _ _ _ hm => hm.work hl) fun _ _ _ _ _ hm => hm

/-! ### Opening and dropping -/

lemma retire (t : Traffic) (l : Ledger) : t.retire.Follows l := by
  intro key box hbox
  cases hbox

lemma rollOver (h : t.Follows l) : t.rollOver.Follows l := by
  unfold Traffic.rollOver
  split
  · exact (retire t l).of_eq rfl rfl
  · exact h

lemma obtain (h : t.Follows l) (key : ShardKey) : (t.obtain key).1.Follows l := by
  unfold Traffic.obtain
  split
  · exact h
  · next hnone =>
    intro key' box hbox
    have hlookup : t.boxOf? key' = some box ∨ (key' = key ∧ box = t.boxes.size) := by
      simp only [boxOf?, List.lookup_append, Option.or_eq_some_iff] at hbox ⊢
      grind
    rcases hlookup with hold | ⟨rfl, rfl⟩
    · obtain ⟨m, hm, hfollows⟩ := h key' box hold
      exact ⟨m, by grind, hfollows⟩
    · exact ⟨_, Array.getElem?_push_size, Mailbox.Follows.fresh l key' t.today t.limits⟩

lemma evict (h : t.Follows l) (hbox : t.boxOf? key = some box) :
    Follows l { t.atBox box .close with cached := t.cached.filter (·.1 ≠ key) } := by
  intro key' box' hbox'
  have hlookup : t.boxOf? key' = some box' ∧ key' ≠ key := by
    have hfilter := lookup_filter_ne t.cached key key'
    rw [show (t.cached.filter (·.1 ≠ key)).lookup key' = some box' from hbox'] at hfilter
    split at hfilter
    · cases hfilter
    · next hne => exact ⟨hfilter.symm, hne⟩
  obtain ⟨m, hm, hfollows⟩ := h key' box' hlookup.1
  refine ⟨m, ?_, hfollows⟩
  have hne : box ≠ box' := by
    rintro rfl
    exact hlookup.2 (h.key_unique hlookup.1 hbox)
  rw [← hm]
  exact (getElem?_atBox t box .close box').trans (if_neg hne)

/-! ### Starting a request -/

lemma startPage (h : t.Follows l) (key : ShardKey) (box : Nat) (ps : List Predicate) :
    (t.startPage key box ps).Follows l :=
  (h.post box _ _ rfl).opened _

lemma route (h : t.Follows l) (today : Date) (actor : Actor) (ps : List Predicate) :
    (t.route today actor ps).Follows l := by
  unfold Traffic.route
  split
  · exact (h.obtain _).startPage _ _ ps
  · exact h.opened _
  · split
    · exact h.startPage _ _ ps
    · exact h.opened _
  · exact (h.posts _ _ _ rfl).opened _

lemma startQuery (h : t.Follows l) (actor : Actor) (ps : List Predicate) :
    (t.startQuery actor ps).Follows l := by
  unfold Traffic.startQuery
  dsimp only
  split
  · exact h.rollOver.opened _
  · exact h.rollOver.route _ actor ps

/-- Telling a batch: its shard finds it in the mailbox, if it is cached. -/
lemma notify (h : t.Follows l) (batch : ChangeBatch) :
    (t.start (.notify batch)).Follows (l.notify batch) := by
  have hother : ∀ key (m : Mailbox), batch.shard ≠ key → m.Follows l key →
      m.Follows (l.notify batch) key := fun key m hne hm =>
    hm.mono rfl (List.Subset.refl _) (by rw [Ledger.told_notify, if_neg hne, List.append_nil])
  unfold Traffic.start
  dsimp only
  split
  · next box hbox =>
    refine (h.atBox box _ (fun key m hkey _ hm => ?_) fun key box' m hkey hne hm => ?_).opened _
    · have hshard : batch.shard = key := h.key_unique hbox hkey
      exact hm.post (fun heq => nomatch heq) rfl (List.Subset.refl _)
        (by rw [Ledger.told_notify, if_pos hshard]; rfl)
    · refine hother key m ?_ hm
      rintro rfl
      exact hne (Option.some.inj (hkey.symm.trans hbox))
  · next hnone =>
    intro key box hbox
    obtain ⟨m, hm, hfollows⟩ := h key box hbox
    refine ⟨m, hm, hother key m ?_ hfollows⟩
    rintro rfl
    have hbox : t.boxOf? batch.shard = some box := hbox
    rw [hnone] at hbox
    cases hbox

lemma start (h : t.Follows l) (s : Start) (hs : ∀ batch, s ≠ .notify batch) :
    (t.start s).Follows l := by
  cases s with
  | notify batch => exact absurd rfl (hs batch)
  | query actor ps => exact h.startQuery actor ps
  | stats key =>
    unfold Traffic.start
    dsimp only
    split
    · exact (h.post _ _ _ rfl).opened _
    · exact h.opened _
  | evict key =>
    unfold Traffic.start
    dsimp only
    split
    · next box hbox => exact (h.evict hbox).opened _
    · exact h.opened _
  | close =>
    unfold Traffic.start
    dsimp only
    split
    · exact h.opened _
    · exact (retire t l).of_eq rfl rfl

/-! ### Going on -/

lemma load (h : t.Follows l) (hl : l.Sound) (box : Nat) (honline : t.source.offline = [])
    (hplain : t.source.further = []) (hpast : ∀ u ∈ t.source.store.tasks, u ∈ l.past)
    (hnewest : ∀ u ∈ l.past, ∃ v, t.source.store.get? u.shard u.id = some v ∧
      u.revision ≤ v.revision) : (t.load box).Follows l := by
  unfold Traffic.load
  split
  · next m hm =>
    split
    · have hscan : (t.source.scan m.key).2 = .ok (t.source.store.live m.key) := by
        simp [Source.scan, honline, hplain]
      dsimp only
      rw [hscan]
      have hsource : Follows l { t with source := (t.source.scan m.key).1 } := h.of_eq rfl rfl
      refine hsource.atBox box _ (fun key m' hkey hbox hm' => ?_) fun _ _ _ _ _ hm' => hm'
      obtain rfl : m = m' := Option.some.inj (hm.symm.trans hbox)
      exact hm'.loaded hpast hl hnewest
    · exact h
  · exact h

lemma step (h : t.Follows l) (hl : l.Sound) (e : Event) (he : ∀ batch, e ≠ .start (.notify batch))
    (honline : t.source.offline = []) (hplain : t.source.further = [])
    (hpast : ∀ u ∈ t.source.store.tasks, u ∈ l.past)
    (hnewest : ∀ u ∈ l.past, ∃ v, t.source.store.get? u.shard u.id = some v ∧
      u.revision ≤ v.revision) : (t.step e).Follows l := by
  cases e with
  | start s => exact h.start s fun batch heq => he batch (by rw [heq])
  | load box => exact h.load hl box honline hplain hpast hnewest
  | work box => exact h.work hl box
  | collect call =>
    simp only [Traffic.step, collect]
    split
    · split
      · exact h.of_eq rfl rfl
      · exact h
    · exact h
  | merge => exact h.of_eq rfl rfl

end Follows

/-! ### Catching up -/

lemma cached_load (t : Traffic) (box : Nat) : (t.load box).cached = t.cached := by
  unfold load
  split
  · split <;> rfl
  · rfl

/-- Once the scan is finished, a shard that follows the ledger is at work, with the same letters. -/
lemma exists_serving_load {m : Mailbox} (hm : t.boxes[box]? = some m) (hfollows : m.Follows l key) :
    ∃ m', (t.load box).boxes[box]? = some m' ∧ m'.queue = m.queue ∧ ∃ sh, m'.phase = .serving sh := by
  obtain ⟨done, -, hshown⟩ := hfollows.shown
  cases hphase : m.phase with
  | loading =>
    refine ⟨m.step (.loaded (t.source.scan m.key).2), ?_, ?_, ?_⟩
    · simp only [load, hm, hphase]
      rw [getElem?_atBox, if_pos rfl]
      simp only [hm, Option.map_some]
    · simp [Mailbox.step, hphase]
    · exact ⟨.ofScan m.key m.today (t.source.scan m.key).2, by simp only [Mailbox.step, hphase]⟩
  | serving sh =>
    have hload : t.load box = t := by simp only [load, hm, hphase]
    exact ⟨m, by rw [hload, hm], rfl, sh, hphase⟩
  | closing | draining | stopped =>
    rw [hphase] at hshown
    exact hshown.elim

lemma boxes_run_work (t : Traffic) (box n : Nat) :
    (t.run (List.replicate n (.work box))).boxes[box]? =
      (t.boxes[box]?).map (·.run (List.replicate n .work)) := by
  induction n generalizing t with
  | zero => simp
  | succ n ih =>
    rw [List.replicate_succ, run_cons, ih]
    simp only [step]
    rw [getElem?_atBox, if_pos rfl, Option.map_map]
    rfl

end TaskIndex.Traffic
