import TaskIndex.Proofs.Index.Integrity
import TaskIndex.Router.Basic

/-!
The states that a router can be in.

Whatever is asked of a router in whatever order, and however its clock is set and its source changes
between the requests, it caches at most one shard for a key, and what a shard has is a sound index of its
own key and day.
-/

namespace TaskIndex

/-! ### One shard -/

/-- If the shard has an index, the index is sound and is one of the shard's key and day. -/
def Shard.Sound (s : Shard) : Prop :=
  ∀ idx, s.content = .ok idx → idx.Sound ∧ idx.shard = s.key ∧ idx.today = s.today

namespace Shard

variable {s : Shard}

lemma key_ofScan (key : ShardKey) (today : Date) (scanned : Except SourceError (List Task)) :
    (ofScan key today scanned).key = key ∧ (ofScan key today scanned).today = today := by
  cases scanned <;> exact ⟨rfl, rfl⟩

lemma key_apply (s : Shard) (batch : ChangeBatch) : (s.apply batch).1.key = s.key := by
  unfold apply
  split <;> rfl

lemma sound_ofScan (key : ShardKey) (today : Date) (scanned : Except SourceError (List Task)) :
    (ofScan key today scanned).Sound := by
  intro idx hidx
  cases scanned with
  | error e => cases hidx
  | ok scanned =>
    obtain rfl : Index.load key today scanned = idx := Except.ok.inj hidx
    exact ⟨Index.sound_load key today scanned, Index.shard_load key today scanned,
      Index.today_load key today scanned⟩

lemma Sound.apply (h : s.Sound) (batch : ChangeBatch) : (s.apply batch).1.Sound := by
  unfold Shard.apply
  split
  · next idx hidx =>
    intro idx' hidx'
    obtain ⟨hsound, hshard, htoday⟩ := h idx hidx
    obtain rfl : (idx.applyBatch batch).1 = idx' := Except.ok.inj hidx'
    rw [Index.applyBatch_fst, Index.shard_absorb, Index.today_absorb]
    exact ⟨hsound.absorb _, hshard, htoday⟩
  · exact h

end Shard

namespace Router

variable {r : Router} {key : ShardKey} {s : Shard}

/-! ### Looking a shard up -/

lemma mem_of_find? (h : r.find? key = some s) : s ∈ r.shards ∧ s.key = key :=
  ⟨List.mem_of_find?_eq_some h, by simpa using List.find?_some h⟩

lemma keys_replace (r : Router) (s : Shard) :
    (r.replace s).shards.map (·.key) = r.shards.map (·.key) := by
  rw [replace, List.map_map]
  refine List.map_congr_left fun u _ => ?_
  simp only [Function.comp_apply]
  split
  · next hkey => exact hkey.symm
  · rfl

lemma find?_evict (r : Router) (key k : ShardKey) :
    (r.evict key).1.find? k = if k = key then none else r.find? k := by
  rw [evict, find?, find?, List.find?_filter]
  split
  · next hk =>
    refine List.find?_eq_none.2 fun s _ => ?_
    simp [hk]
  · next hk =>
    refine congrArg (fun p => r.shards.find? p) (funext fun s => decide_eq_decide.2 ?_)
    simp only [decide_eq_true_eq]
    refine and_iff_right_of_imp ?_
    rintro rfl
    exact hk

lemma find?_replace {s' : Shard} (hs : r.find? key = some s) (hkey : s'.key = key) (k : ShardKey) :
    (r.replace s').find? k = if k = key then some s' else r.find? k := by
  let f (u : Shard) : Shard := if u.key = s'.key then s' else u
  have hf : ∀ u, (f u).key = u.key := by
    intro u
    unfold f
    split
    · next hu => exact hu.symm
    · rfl
  have hmap : (r.replace s').find? k = (r.find? k).map f := by
    rw [replace, find?, List.find?_map]
    show (r.shards.find? fun u => decide ((f u).key = k)).map f = _
    simp only [hf]
    rfl
  rw [hmap]
  split
  · next hk =>
    rw [hk, hs, Option.map_some, show f s = s' from if_pos ((mem_of_find? hs).2.trans hkey.symm)]
  · next hk =>
    cases hu : r.find? k with
    | none => rfl
    | some u =>
      rw [Option.map_some, show f u = u from if_neg ?_]
      rw [(mem_of_find? hu).2, hkey]
      exact hk

lemma find?_unchanged {s' : Shard} (hs : r.find? key = some s) (hsame : s' = s) (k : ShardKey) :
    r.find? k = if k = key then some s' else r.find? k := by
  split
  · next hk => rw [hk, hs, hsame]
  · rfl

/-! ### Every state -/

/-- A state that requests, the clock and the source can lead to. Requests may overlap: the clock can move
between the step in which a query checks the day and the one in which it loads its shard. -/
inductive Reachable : Router → Prop where
  | start (source : Source) (today : Date) (limits : PageLimits) :
      Reachable (start source today limits)
  | query (r : Router) (actor : Actor) (ps : List Predicate) (h : Reachable r) :
      Reachable (r.query actor ps).1
  /-- A query under way has checked the day. -/
  | rollOver (r : Router) (h : Reachable r) : Reachable r.rollOver
  /-- A query under way has had its shard loaded. -/
  | obtain (r : Router) (key : ShardKey) (hopen : r.closed = false) (h : Reachable r) :
      Reachable (r.obtain key).1
  | notify (r : Router) (batch : ChangeBatch) (h : Reachable r) : Reachable (r.notify batch).1
  | evict (r : Router) (key : ShardKey) (h : Reachable r) : Reachable (r.evict key).1
  | close (r : Router) (h : Reachable r) : Reachable r.close
  /-- The clock is set, forwards or backwards. -/
  | setDate (r : Router) (today : Date) (h : Reachable r) : Reachable (r.setDate today)
  /-- The source changes: tasks are inserted or committed, shards go offline or come back. -/
  | restock (r : Router) (source : Source) (h : Reachable r) : Reachable { r with source }

structure Sound (r : Router) : Prop where
  distinct : (r.shards.map (·.key)).Nodup
  shards : ∀ s ∈ r.shards, s.Sound

namespace Sound

lemma rollOver (h : r.Sound) : r.rollOver.Sound := by
  unfold Router.rollOver
  split
  · exact ⟨List.nodup_nil, fun s hs => absurd hs List.not_mem_nil⟩
  · exact h

lemma obtain (h : r.Sound) (key : ShardKey) : (r.obtain key).1.Sound := by
  unfold Router.obtain
  split
  · exact h
  · next hnone =>
    have hnew : ∀ s ∈ r.shards, s.key ≠ key := by
      intro s hs
      simpa using List.find?_eq_none.1 hnone s hs
    have hkey := (Shard.key_ofScan key r.today (r.source.scan key).2).1
    refine ⟨?_, fun s hs => ?_⟩
    · show ((r.shards ++ [Shard.ofScan key r.today (r.source.scan key).2]).map (·.key)).Nodup
      rw [List.map_append, List.map_singleton, hkey, List.nodup_append]
      refine ⟨h.distinct, List.nodup_singleton key, fun k hk k' hk' => ?_⟩
      obtain ⟨s, hs, rfl⟩ := List.mem_map.1 hk
      rw [List.mem_singleton.1 hk']
      exact hnew s hs
    · rcases List.mem_append.1 hs with hs | hs
      · exact h.shards s hs
      · obtain rfl := List.mem_singleton.1 hs
        exact Shard.sound_ofScan key r.today _

lemma query (h : r.Sound) (actor : Actor) (ps : List Predicate) : (r.query actor ps).1.Sound := by
  unfold Router.query
  dsimp only
  split
  · exact h.rollOver
  · split
    · exact h.rollOver.obtain _
    all_goals exact h.rollOver

lemma replace (h : r.Sound) (hs : s.Sound) : (r.replace s).Sound := by
  refine ⟨by rw [keys_replace]; exact h.distinct, fun u hu => ?_⟩
  obtain ⟨v, hv, rfl⟩ := List.mem_map.1 hu
  split
  · exact hs
  · exact h.shards v hv

lemma notify (h : r.Sound) (batch : ChangeBatch) : (r.notify batch).1.Sound := by
  unfold Router.notify
  split
  · exact h
  · next s hs =>
    exact h.replace ((h.shards s (mem_of_find? hs).1).apply batch)

lemma evict (h : r.Sound) (key : ShardKey) : (r.evict key).1.Sound where
  distinct := (List.filter_sublist.map _).nodup h.distinct
  shards s hs := h.shards s (List.mem_filter.1 hs).1

end Sound

/-- **Sound throughout**: every reachable state is sound. -/
theorem Reachable.sound (h : r.Reachable) : r.Sound := by
  induction h with
  | start | close => exact ⟨List.nodup_nil, fun s hs => absurd hs List.not_mem_nil⟩
  | query r actor ps _ ih => exact ih.query actor ps
  | rollOver r _ ih => exact ih.rollOver
  | obtain r key _ _ ih => exact ih.obtain key
  | notify r batch _ ih => exact ih.notify batch
  | evict r key _ ih => exact ih.evict key
  | setDate r today _ ih => exact ⟨ih.distinct, ih.shards⟩
  | restock r source _ ih => exact ⟨ih.distinct, ih.shards⟩

end Router

end TaskIndex
