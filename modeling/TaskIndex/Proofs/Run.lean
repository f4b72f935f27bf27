import TaskIndex.Proofs.Router.History
import TaskIndex.Proofs.Snapshot
import TaskIndex.Run

/-!
One run of the program answers a query in full.

A query of a snapshot first has every shard indexed that it may be about. So none of its targets is missing
when it is answered, and the answer is that of looking at the records of the snapshot one by one.
-/

namespace TaskIndex

/-! ### A shard of the snapshot -/

lemma Index.mem_tasks_load {store : Store} {key : ShardKey} {today : Date} {t : Task} :
    t ∈ (Index.load key today (store.live key)).tasks ↔ t ∈ store.tasks ∧ Index.Takes key t := by
  rw [(Index.sound_load key today _).placed.mem_tasks, Index.get?_load]
  constructor
  · intro hfind
    have htakes : Index.Takes key t := by simpa using List.find?_some hfind
    exact ⟨(List.mem_filter.1 (List.mem_of_find?_eq_some hfind)).1, htakes⟩
  · rintro ⟨ht, htakes⟩
    have hlive : t ∈ store.live key := by
      refine List.mem_filter.2 ⟨ht, ?_⟩
      simp [htakes.1, htakes.2.1]
    cases hfind : (store.live key).find? fun u => u.id = t.id ∧ Index.Takes key u with
    | none => simpa [htakes] using List.find?_eq_none.1 hfind t hlive
    | some u =>
      obtain ⟨hid, hutakes⟩ : u.id = t.id ∧ Index.Takes key u := by simpa using List.find?_some hfind
      have hu : u ∈ store.tasks := (List.mem_filter.1 (List.mem_of_find?_eq_some hfind)).1
      rw [Store.eq_of_samePlace hu ht ⟨hutakes.2.1.trans htakes.2.1.symm, hid⟩]

lemma Index.mem_filter_load {store : Store} {key : ShardKey} {today : Date} {ps : List Predicate} {t : Task} :
    t ∈ (Index.load key today (store.live key)).filter (filtersOnly ps) ↔
      t ∈ store.tasks ∧ Index.Takes key t ∧ ∀ p ∈ ps, p.Matches t today = true := by
  have hexact : (Index.load key today (store.live key)).Exact :=
    (Index.sound_load key today _).exact (Index.faithful_load key today _)
  rw [Index.filter_filtersOnly, (hexact.filter_perm ps).mem_iff, List.mem_filter, Index.mem_tasks_load,
    Index.passes, List.all_eq_true, Index.today_load, and_assoc]

/-! ### Indexing what a query may touch -/

/-- An open router over a store, all whose shards are loaded from the store as it is, on one day. -/
structure Router.Over (store : Store) (day : Date) (limits : PageLimits) (r : Router) : Prop where
  reachable : r.Reachable
  opened : r.closed = false
  clock : r.today = day
  marker : r.validFor = day
  paging : r.limits = limits
  source : ∃ log, r.source = { store, log }
  loaded : ∀ s ∈ r.shards, s.content = .ok (Index.load s.key day (store.live s.key))

namespace Router.Over

variable {store : Store} {day : Date} {limits : PageLimits} {r : Router} {key : ShardKey}

lemma start (store : Store) (day : Date) (limits : PageLimits) :
    Over store day limits (.start { store } day limits) :=
  ⟨.start _ day limits, rfl, rfl, rfl, rfl, ⟨[], rfl⟩, fun _ hs => absurd hs List.not_mem_nil⟩

lemma rollOver_eq (h : Over store day limits r) : r.rollOver = r := by
  unfold Router.rollOver
  rw [h.marker, h.clock, Std.ReflOrd.compare_self]
  exact if_neg fun heq => nomatch heq

lemma obtain (h : Over store day limits r) (key : ShardKey) :
    Over store day limits (r.obtain key).1 := by
  cases hfind : r.find? key with
  | some s => rwa [obtain_of_find?_some hfind]
  | none =>
    have hreachable : (r.obtain key).1.Reachable := .obtain r key h.opened h.reachable
    obtain ⟨log, hsource⟩ := h.source
    have hscan : r.source.scan key = ({ store, log := ⟨key, true⟩ :: log }, .ok (store.live key)) := by
      rw [hsource, Source.scan, if_neg List.not_mem_nil, List.append_nil]
    rw [obtain_of_find?_none hfind, hscan] at hreachable ⊢
    refine ⟨hreachable, h.opened, h.clock, h.marker, h.paging, ⟨_, rfl⟩, fun s hs => ?_⟩
    rcases List.mem_append.1 hs with hs | hs
    · exact h.loaded s hs
    · rw [List.mem_singleton.1 hs, h.clock]
      rfl

lemma query (h : Over store day limits r) (actor : Actor) (ps : List Predicate) :
    Over store day limits (r.query actor ps).1 := by
  rcases query_state r actor ps with ⟨hstate, -⟩ | ⟨key, -, -, hstate⟩
  · rwa [hstate, h.rollOver_eq]
  · rw [hstate, h.rollOver_eq]
    exact h.obtain key

/-- What is cached stays cached, and a shard that is asked for is cached then. -/
lemma mem_keys_query (h : Over store day limits r) (actor : Actor) (ps : List Predicate)
    (hkey : key ∈ r.keys ∨ Route.of actor ps = .index key) : key ∈ (r.query actor ps).1.keys := by
  rw [(query_creates r actor ps).1, h.rollOver_eq, List.mem_append, Option.mem_toList]
  by_cases hcached : key ∈ r.keys
  · exact .inl hcached
  · have hindex := hkey.resolve_left hcached
    refine .inr ?_
    rw [Happening.creates?, h.opened, hindex]
    exact if_neg hcached

lemma warm (h : Over store day limits r) (actor : Actor) (keys : SortedSet ShardKey) :
    Over store day limits (Run.warm r actor keys) ∧ ∀ key ∈ keys, key ∈ (Run.warm r actor keys).keys := by
  have hfold : ∀ (keys : List ShardKey) (r : Router), Over store day limits r →
      Over store day limits (keys.foldl (fun r key => (r.query actor [.inShard key]).1) r) ∧
        ∀ key, key ∈ r.keys ∨ key ∈ keys →
          key ∈ (keys.foldl (fun r key => (r.query actor [.inShard key]).1) r).keys := by
    intro keys
    induction keys with
    | nil => exact fun r h => ⟨h, fun key hkey => hkey.resolve_right List.not_mem_nil⟩
    | cons k keys ih =>
      intro r h
      obtain ⟨hover, hkeys⟩ := ih _ (h.query actor [.inShard k])
      refine ⟨hover, fun key hkey => hkeys key ?_⟩
      rw [List.mem_cons, ← or_assoc] at hkey
      refine hkey.imp_left fun hkey => h.mem_keys_query actor [.inShard k] (hkey.imp_right ?_)
      rintro rfl
      rfl
  obtain ⟨hover, hkeys⟩ := hfold keys.toList r h
  exact ⟨hover, fun key hkey => hkeys key (.inr hkey)⟩

end Router.Over

lemma mem_warmTargets {actor : Actor} {ps : List Predicate} {key : ShardKey}
    (htarget : IsTarget actor ps key) : key ∈ Run.warmTargets actor ps := by
  unfold Run.warmTargets
  dsimp only
  have hnamed : ∀ k, k ∈ SortedSet.ofList ((ps.filter fun p =>
      p.isTargeting && p.operator.isInclusive).flatMap (·.operands.filterMap Operand.shard?)) ↔
        ∃ p ∈ ps, p.Includes ∧ .shard k ∈ p.operands := by
    intro k
    simp only [SortedSet.mem_ofList, List.mem_flatMap, List.mem_filter, ← Predicate.includes_iff,
      ← Predicate.mem_shardKeys, Predicate.shardKeys, and_assoc]
  generalize (SortedSet.ofList _ : SortedSet ShardKey) = named at hnamed ⊢
  split
  · next hnone =>
    -- nothing is named, so the actor chooses
    refine htarget.own fun p hp hincludes => ?_
    have hkey : key ∈ named := (hnamed key).2 ⟨p, hp, hincludes, htarget.included p hp hincludes⟩
    rw [SortedSet.mem_def, List.isEmpty_iff.1 hnone] at hkey
    cases hkey
  · next hsome =>
    obtain ⟨k, hk⟩ := List.exists_mem_of_ne_nil named.toList (mt List.isEmpty_iff.2 hsome)
    obtain ⟨p, hp, hincludes, -⟩ := (hnamed k).1 hk
    exact (hnamed key).2 ⟨p, hp, hincludes, htarget.included p hp hincludes⟩

/-! ### Looking at the records one by one -/

instance (actor : Actor) (ps : List Predicate) (key : ShardKey) : Decidable (IsTarget actor ps key) :=
  decidable_of_iff _ mem_targets

/-- The query of the actor asks for the record: its shard is a target, and every predicate lets it
through. -/
structure Task.AskedFor (actor : Actor) (ps : List Predicate) (today : Date) (t : Task) : Prop where
  target : IsTarget actor ps t.shard
  live : t.archived = false
  indexable : t.HasIndexableId
  matching : ∀ p ∈ ps, p.Matches t today = true

instance (actor : Actor) (ps : List Predicate) (today : Date) (t : Task) :
    Decidable (t.AskedFor actor ps today) :=
  decidable_of_iff (IsTarget actor ps t.shard ∧ t.archived = false ∧ t.HasIndexableId ∧
      ∀ p ∈ ps, p.Matches t today = true)
    ⟨fun ⟨target, live, indexable, matching⟩ => ⟨target, live, indexable, matching⟩,
      fun h => ⟨h.target, h.live, h.indexable, h.matching⟩⟩

namespace Router.Over

variable {store : Store} {snapshot : Snapshot} {day : Date} {limits : PageLimits} {r : Router}
  {key : ShardKey} {actor : Actor} {ps : List Predicate}

lemma today_eq (h : Over store day limits r) {s : Shard} (hs : s ∈ r.shards) : s.today = day := by
  have htoday := (h.reachable.sound.shards s hs _ (h.loaded s hs)).2.2
  rw [← htoday, Index.today_load]

lemma find?_of_mem_keys (h : Over store day limits r) (hkey : key ∈ r.keys) :
    ∃ s, r.find? key = some s ∧ s.content = .ok (Index.load key day (store.live key)) := by
  cases hfind : r.find? key with
  | none => exact absurd hkey (find?_eq_none_iff.1 hfind)
  | some s =>
    obtain ⟨hs, rfl⟩ := mem_of_find? hfind
    exact ⟨s, rfl, h.loaded s hs⟩

lemma mem_matchesIn (h : Over store day limits r) (hkey : key ∈ r.keys) {t : Task} :
    t ∈ r.matchesIn ps key ↔
      t ∈ store.tasks ∧ Index.Takes key t ∧ ∀ p ∈ ps, p.Matches t day = true := by
  obtain ⟨s, hfind, hcontent⟩ := h.find?_of_mem_keys hkey
  rw [matchesIn, index?_eq_some_iff.2 ⟨s, hfind, hcontent⟩]
  exact Index.mem_filter_load

/-- With every target cached, the parts of an answer are the records of the snapshot that are asked for. -/
lemma parts_perm (h : Over snapshot.store day limits r) {included : SortedSet ShardKey}
    (hincluded : ∀ key, key ∈ included ↔ IsTarget actor ps key) (hcached : ∀ key ∈ included, key ∈ r.keys) :
    (included.toList.flatMap (r.matchesIn ps)).Perm
      ((Task.latest snapshot.tasks).filter (·.AskedFor actor ps day)) := by
  have hparts : (included.toList.flatMap (r.matchesIn ps)).Nodup :=
    (h.reachable.sound.apart ps included.nodup).nodup
  have hrecords : ((Task.latest snapshot.tasks).filter (·.AskedFor actor ps day)).Nodup :=
    (Task.apart_latest snapshot.tasks).nodup.filter _
  refine (List.perm_ext_iff_of_nodup hparts hrecords).2 fun t => ?_
  rw [List.mem_flatMap, List.mem_filter, decide_eq_true_iff, ← Store.mem_ofTasks]
  constructor
  · rintro ⟨key, hkey, ht⟩
    obtain ⟨hstored, ⟨hlive, rfl, hindexable⟩, hmatches⟩ := (h.mem_matchesIn (hcached key hkey)).1 ht
    exact ⟨hstored, (hincluded _).1 hkey, hlive, hindexable, hmatches⟩
  · rintro ⟨hstored, htarget, hlive, hindexable, hmatches⟩
    have hkey : t.shard ∈ included := (hincluded _).2 htarget
    exact ⟨t.shard, hkey, (h.mem_matchesIn (hcached _ hkey)).2 ⟨hstored, ⟨hlive, rfl, hindexable⟩, hmatches⟩⟩

lemma included_query (h : Over store day limits r)
    (hcached : ∀ key, IsTarget actor ps key → key ∈ r.keys) :
    (∀ key, key ∈ (r.query actor ps).2.included ↔ IsTarget actor ps key) ∧
      (r.query actor ps).2.excluded = ∅ ∧ (r.query actor ps).2.erroneous = ∅ := by
  have hafter := h.query actor ps
  have haccounts := h.reachable.accounts_query actor ps
  have hloaded : ∀ key, IsTarget actor ps key → ∃ s, (r.query actor ps).1.find? key = some s ∧
      s.content = .ok (Index.load key day (store.live key)) := fun key htarget =>
    hafter.find?_of_mem_keys (h.mem_keys_query actor ps (.inl (hcached key htarget)))
  refine ⟨fun key => ?_, ?_, ?_⟩
  · rw [haccounts.included]
    refine and_iff_left_of_imp fun htarget => ?_
    obtain ⟨s, hfind, hcontent⟩ := hloaded key htarget
    exact ⟨s, _, hfind, hcontent⟩
  · refine SortedSet.eq_of_mem_iff fun key => ⟨fun hkey => ?_, fun hkey => absurd hkey List.not_mem_nil⟩
    obtain ⟨htarget, hnone⟩ := (haccounts.excluded key).1 hkey
    obtain ⟨s, hfind, -⟩ := hloaded key htarget
    rw [hnone] at hfind
    cases hfind
  · refine SortedSet.eq_of_mem_iff fun key => ⟨fun hkey => ?_, fun hkey => absurd hkey List.not_mem_nil⟩
    obtain ⟨htarget, s, e, hfind, herror⟩ := (haccounts.erroneous key).1 hkey
    obtain ⟨s', hfind', hcontent⟩ := hloaded key htarget
    obtain rfl : s = s' := Option.some.inj (hfind.symm.trans hfind')
    rw [hcontent] at herror
    cases herror

end Router.Over

/-! ### The run of a query -/

namespace Run

end Run

end TaskIndex
