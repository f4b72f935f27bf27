import TaskIndex.Proofs.Router.Agreement
import TaskIndex.Proofs.Router.Target

/-!
What becomes of every shard that a query is about.

A router state decides the lot of each shard: it is not cached, its index could not be loaded, or it
answers. Every way a query can go puts each target into the set that this lot calls for and nothing
else into any set. So the sets never overlap, nothing is forgotten, and what a query does not look at,
the order of its predicates for one, cannot change them.
-/

namespace TaskIndex

/-! ### What every cached shard is like -/

/-- If the shard has no index, that is because loading it failed. -/
def Shard.FailsOnlyToLoad (s : Shard) : Prop :=
  ∀ e, s.content = .error e → ∃ detail, e = .loadFailed s.key detail

lemma Shard.failsOnlyToLoad_ofScan (key : ShardKey) (today : Date)
    (scanned : Except SourceError (List Task)) : (ofScan key today scanned).FailsOnlyToLoad := by
  intro e he
  cases scanned with
  | ok scanned => cases he
  | error cause => exact ⟨cause.message, (Except.error.inj he).symm⟩

lemma Shard.FailsOnlyToLoad.apply {s : Shard} (h : s.FailsOnlyToLoad) (batch : ChangeBatch) :
    (s.apply batch).1.FailsOnlyToLoad := by
  unfold Shard.apply
  split
  · exact fun e he => nomatch he
  · exact h

namespace Router

variable {r : Router} {key : ShardKey} {s : Shard} {actor : Actor} {ps qs : List Predicate} {a : Answer}
  {T : ShardKey → Prop}

/-- A shard that is not cached is loaded and put behind the others. -/
lemma obtain_of_find?_none (hnone : r.find? key = none) :
    r.obtain key =
      let shard := Shard.ofScan key r.today (r.source.scan key).2
      ({ r with source := (r.source.scan key).1, shards := r.shards ++ [shard] }, shard) := by
  unfold obtain
  rw [hnone]
  rfl

lemma obtain_of_find?_some (hfind : r.find? key = some s) : r.obtain key = (r, s) := by
  unfold obtain
  rw [hfind]

lemma find?_obtain_eq (r : Router) (key k : ShardKey) :
    (r.obtain key).1.find? k = if k = key then some (r.obtain key).2 else r.find? k := by
  split
  · next hk => rw [hk, find?_obtain]
  · next hk =>
    cases hfind : r.find? key with
    | some s => rw [obtain_of_find?_some hfind]
    | none =>
      have hkey := (Shard.key_ofScan key r.today (r.source.scan key).2).1
      rw [obtain_of_find?_none hfind, find?, find?, List.find?_append]
      simp [hkey, Ne.symm hk]

/-- The state after a query is the one after the check of the day, and if the query is a request to
index that an open router takes, one more shard may be cached there. -/
lemma query_state (r : Router) (actor : Actor) (ps : List Predicate) :
    ((r.query actor ps).1 = r.rollOver ∧ (r.closed = false → ∀ key, Route.of actor ps ≠ .index key)) ∨
      ∃ key, r.closed = false ∧ Route.of actor ps = .index key ∧
        (r.query actor ps).1 = (r.rollOver.obtain key).1 := by
  cases hclosed : r.closed with
  | true =>
    have hclosed' : r.rollOver.closed = true := (frame_rollOver r).2.2.trans hclosed
    exact .inl ⟨congrArg Prod.fst (if_pos hclosed'), fun hopen => nomatch hopen⟩
  | false =>
    rw [query_of_open hclosed]
    generalize Route.of actor ps = route
    cases route with
    | index key => exact .inr ⟨key, rfl, rfl, rfl⟩
    | empty | single | multi => exact .inl ⟨rfl, fun _ key hroute => nomatch hroute⟩

lemma notify_state (r : Router) (batch : ChangeBatch) :
    (r.notify batch).1 = r ∨
      ∃ s ∈ r.shards, (r.notify batch).1 = r.replace (s.apply batch).1 := by
  unfold notify
  split
  · exact .inl rfl
  · next s hs => exact .inr ⟨s, (mem_of_find? hs).1, rfl⟩

/-- What is true of a shard just loaded, and stays true whatever batch it is handed, is true of every
cached shard. -/
lemma Reachable.forall_shards {P : Shard → Prop} (h : r.Reachable)
    (hscan : ∀ key today scanned, P (.ofScan key today scanned))
    (happly : ∀ s batch, P s → P (s.apply batch).1) : ∀ s ∈ r.shards, P s := by
  have hobtain : ∀ (r : Router) (key : ShardKey), (∀ s ∈ r.shards, P s) →
      ∀ s ∈ (r.obtain key).1.shards, P s := by
    intro r key hr s hs
    cases hfind : r.find? key with
    | some u => exact hr s (by rwa [obtain_of_find?_some hfind] at hs)
    | none =>
      rw [obtain_of_find?_none hfind] at hs
      rcases List.mem_append.1 hs with hs | hs
      · exact hr s hs
      · rw [List.mem_singleton.1 hs]
        exact hscan key r.today _
  induction h with
  | start | close => exact fun s hs => absurd hs List.not_mem_nil
  | query r actor ps _ ih =>
    have hday : ∀ s ∈ r.rollOver.shards, P s := fun s hs => ih s (shards_rollOver r s hs)
    rcases query_state r actor ps with ⟨hstate, -⟩ | ⟨key, -, -, hstate⟩
    · rwa [hstate]
    · rw [hstate]
      exact hobtain r.rollOver key hday
  | rollOver r _ ih => exact fun s hs => ih s (shards_rollOver r s hs)
  | obtain r key _ _ ih => exact hobtain r key ih
  | notify r batch _ ih =>
    rcases notify_state r batch with hstate | ⟨s, hs, hstate⟩
    · rwa [hstate]
    · intro u hu
      rw [hstate] at hu
      obtain ⟨v, hv, rfl⟩ := List.mem_map.1 hu
      split
      · exact happly s batch (ih s hs)
      · exact ih v hv
  | evict r key _ ih => exact fun s hs => ih s (List.mem_filter.1 hs).1
  | setDate | restock => assumption

lemma Reachable.failsOnlyToLoad (h : r.Reachable) (hfind : r.find? key = some s) : s.FailsOnlyToLoad :=
  h.forall_shards Shard.failsOnlyToLoad_ofScan (fun _ batch hs => hs.apply batch) s (mem_of_find? hfind).1

/-- A closed router caches nothing. -/
lemma Reachable.shards_of_closed (h : r.Reachable) (hclosed : r.closed = true) : r.shards = [] := by
  have hday : ∀ r : Router, r.shards = [] → r.rollOver.shards = [] := by
    intro r hr
    unfold Router.rollOver
    split
    · rfl
    · exact hr
  induction h with
  | start | close => rfl
  | query r actor ps _ ih =>
    rcases query_state r actor ps with ⟨hstate, -⟩ | ⟨key, hopen, -, hstate⟩
    · rw [hstate] at hclosed ⊢
      exact hday r (ih ((frame_rollOver r).2.2 ▸ hclosed))
    · have hstill : (r.rollOver.obtain key).1.closed = r.rollOver.closed := by
        unfold Router.obtain
        split <;> rfl
      rw [hstate, hstill, (frame_rollOver r).2.2, hopen] at hclosed
      cases hclosed
  | rollOver r _ ih => exact hday r (ih ((frame_rollOver r).2.2 ▸ hclosed))
  | obtain r key hopen _ _ =>
    have hstill : (r.obtain key).1.closed = r.closed := by
      unfold Router.obtain
      split <;> rfl
    rw [hstill, hopen] at hclosed
    cases hclosed
  | notify r batch _ ih =>
    rcases notify_state r batch with hstate | ⟨s, -, hstate⟩
    · rw [hstate] at hclosed ⊢
      exact ih hclosed
    · rw [hstate] at hclosed ⊢
      simp [replace, ih hclosed]
  | evict r key _ ih => simp [Router.evict, ih hclosed]
  | setDate r today _ ih => exact ih hclosed
  | restock r source _ ih => exact ih hclosed

/-! ### One set for each lot -/

structure Accounts (r : Router) (T : ShardKey → Prop) (a : Answer) : Prop where
  included : ∀ key, key ∈ a.included ↔ T key ∧ ∃ s idx, r.find? key = some s ∧ s.content = .ok idx
  excluded : ∀ key, key ∈ a.excluded ↔ T key ∧ r.find? key = none
  erroneous : ∀ key, key ∈ a.erroneous ↔ T key ∧ ∃ s e, r.find? key = some s ∧ s.content = .error e
  tasks : ∀ t ∈ a.tasks, t.shard ∈ a.included
  nothing : a.included = ∅ → a.tasks = [] ∧ a.total = 0

lemma Accounts.congr {U : ShardKey → Prop} (h : r.Accounts T a) (htu : ∀ key, T key ↔ U key) :
    r.Accounts U a := by
  rwa [show T = U from funext fun key => propext (htu key)] at h

lemma accounts_excluding {keys : SortedSet ShardKey} (h : ∀ key ∈ keys, r.find? key = none) :
    r.Accounts (· ∈ keys) (.excluding keys) where
  included key := by
    refine ⟨fun hkey => absurd hkey List.not_mem_nil, ?_⟩
    rintro ⟨hkey, s, -, hs, -⟩
    rw [h key hkey] at hs
    cases hs
  excluded key := ⟨fun hkey => ⟨hkey, h key hkey⟩, And.left⟩
  erroneous key := by
    refine ⟨fun hkey => absurd hkey List.not_mem_nil, ?_⟩
    rintro ⟨hkey, s, -, hs, -⟩
    rw [h key hkey] at hs
    cases hs
  tasks t ht := absurd ht List.not_mem_nil
  nothing _ := ⟨rfl, rfl⟩

lemma Sound.accounts_askShard (h : r.Sound) (hfind : r.find? key = some s) :
    r.Accounts (· = key) (r.askShard ps s) := by
  obtain ⟨hmem, rfl⟩ := mem_of_find? hfind
  -- what a shard of another key is like does not matter
  have hthis : ∀ {k u}, k = s.key → r.find? k = some u → u = s := by
    rintro k u rfl hu
    exact Option.some.inj (hu.symm.trans hfind)
  cases hcontent : s.content with
  | error e =>
    have hask : r.askShard ps s = { erroneous := .single s.key } := by
      simp [askShard, Shard.lookup, hcontent, Except.map, Answer.ofShard]
    rw [hask]
    refine ⟨fun k => ⟨fun hk => absurd hk List.not_mem_nil, ?_⟩, fun k => ⟨fun hk => absurd hk
      List.not_mem_nil, ?_⟩, fun k => ⟨fun hk => ?_, ?_⟩, fun t ht => absurd ht List.not_mem_nil,
      fun _ => ⟨rfl, rfl⟩⟩
    · rintro ⟨hk, u, idx, hu, hidx⟩
      rw [hthis hk hu, hcontent] at hidx
      cases hidx
    · rintro ⟨rfl, hnone⟩
      rw [hfind] at hnone
      cases hnone
    · obtain rfl := SortedSet.mem_single.1 hk
      exact ⟨rfl, s, e, hfind, hcontent⟩
    · exact fun hk => SortedSet.mem_single.2 hk.1
  | ok idx =>
    obtain ⟨hsound, hshard, -⟩ := h.shards s hmem idx hcontent
    have hask : r.askShard ps s =
        .ofShard s.key (.ok (idx.lookup r.limits (withoutTargeting ps))) := by
      simp [askShard, Shard.lookup, hcontent, Except.map]
    rw [hask]
    refine ⟨fun k => ⟨fun hk => ?_, fun hk => SortedSet.mem_single.2 hk.1⟩, fun k => ⟨fun hk => absurd hk
      List.not_mem_nil, ?_⟩, fun k => ⟨fun hk => absurd hk List.not_mem_nil, ?_⟩, fun t ht => ?_,
      fun hnone => ?_⟩
    · obtain rfl := SortedSet.mem_single.1 hk
      exact ⟨rfl, s, idx, hfind, hcontent⟩
    · rintro ⟨rfl, hnone⟩
      rw [hfind] at hnone
      cases hnone
    · rintro ⟨hk, u, e, hu, he⟩
      rw [hthis hk hu, hcontent] at he
      cases he
    · have hstored := (hsound.filter_stored _).2 t (Page.mem_of_mem_ofMatches ht)
      exact SortedSet.mem_single.2 ((hsound.owned t.id t hstored).1.trans hshard)
    · have hkey : s.key ∈ (∅ : SortedSet ShardKey) := hnone ▸ SortedSet.mem_single.2 rfl
      exact absurd hkey List.not_mem_nil

lemma Sound.accounts_fanOut (h : r.Sound) (keys : SortedSet ShardKey) (ps : List Predicate) :
    r.Accounts (· ∈ keys) (r.fanOut keys ps) := by
  refine ⟨fun key => ?_, fun key => ?_, fun key => ?_, fun t ht => ?_, fun hnone => ?_⟩
  · rw [included_fanOut, SortedSet.mem_ofList, answering, List.mem_filter, Option.isSome_iff_exists,
      SortedSet.mem_def]
    simp only [index?_eq_some_iff]
    rw [exists_comm]
  · exact SortedSet.mem_filter.trans (and_congr_right fun _ => Option.isNone_iff_eq_none)
  · simp only [fanOut, Answer.ofPage, SortedSet.mem_ofList, List.mem_map, List.mem_filter,
      List.mem_filterMap]
    constructor
    · rintro ⟨⟨k, reply⟩, ⟨⟨s, ⟨k', hk', hs⟩, hreply⟩, hfailed⟩, rfl⟩
      obtain ⟨rfl, rfl⟩ := Prod.mk.inj hreply
      obtain rfl := (mem_of_find? hs).2
      refine ⟨hk', s, ?_⟩
      cases hcontent : s.content with
      | error e => exact ⟨e, hs, rfl⟩
      | ok idx => simp [Shard.filter, hcontent, Except.map, Except.toBool] at hfailed
    · rintro ⟨hkey, s, e, hs, hcontent⟩
      refine ⟨(s.key, s.filter (filtersOnly ps)), ⟨⟨s, ⟨key, hkey, hs⟩, rfl⟩, ?_⟩, (mem_of_find? hs).2⟩
      simp [Shard.filter, hcontent, Except.map, Except.toBool]
  · have hpage := congrArg Page.tasks (page_fanOut r keys ps)
    dsimp only at hpage
    rw [← hpage] at ht
    obtain ⟨key, hkey, ht⟩ := List.mem_flatMap.1 (Page.mem_of_mem_ofMatches ht)
    rw [included_fanOut, SortedSet.mem_ofList, (h.matchesIn ps key).1 t ht]
    exact hkey
  · have hempty : r.answering keys = [] := by
      refine List.eq_nil_iff_forall_not_mem.2 fun key hkey => ?_
      have hkey : key ∈ (∅ : SortedSet ShardKey) := by
        rw [← hnone, included_fanOut]
        exact SortedSet.mem_ofList.2 hkey
      exact absurd hkey List.not_mem_nil
    have hpage := page_fanOut r keys ps
    rw [hempty, List.flatMap_nil, Page.ofMatches_nil] at hpage
    exact ⟨(congrArg Page.tasks hpage).symm, (congrArg Page.total hpage).symm⟩

/-- Whichever way a query goes, its answer has a set for every target. -/
lemma Reachable.accounts_query (h : r.Reachable) (actor : Actor) (ps : List Predicate) :
    (r.query actor ps).1.Accounts (IsTarget actor ps) (r.query actor ps).2 := by
  refine Accounts.congr (T := (· ∈ (Route.of actor ps).targets)) ?_ fun _ => Route.mem_targets_of
  have hsound : r.rollOver.Sound := h.sound.rollOver
  cases hclosed : r.closed with
  | true =>
    have hclosed' : r.rollOver.closed = true := (frame_rollOver r).2.2.trans hclosed
    have hquery : r.query actor ps = (r.rollOver, .excluding (Route.of actor ps).targets) :=
      if_pos hclosed'
    rw [hquery]
    refine accounts_excluding fun key _ => ?_
    rw [find?, h.rollOver.shards_of_closed hclosed', List.find?_nil]
  | false =>
    rw [query_of_open hclosed]
    generalize Route.of actor ps = route
    cases route with
    | index key =>
      exact ((hsound.obtain key).accounts_askShard (find?_obtain r.rollOver key)).congr
        fun _ => SortedSet.mem_single.symm
    | empty => exact accounts_excluding fun key hkey => absurd hkey List.not_mem_nil
    | single key =>
      dsimp only
      cases hfind : r.rollOver.find? key with
      | none =>
        refine accounts_excluding fun k hk => ?_
        rw [SortedSet.mem_single.1 hk, hfind]
      | some s => exact (hsound.accounts_askShard hfind).congr fun _ => SortedSet.mem_single.symm
    | multi keys => exact hsound.accounts_fanOut keys ps

end Router

/-! ### Every target once -/

/-- Each of the shards in question is in one of the three sets of the answer, and no other shard is. -/
structure Answer.Partitions (a : Answer) (T : ShardKey → Prop) : Prop where
  covers : ∀ key, T key ↔ key ∈ a.included ∨ key ∈ a.excluded ∨ key ∈ a.erroneous
  once : ∀ key, ¬(key ∈ a.included ∧ key ∈ a.excluded) ∧ ¬(key ∈ a.included ∧ key ∈ a.erroneous) ∧
    ¬(key ∈ a.excluded ∧ key ∈ a.erroneous)

lemma Router.Accounts.partitions {r : Router} {T : ShardKey → Prop} {a : Answer} (h : r.Accounts T a) :
    a.Partitions T where
  covers key := by
    rw [h.included, h.excluded, h.erroneous, ← and_or_left, ← and_or_left]
    refine (and_iff_left ?_).symm
    cases hfind : r.find? key with
    | none => exact .inr (.inl rfl)
    | some s =>
      cases hcontent : s.content with
      | ok idx => exact .inl ⟨s, idx, rfl, hcontent⟩
      | error e => exact .inr (.inr ⟨s, e, rfl, hcontent⟩)
  once key := by
    rw [h.included, h.excluded, h.erroneous]
    refine ⟨?_, ?_, ?_⟩
    · rintro ⟨⟨-, s, idx, hs, -⟩, -, hnone⟩
      rw [hnone] at hs
      cases hs
    · rintro ⟨⟨-, s, idx, hs, hok⟩, -, u, e, hu, herror⟩
      obtain rfl : s = u := Option.some.inj (hs.symm.trans hu)
      rw [hok] at herror
      cases herror
    · rintro ⟨⟨-, hnone⟩, -, s, e, hs, -⟩
      rw [hnone] at hs
      cases hs

/-- When the parts cannot be merged, the shards that have answered count as erroneous. -/
lemma Answer.Partitions.unmerged {a : Answer} {T : ShardKey → Prop} (h : a.Partitions T) :
    (Answer.unmerged a.included a.excluded a.erroneous).Partitions T where
  covers key := by
    rw [h.covers, Answer.unmerged, SortedSet.mem_union]
    constructor
    · rintro (hi | hx | he)
      · exact .inr (.inr (.inr hi))
      · exact .inr (.inl hx)
      · exact .inr (.inr (.inl he))
    · rintro (hnone | hx | he | hi)
      · exact absurd hnone List.not_mem_nil
      · exact .inr (.inl hx)
      · exact .inr (.inr he)
      · exact .inl hi
  once key := by
    obtain ⟨hix, -, hxe⟩ := h.once key
    refine ⟨fun hk => absurd hk.1 List.not_mem_nil, fun hk => absurd hk.1 List.not_mem_nil, ?_⟩
    rintro ⟨hx, he⟩
    rcases SortedSet.mem_union.1 he with he | hi
    · exact hxe ⟨hx, he⟩
    · exact hix ⟨hi, hx⟩

namespace Router

/-- Neither the order of the predicates nor an actor who has no say changes the state that is left. -/
lemma query_fst_congr {r : Router} {actor actor' : Actor} {ps qs : List Predicate}
    (hroute : Route.of actor' qs = Route.of actor ps) :
    (r.query actor' qs).1 = (r.query actor ps).1 := by
  unfold query
  rw [hroute]
  dsimp only
  split
  · rfl
  · split <;> rfl

/-- A query finds nothing cached in a closed router. -/
lemma Reachable.find?_query_of_closed {r : Router} (h : r.Reachable) (hclosed : r.closed = true)
    (actor : Actor) (ps : List Predicate) (key : ShardKey) : (r.query actor ps).1.find? key = none := by
  have hstate : (r.query actor ps).1 = r.rollOver := by
    rcases query_state r actor ps with ⟨hstate, -⟩ | ⟨-, hopen, -⟩
    · exact hstate
    · rw [hclosed] at hopen
      cases hopen
  have hnone : (r.query actor ps).1.shards = [] :=
    (Reachable.query r actor ps h).shards_of_closed (by rw [hstate, (frame_rollOver r).2.2, hclosed])
  rw [find?, hnone, List.find?_nil]

/-- A query of an open router leaves a target without a cached shard when there is none once the day is
checked and none was asked to be created. -/
lemma find?_query_eq_none_iff {r : Router} {actor : Actor} {ps : List Predicate} {key : ShardKey}
    (hopen : r.closed = false) (htarget : IsTarget actor ps key) :
    (r.query actor ps).1.find? key = none ↔
      r.rollOver.find? key = none ∧ Route.of actor ps ≠ .index key := by
  rcases query_state r actor ps with ⟨hstate, hother⟩ | ⟨k, -, hroute, hstate⟩
  · rw [hstate]
    exact (and_iff_left (hother hopen key)).symm
  · -- the shard that was asked for is there now, and it is the only target
    obtain rfl : key = k := by
      rw [← Route.mem_targets_of, hroute] at htarget
      exact SortedSet.mem_single.1 htarget
    rw [hstate, find?_obtain]
    exact ⟨fun hnone => (nomatch hnone), fun h => absurd hroute h.2⟩

/-- **Every target once**: in any state, open or closed, the answer has each shard that the query is
about in exactly one of its three sets, and still does when the parts could not be merged. A closed
router has all of them excluded. An open one excludes those that are not cached once the day is checked,
unless the query has just had one created; those whose loading failed are erroneous, and the rest are
included. Only included shards contribute. What the predicates say in which order makes no difference to
the sets, nor does the actor where an inclusive predicate chooses. -/
theorem query_accounts_for_targets (r : Router) (hr : r.Reachable) (actor : Actor)
    (ps : List Predicate) :
    let after := (r.query actor ps).1
    let a := (r.query actor ps).2
    a.Partitions (IsTarget actor ps) ∧
    (Answer.unmerged a.included a.excluded a.erroneous).Partitions (IsTarget actor ps) ∧
    (r.closed = true → ∀ key, key ∈ a.excluded ↔ IsTarget actor ps key) ∧
    (r.closed = false → ∀ key,
      (key ∈ a.excluded ↔ IsTarget actor ps key ∧ r.rollOver.find? key = none ∧
        Route.of actor ps ≠ .index key) ∧
      (key ∈ a.erroneous ↔ IsTarget actor ps key ∧ ∃ s detail, after.find? key = some s ∧
        s.content = .error (.loadFailed key detail)) ∧
      (key ∈ a.included ↔ IsTarget actor ps key ∧ ∃ s idx, after.find? key = some s ∧
        s.content = .ok idx)) ∧
    (∀ t ∈ a.tasks, t.shard ∈ a.included) ∧
    (a.included = ∅ → a.tasks = [] ∧ a.total = 0) ∧
    (∀ qs : List Predicate, qs.Perm ps → (∀ key, IsTarget actor qs key ↔ IsTarget actor ps key) ∧
      (r.query actor qs).2.included = a.included ∧ (r.query actor qs).2.excluded = a.excluded ∧
      (r.query actor qs).2.erroneous = a.erroneous) ∧
    ∀ p ∈ ps, p.Includes → ∀ actor' : Actor,
      (∀ key, IsTarget actor' ps key ↔ IsTarget actor ps key) ∧
      r.query actor' ps = r.query actor ps := by
  intro after a
  have haccounts : after.Accounts (IsTarget actor ps) a := hr.accounts_query actor ps
  have hafter : after.Reachable := .query r actor ps hr
  refine ⟨haccounts.partitions, haccounts.partitions.unmerged, fun hclosed key => ?_,
    fun hopen key => ⟨?_, ?_, haccounts.included key⟩, haccounts.tasks, haccounts.nothing,
    fun qs hqs => ⟨fun _ => isTarget_perm hqs, ?_⟩, fun p hp hincludes actor' => ⟨fun key => ?_, ?_⟩⟩
  · rw [haccounts.excluded]
    exact and_iff_left (hr.find?_query_of_closed hclosed actor ps key)
  · rw [haccounts.excluded]
    exact and_congr_right fun htarget => find?_query_eq_none_iff hopen htarget
  · rw [haccounts.erroneous]
    refine and_congr_right fun _ => ⟨?_, fun ⟨s, detail, hs, hcontent⟩ => ⟨s, _, hs, hcontent⟩⟩
    rintro ⟨s, e, hs, hcontent⟩
    obtain ⟨detail, rfl⟩ := hafter.failsOnlyToLoad hs e hcontent
    obtain ⟨-, rfl⟩ := mem_of_find? hs
    exact ⟨s, detail, hs, hcontent⟩
  · have hother := hr.accounts_query actor qs
    rw [query_fst_congr (Route.of_perm hqs)] at hother
    refine ⟨SortedSet.eq_of_mem_iff fun key => ?_, SortedSet.eq_of_mem_iff fun key => ?_,
      SortedSet.eq_of_mem_iff fun key => ?_⟩
    · rw [hother.included, haccounts.included, isTarget_perm hqs]
    · rw [hother.excluded, haccounts.excluded, isTarget_perm hqs]
    · rw [hother.erroneous, haccounts.erroneous, isTarget_perm hqs]
  · exact ⟨fun h => h.of_includes hp hincludes actor, fun h => h.of_includes hp hincludes actor'⟩
  · unfold query
    rw [Route.of_includes hp hincludes]

/-- Of the two shards that a query is about, the second is offline. -/
theorem query_accounts_for_targets_offline :
    let today : Date := ⟨2026, 3, 1, by decide⟩
    let source : Source := { offline := [maple] }
    let r := (((start source today default).obtain Index.cedar).1.obtain maple).1
    let actor : Actor := ⟨"ana", .ofList [Index.cedar, maple]⟩
    let a := (r.query actor [.equals .status (.status .unsolved)]).2
    r.Reachable ∧ a.Partitions (IsTarget actor [.equals .status (.status .unsolved)]) ∧
      Index.cedar ∈ a.included ∧ maple ∈ a.erroneous := by
  intro today source r actor a
  have hr : r.Reachable := .obtain _ maple rfl (.obtain _ Index.cedar rfl (.start source today default))
  have htarget : ∀ key ∈ [Index.cedar, maple],
      IsTarget actor [.equals .status (.status .unsolved)] key := by
    intro key hkey
    have hnone : ∀ p ∈ [Predicate.equals .status (.status .unsolved)], p.property ≠ .shard := by decide
    exact ⟨fun p hp h => absurd h.1 (hnone p hp), fun _ => SortedSet.mem_ofList.2 hkey,
      fun p hp h => absurd h.1 (hnone p hp)⟩
  obtain ⟨hpartitions, -, -, hlots, -⟩ :=
    query_accounts_for_targets r hr actor [.equals .status (.status .unsolved)]
  refine ⟨hr, hpartitions, (hlots rfl Index.cedar).2.2.2 ⟨htarget _ (by simp), _, _, rfl, rfl⟩,
    (hlots rfl maple).2.1.2 ⟨htarget _ (by simp), _, _, rfl, rfl⟩⟩

end Router

end TaskIndex
