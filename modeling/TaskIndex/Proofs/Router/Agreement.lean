import Mathlib.Algebra.GroupWithZero.Nat
import TaskIndex.Proofs.Query.Order
import TaskIndex.Proofs.Router.Reach
import TaskIndex.Proofs.Router.Route

/-!
One shard or many, the same page.

A query of one shard is filtered, ordered and cut inside the shard, a query of many is filtered in the
shards and ordered and cut once by the router. Either way the answer is the page of one list: the
matches of the shards that have answered, in the one order in which no two of them tie.
-/

namespace TaskIndex.Router

def index? (r : Router) (key : ShardKey) : Option Index :=
  (r.find? key).bind (·.content.toOption)

def matchesIn (r : Router) (ps : List Predicate) (key : ShardKey) : List Task :=
  (r.index? key).elim [] (·.filter (filtersOnly ps))

variable {r : Router} {key : ShardKey} {s : Shard} {idx : Index} {ps : List Predicate} {a : Answer}
  {today : Date}

/-! ### The matches of the shards -/

lemma index?_eq_some_iff :
    r.index? key = some idx ↔ ∃ s, r.find? key = some s ∧ s.content = .ok idx := by
  rw [index?, Option.bind_eq_some_iff]
  refine exists_congr fun s => and_congr_right fun _ => ?_
  cases s.content <;> simp [Except.toOption]

lemma Sound.index? (h : r.Sound) (hidx : r.index? key = some idx) : idx.Sound ∧ idx.shard = key := by
  obtain ⟨s, hs, hcontent⟩ := index?_eq_some_iff.1 hidx
  obtain ⟨hmem, hkey⟩ := mem_of_find? hs
  obtain ⟨hsound, hshard, -⟩ := h.shards s hmem idx hcontent
  exact ⟨hsound, hshard.trans hkey⟩

lemma Sound.matchesIn (h : r.Sound) (ps : List Predicate) (key : ShardKey) :
    (∀ t ∈ r.matchesIn ps key, t.shard = key) ∧
      (r.matchesIn ps key).Pairwise fun t u => t.id ≠ u.id := by
  unfold Router.matchesIn
  cases hidx : r.index? key with
  | none => exact ⟨fun t ht => absurd ht List.not_mem_nil, List.Pairwise.nil⟩
  | some idx =>
    obtain ⟨hsound, hshard⟩ := h.index? hidx
    obtain ⟨hnodup, hstored⟩ := hsound.filter_stored (filtersOnly ps)
    refine ⟨fun t ht => ?_, hnodup.imp_of_mem fun {t u} ht hu hne hid => hne ?_⟩
    · exact (hsound.owned t.id t (hstored t ht)).1.trans hshard
    · have := hstored t ht
      rw [hid, hstored u hu] at this
      exact (Option.some.inj this).symm

lemma Sound.apart (h : r.Sound) (ps : List Predicate) {keys : List ShardKey} (hkeys : keys.Nodup) :
    Task.Apart (keys.flatMap (r.matchesIn ps)) := by
  refine List.pairwise_flatMap.2 ⟨fun key _ => ?_, hkeys.imp fun {k l} hne t ht u hu hplace => hne ?_⟩
  · exact (h.matchesIn ps key).2.imp fun hid hplace => hid hplace.2
  · rw [← (h.matchesIn ps k).1 t ht, hplace.1, (h.matchesIn ps l).1 u hu]

/-! ### The answer of every route -/

structure Merged (r : Router) (ps : List Predicate) (today : Date) (a : Answer) : Prop where
  loaded : ∀ key ∈ a.included, ∃ idx, r.index? key = some idx
  page : ∃ matched, matched.Perm (a.included.toList.flatMap (r.matchesIn ps)) ∧
    Page.ofMatches (.ofPredicates r.limits ps) today matched = ⟨a.tasks, a.total⟩

/-- An answer that no shard has given is empty. -/
lemma merged_none (hincluded : a.included = ∅) (htasks : a.tasks = []) (htotal : a.total = 0) :
    Merged r ps today a where
  loaded key hkey := by
    rw [hincluded] at hkey
    exact absurd hkey List.not_mem_nil
  page := by
    refine ⟨[], ?_, ?_⟩
    · rw [hincluded]
      exact .refl _
    · rw [htasks, htotal, Page.ofMatches_nil]

/-- One shard filters, orders and cuts as the router would. -/
lemma merged_askShard (hs : s.Sound) (hfind : r.find? key = some s)
    (hday : key ∈ (r.askShard ps s).included → s.today = today) :
    Merged r ps today (r.askShard ps s) := by
  cases hcontent : s.content with
  | error e =>
    have hask : r.askShard ps s = { erroneous := .single s.key } := by
      simp [askShard, Shard.lookup, hcontent, Except.map, Answer.ofShard]
    rw [hask]
    exact merged_none rfl rfl rfl
  | ok idx =>
    have hask : r.askShard ps s =
        .ofShard key (.ok (idx.lookup r.limits (withoutTargeting ps))) := by
      simp [askShard, Shard.lookup, hcontent, Except.map, (mem_of_find? hfind).2]
    rw [hask] at hday ⊢
    have htoday : idx.today = today :=
      (hs idx hcontent).2.2.trans (hday (SortedSet.mem_single.2 rfl))
    have hidx : r.index? key = some idx := index?_eq_some_iff.2 ⟨s, hfind, hcontent⟩
    refine ⟨fun k hk => ⟨idx, by rwa [SortedSet.mem_single.1 hk]⟩, idx.filter (filtersOnly ps), ?_, ?_⟩
    · simp [Answer.ofShard, SortedSet.single, matchesIn, hidx]
    · rw [← ofPredicates_withoutTargeting, ← idx.filter_withoutTargeting, ← htoday]
      rfl

lemma answered_eq (r : Router) (ps : List Predicate) (keys : List ShardKey) :
    (((keys.filterMap r.find?).map fun shard => (shard.key, shard.filter (filtersOnly ps))).filterMap
      fun (key, reply) => reply.toOption.map fun tasks => (key, tasks)) =
      (keys.filter fun key => (r.index? key).isSome).map fun key => (key, r.matchesIn ps key) := by
  induction keys with
  | nil => rfl
  | cons key keys ih =>
    cases hfind : r.find? key with
    | none =>
      have hidx : r.index? key = none := by simp [index?, hfind]
      simpa [hfind, hidx] using ih
    | some s =>
      have hkey := (mem_of_find? hfind).2
      cases hcontent : s.content with
      | error e =>
        have hidx : r.index? key = none := by simp [index?, hfind, hcontent, Except.toOption]
        simpa [hfind, hidx, Shard.filter, hcontent, Except.map, Except.toOption] using ih
      | ok idx =>
        have hidx : r.index? key = some idx := index?_eq_some_iff.2 ⟨s, hfind, hcontent⟩
        simpa [hfind, hidx, Shard.filter, hcontent, Except.map, Except.toOption, hkey, matchesIn]
          using ih

def answering (r : Router) (keys : SortedSet ShardKey) : List ShardKey :=
  keys.toList.filter fun key => (r.index? key).isSome

lemma included_fanOut (r : Router) (keys : SortedSet ShardKey) (ps : List Predicate) :
    (r.fanOut keys ps).included = .ofList (r.answering keys) := by
  simp only [fanOut, Answer.ofPage, answered_eq, List.map_map]
  exact congrArg SortedSet.ofList (List.map_id _)

lemma page_fanOut (r : Router) (keys : SortedSet ShardKey) (ps : List Predicate) :
    Page.ofMatches (.ofPredicates r.limits ps) r.today ((r.answering keys).flatMap (r.matchesIn ps)) =
      ⟨(r.fanOut keys ps).tasks, (r.fanOut keys ps).total⟩ := by
  simp only [fanOut, Answer.ofPage, answered_eq, List.flatMap_map]
  rfl

lemma merged_fanOut (keys : SortedSet ShardKey) :
    Merged r ps r.today (r.fanOut keys ps) := by
  have hperm : (r.fanOut keys ps).included.toList.Perm (r.answering keys) := by
    rw [included_fanOut]
    exact SortedSet.toList_ofList_perm (keys.nodup.filter _)
  refine ⟨fun key hkey => ?_, (r.answering keys).flatMap (r.matchesIn ps), ?_, page_fanOut r keys ps⟩
  · exact Option.isSome_iff_exists.1 (List.mem_filter.1 (hperm.mem_iff.1 hkey)).2
  · exact (hperm.flatMap_right _).symm

lemma find?_obtain (r : Router) (key : ShardKey) :
    (r.obtain key).1.find? key = some (r.obtain key).2 := by
  unfold obtain
  split
  · next hfind => exact hfind
  · next hnone =>
    have hkey := (Shard.key_ofScan key r.today (r.source.scan key).2).1
    show (r.shards ++ [Shard.ofScan key r.today (r.source.scan key).2]).find? (·.key = key) = _
    rw [List.find?_append, show r.shards.find? (·.key = key) = none from hnone]
    simp [hkey, Shard.load]

lemma frame_rollOver (r : Router) :
    r.rollOver.today = r.today ∧ r.rollOver.limits = r.limits ∧ r.rollOver.closed = r.closed := by
  unfold rollOver
  split <;> exact ⟨rfl, rfl, rfl⟩

lemma limits_obtain (r : Router) (key : ShardKey) : (r.obtain key).1.limits = r.limits := by
  unfold obtain
  split <;> rfl

/-- What an open router does with a query, once the day is checked. -/
lemma query_of_open (hopen : r.closed = false) (actor : Actor) (ps : List Predicate) :
    r.query actor ps =
      match Route.of actor ps with
      | .index key => ((r.rollOver.obtain key).1,
          (r.rollOver.obtain key).1.askShard ps (r.rollOver.obtain key).2)
      | .empty => (r.rollOver, {})
      | .single key => (r.rollOver,
          (r.rollOver.find? key).elim (.excluding (.single key)) (r.rollOver.askShard ps))
      | .multi keys => (r.rollOver, r.rollOver.fanOut keys ps) := by
  have hclosed : r.rollOver.closed = false := (frame_rollOver r).2.2.trans hopen
  exact if_neg (by rw [hclosed]; exact Bool.false_ne_true)

/-- Every query that an open router takes is answered by a merged page, provided that the shards that
answer were built for the day of the query. -/
lemma Sound.merged_query (h : r.Sound) (hopen : r.closed = false) (actor : Actor) (ps : List Predicate)
    (hday : ∀ key ∈ (r.query actor ps).2.included, ∀ s,
      (r.query actor ps).1.find? key = some s → s.today = r.today) :
    Merged (r.query actor ps).1 ps r.today (r.query actor ps).2 ∧
      (r.query actor ps).1.limits = r.limits := by
  obtain ⟨htoday, hlimits, -⟩ := frame_rollOver r
  rw [query_of_open hopen] at hday ⊢
  generalize Route.of actor ps = route at hday ⊢
  cases route with
  | index key =>
    have hfind := find?_obtain r.rollOver key
    have hs := (h.rollOver.obtain key).shards _ (mem_of_find? hfind).1
    exact ⟨merged_askShard hs hfind fun hkey => hday key hkey _ hfind,
      (limits_obtain r.rollOver key).trans hlimits⟩
  | empty => exact ⟨merged_none rfl rfl rfl, hlimits⟩
  | single key =>
    refine ⟨?_, hlimits⟩
    dsimp only at hday ⊢
    cases hfind : r.rollOver.find? key with
    | none => exact merged_none rfl rfl rfl
    | some s =>
      simp only [hfind, Option.elim_some] at hday ⊢
      exact merged_askShard (h.rollOver.shards s (mem_of_find? hfind).1) hfind
        fun hkey => hday key hkey s hfind
  | multi keys =>
    refine ⟨?_, hlimits⟩
    rw [← htoday]
    exact merged_fanOut keys

/-! ### The day of the shards -/

lemma shards_obtain (r : Router) (key : ShardKey) :
    ∀ s ∈ (r.obtain key).1.shards, s ∈ r.shards ∨ s.today = r.today := by
  unfold obtain
  split
  · exact fun s hs => .inl hs
  · intro s hs
    refine (List.mem_append.1 hs).imp_right fun hs => ?_
    rw [List.mem_singleton.1 hs]
    exact (Shard.key_ofScan key r.today (r.source.scan key).2).2

lemma shards_rollOver (r : Router) : ∀ s ∈ r.rollOver.shards, s ∈ r.shards := by
  unfold rollOver
  split
  · exact fun s hs => absurd hs List.not_mem_nil
  · exact fun s hs => hs

lemma shards_query (hopen : r.closed = false) (actor : Actor) (ps : List Predicate) :
    ∀ s ∈ (r.query actor ps).1.shards, s ∈ r.shards ∨ s.today = r.today := by
  intro s hs
  rw [query_of_open hopen] at hs
  generalize Route.of actor ps = route at hs
  cases route with
  | index key =>
    rcases shards_obtain r.rollOver key s hs with hs | hday
    · exact .inl (shards_rollOver r s hs)
    · exact .inr (hday.trans (frame_rollOver r).1)
  | empty | single | multi => exact .inl (shards_rollOver r s hs)

/-! ### The page -/

/-- **The same page on every route**: whichever way an open router takes, and in whatever order the
parts are put together, the answer counts the matches of the shards that have answered and is the cut of
the one list of them that is in order. -/
theorem query_eq_page (r : Router) (hr : r.Reachable) (hopen : r.closed = false) (actor : Actor)
    (ps : List Predicate)
    (hday : ∀ key ∈ (r.query actor ps).2.included, ∀ s,
      (r.query actor ps).1.find? key = some s → s.today = r.today) :
    let after := (r.query actor ps).1
    let a := (r.query actor ps).2
    let spec := PageSpec.ofPredicates r.limits ps
    let parts := a.included.toList.map (after.matchesIn ps)
    (∀ key ∈ a.included, ∃ idx, after.index? key = some idx) ∧
    a.total = (parts.map List.length).sum ∧
    (∃ l : List Task, l.Perm parts.flatten ∧ Task.InOrder spec.order r.today l ∧
      (∀ l' : List Task, l'.Perm parts.flatten → Task.InOrder spec.order r.today l' → l' = l) ∧
      a.tasks = (l.drop spec.offset).take spec.length) ∧
    ∀ parts' : List (List Task), parts'.Perm parts →
      Page.ofMatches spec r.today parts'.flatten = ⟨a.tasks, a.total⟩ := by
  intro after a spec parts
  obtain ⟨⟨hloaded, matched, hmatched, hpage⟩, hlimits⟩ := hr.sound.merged_query hopen actor ps hday
  have hsound : after.Sound := hr.sound.query actor ps
  rw [hlimits] at hpage
  have hflatten : parts.flatten = a.included.toList.flatMap (after.matchesIn ps) := rfl
  have hparts : matched.Perm parts.flatten := hmatched
  have hapart : Task.Apart parts.flatten := hsound.apart ps a.included.nodup
  have hsort : ∀ l, l.Perm parts.flatten →
      Task.sortBy spec.order r.today l = Task.sortBy spec.order r.today matched := fun l hl =>
    Task.sortBy_eq_of_perm (hapart.perm hl.symm) (hl.trans hparts.symm)
  have hsorted : (Task.sortBy spec.order r.today matched).Perm parts.flatten :=
    (Task.sortBy_perm spec.order r.today matched).trans hparts
  have horder : Task.InOrder spec.order r.today (Task.sortBy spec.order r.today matched) :=
    Task.inOrder_sortBy spec.order r.today (hapart.perm hparts.symm)
  have htasks : ((Task.sortBy spec.order r.today matched).drop spec.offset).take spec.length = a.tasks :=
    congrArg Page.tasks hpage
  have htotal : (Task.sortBy spec.order r.today matched).length = a.total := congrArg Page.total hpage
  refine ⟨hloaded, ?_, ⟨_, hsorted, horder, fun l' hl' horder' => ?_, htasks.symm⟩,
    fun parts' hparts' => ?_⟩
  · rw [← htotal, hsorted.length_eq, List.length_flatten]
  · exact horder'.eq_of_perm horder (hl'.trans hsorted.symm)
  · rw [← hpage, Page.ofMatches, Page.ofMatches, hsort _ hparts'.flatten]

def maple : ShardKey := ⟨"maple", by decide, by decide⟩

/-- Two shards, loaded one after the other on the day of the query, answer together. -/
theorem query_eq_page_two :
    let today : Date := ⟨2026, 3, 1, by decide⟩
    let source : Source :=
      { store := .ofTasks [Task.fresh Index.cedar 7 today, Task.fresh maple 3 today] }
    let r := (((start source today default).obtain Index.cedar).1.obtain maple).1
    let actor : Actor := ⟨"ana", .ofList [Index.cedar, maple]⟩
    let ps := [Predicate.equals .status (.status .unsolved), .atMost 1]
    r.Reachable ∧ (r.query actor ps).2.total =
      (((r.query actor ps).2.included.toList.map ((r.query actor ps).1.matchesIn ps)).map
        List.length).sum := by
  intro today source r actor ps
  have hr : r.Reachable := .obtain _ maple rfl (.obtain _ Index.cedar rfl (.start source today default))
  have hopen : r.closed = false := rfl
  refine ⟨hr, (query_eq_page r hr hopen actor ps fun key _ s hs => ?_).2.1⟩
  rcases shards_query hopen actor ps s (mem_of_find? hs).1 with hs | hday
  · rcases shards_obtain _ maple s hs with hs | hday
    · rcases shards_obtain _ Index.cedar s hs with hs | hday
      · exact absurd hs List.not_mem_nil
      · exact hday
    · exact hday
  · exact hday

end TaskIndex.Router
