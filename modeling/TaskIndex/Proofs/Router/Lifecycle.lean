import TaskIndex.Proofs.Router.Front

/-!
How shards come into the cache and how they leave it.

A shard comes in when an open router takes a query that names it alone and filters by nothing, and is
scanned then, once. It leaves when it is evicted, when the router is closed, or with all others when a
query comes on a later day than any query before. Nothing else creates, drops or scans a shard, however
the clock is set and whatever the scan comes to.
-/

namespace TaskIndex

/-! ### Requests to index -/

lemma Operand.shard?_eq_some_iff {operand : Operand} {key : ShardKey} :
    operand.shard? = some key ↔ operand = .shard key := by
  cases operand <;> simp [Operand.shard?]

lemma Route.indexKey?_eq_some_iff {ps : List Predicate} {key : ShardKey} :
    Route.indexKey? ps = some key ↔
      ps.filter (·.isTargeting) = [.inShard key] ∧ ∀ p ∈ ps, p.property.isFilter = false := by
  have hfilters : ps.any (·.property.isFilter) = false ↔ ∀ p ∈ ps, p.property.isFilter = false := by
    simp
  rw [← hfilters]
  unfold Route.indexKey?
  split
  · next only honly =>
    have htargeting : only.isTargeting = true := by
      have hmem : only ∈ ps.filter (·.isTargeting) := honly ▸ List.mem_singleton_self only
      exact (List.mem_filter.1 hmem).2
    have honly_iff : only.equalityOperand?.bind Operand.shard? = some key ↔ only = .inShard key := by
      obtain ⟨property, operator, operands⟩ := only
      obtain rfl : property = .shard := Predicate.isTargeting_iff.1 htargeting
      constructor
      · intro h
        obtain ⟨operand, hoperand, hkey⟩ := Option.bind_eq_some_iff.1 h
        obtain rfl : operand = .shard key := Operand.shard?_eq_some_iff.1 hkey
        unfold Predicate.equalityOperand? at hoperand
        split at hoperand
        · next heq hoperands =>
          obtain rfl := Option.some.inj hoperand
          rw [Predicate.inShard, Predicate.equals, Predicate.mk.injEq]
          exact ⟨rfl, heq, hoperands⟩
        · cases hoperand
      · intro h
        rw [h]
        rfl
    rw [honly, List.singleton_inj, ← honly_iff]
    cases ps.any (·.property.isFilter) <;> simp
  · next hmany =>
    refine ⟨fun h => (nomatch h), fun h => absurd h.1 (hmany _)⟩

namespace Happening

variable {h : Happening} {key : ShardKey} {keys : List ShardKey} {closed : Bool}

lemma drops_iff : h.drops key = true ↔ h = .request (.evict key) ∨ h = .request .close := by
  constructor
  · intro hdrops
    unfold drops at hdrops
    split at hdrops
    · exact .inl (by rw [of_decide_eq_true hdrops])
    · exact .inr rfl
    · cases hdrops
  · rintro (rfl | rfl)
    · exact decide_eq_true rfl
    · rfl

lemma creates?_eq_some_iff : h.creates? keys closed = some key ↔
    closed = false ∧ key ∉ keys ∧
      ∃ actor ps, h = .request (.query actor ps) ∧ Route.indexKey? ps = some key := by
  have hroute : ∀ route : Route, route.creates? keys = some key ↔ route = .index key ∧ key ∉ keys := by
    intro route
    cases route with
    | index k => by_cases hk : k ∈ keys <;> simp [Route.creates?, hk] <;> grind
    | empty | single | multi => simp [Route.creates?]
  constructor
  · intro hcreates
    unfold creates? at hcreates
    split at hcreates
    · next actor ps =>
      cases closed with
      | true => cases hcreates
      | false =>
        obtain ⟨hindex, hkey⟩ := (hroute _).1 hcreates
        exact ⟨rfl, hkey, actor, ps, rfl, Route.of_eq_index_iff.1 hindex⟩
    · cases hcreates
  · rintro ⟨rfl, hkey, actor, ps, rfl, hindex⟩
    exact (hroute _).2 ⟨Route.of_eq_index_iff.2 hindex, hkey⟩

end Happening

/-! ### Coming and leaving -/

namespace Router

/-- The shards that a happening puts into the cache. -/
def entering (r : Router) (h : Happening) : SortedSet ShardKey :=
  (r.befall h).cached.diff (r.checked h).cached

/-- The shards that a happening takes out of the cache, at the check of the day or after it. -/
def leaving (r : Router) (h : Happening) : SortedSet ShardKey :=
  r.cached.filter fun key => key ∉ (r.checked h).cached ∨ key ∉ (r.befall h).cached

def entered (r : Router) : List Happening → List ShardKey
  | [] => []
  | h :: hs => (r.entering h).toList ++ (r.befall h).entered hs

variable {r : Router} {key : ShardKey} {h : Happening} {hs : List Happening}

lemma not_mem_of_creates? (hkey : h.creates? (r.checked h).keys r.closed = some key) :
    key ∉ (r.checked h).cached :=
  fun hcached => (Happening.creates?_eq_some_iff.1 hkey).2.1 (mem_cached.1 hcached)

/-- What is cached after a happening was cached when the day was checked and is not dropped, or it is
created. -/
lemma mem_cached_befall : key ∈ (r.befall h).cached ↔
    (key ∈ (r.checked h).cached ∧ h.drops key = false) ∨
      h.creates? (r.checked h).keys r.closed = some key := by
  rw [mem_cached, mem_cached, keys_befall, List.mem_append, List.mem_filter, Option.mem_toList]
  simp

lemma mem_entering_iff : key ∈ r.entering h ↔ h.creates? (r.checked h).keys r.closed = some key := by
  rw [entering, SortedSet.mem_diff, mem_cached_befall]
  constructor
  · rintro ⟨⟨hcached, -⟩ | hcreated, hnew⟩
    · exact absurd hcached hnew
    · exact hcreated
  · exact fun hcreated => ⟨.inr hcreated, not_mem_of_creates? hcreated⟩

lemma toList_entering (r : Router) (h : Happening) :
    (r.entering h).toList = (h.creates? (r.checked h).keys r.closed).toList := by
  have hentering : r.entering h = (h.creates? (r.checked h).keys r.closed).elim ∅ .single := by
    refine SortedSet.eq_of_mem_iff fun key => ?_
    rw [mem_entering_iff]
    cases h.creates? (r.checked h).keys r.closed with
    | none => exact ⟨fun heq => (nomatch heq), fun hmem => absurd hmem List.not_mem_nil⟩
    | some k => exact (Option.some_inj.trans eq_comm).trans SortedSet.mem_single.symm
  rw [hentering]
  cases h.creates? (r.checked h).keys r.closed <;> rfl

lemma mem_cached_checked : key ∈ (r.checked h).cached ↔
    key ∈ r.cached ∧ ¬(h.isQuery = true ∧ compare r.validFor r.today = .lt) := by
  rw [mem_cached, mem_cached, checked]
  by_cases hquery : h.isQuery = true
  · rw [if_pos hquery, rollOver]
    by_cases hlater : compare r.validFor r.today = .lt
    · simp [hquery, hlater, keys]
    · simp [hlater]
  · rw [if_neg hquery]
    exact (and_iff_left fun h => hquery h.1).symm

/-- A shard leaves when it is dropped by name, or with all others at the check of the day. -/
lemma mem_leaving_iff : key ∈ r.leaving h ↔ key ∈ r.cached ∧
    (h = .request (.evict key) ∨ h = .request .close ∨
      (h.isQuery = true ∧ compare r.validFor r.today = .lt)) := by
  have hcreated : key ∈ (r.checked h).cached → h.creates? (r.checked h).keys r.closed ≠ some key :=
    fun hcached hcreated => not_mem_of_creates? hcreated hcached
  rw [leaving, SortedSet.mem_filter, decide_eq_true_iff, ← or_assoc, ← Happening.drops_iff]
  refine and_congr_right fun hcached => ?_
  have hchecked : key ∉ (r.checked h).cached ↔ h.isQuery = true ∧ compare r.validFor r.today = .lt := by
    rw [mem_cached_checked, not_and, not_not]
    exact ⟨fun hdropped => hdropped hcached, fun hdropped _ => hdropped⟩
  rw [← hchecked, mem_cached_befall]
  by_cases hin : key ∈ (r.checked h).cached
  · simp [hin, hcreated hin]
  · simp [hin]

/-! ### The check of the day -/

lemma validFor_checked_lt_iff {d : Date} : compare (r.checked h).validFor d = .lt ↔
    compare r.validFor d = .lt ∧ (h.isQuery = true → compare r.today d = .lt) := by
  rw [checked]
  by_cases hquery : h.isQuery = true
  · rw [if_pos hquery, rollOver]
    split
    · next hlater =>
      -- the marker is set forward to the clock
      refine ⟨fun hd => ⟨Std.TransCmp.lt_trans hlater hd, fun _ => hd⟩, fun hd => hd.2 hquery⟩
    · next hnot =>
      -- the clock shows no later day than the marker
      have hle : (compare r.today r.validFor).isLE := by
        rw [Std.OrientedOrd.eq_swap]
        cases hcompare : compare r.validFor r.today <;> simp_all
      exact ⟨fun hd => ⟨hd, fun _ => Std.TransCmp.lt_of_isLE_of_lt hle hd⟩, And.left⟩
  · rw [if_neg hquery]
    exact (and_iff_left fun h => absurd h hquery).symm

/-- The marker is the latest of the days on which there were queries, and of the day it was at first. -/
lemma validFor_after_lt_iff {d : Date} : compare (r.after hs).validFor d = .lt ↔
    ∀ day ∈ r.validFor :: queryDays r.today hs, compare day d = .lt := by
  induction hs generalizing r with
  | nil => simp [queryDays]
  | cons h hs ih =>
    obtain ⟨htoday, hvalidFor, -⟩ := r.frame_befall h
    have hdays : (∀ day ∈ (if h.isQuery then [r.today] else []), compare day d = .lt) ↔
        (h.isQuery = true → compare r.today d = .lt) := by
      cases h.isQuery <;> simp
    rw [after_cons, ih, hvalidFor, htoday, queryDays, List.forall_mem_cons, List.forall_mem_cons,
      List.forall_mem_append, validFor_checked_lt_iff, hdays, and_assoc]

/-! ### Whole runs -/

lemma scans_after (r : Router) (hs : List Happening) :
    (r.after hs).source.scans = (r.entered hs).reverse ++ r.source.scans := by
  induction hs generalizing r with
  | nil => rfl
  | cons h hs ih =>
    have hstep : (r.befall h).source.scans = (r.entering h).toList ++ r.source.scans := by
      rw [Source.scans, log_befall, toList_entering, List.map_append]
      cases h.creates? (r.checked h).keys r.closed <;> rfl
    have hone : (r.entering h).toList.reverse = (r.entering h).toList := by
      rw [toList_entering]
      cases h.creates? (r.checked h).keys r.closed <;> rfl
    rw [after_cons, ih, hstep, entered, List.reverse_append, hone, List.append_assoc]

lemma after_of_closed (hclosed : r.closed = true) (hs : List Happening) :
    (r.after hs).closed = true ∧ (r.after hs).source.log = r.source.log := by
  induction hs generalizing r with
  | nil => exact ⟨hclosed, rfl⟩
  | cons h hs ih =>
    have hstill : (r.befall h).closed = true := by rw [(r.frame_befall h).2.2, hclosed, Bool.true_or]
    have hnone : h.creates? (r.checked h).keys r.closed = none := by
      refine Option.eq_none_iff_forall_ne_some.2 fun key hkey => ?_
      rw [(Happening.creates?_eq_some_iff.1 hkey).1] at hclosed
      cases hclosed
    have hlog : (r.befall h).source.log = r.source.log := by
      rw [log_befall, hnone]
      rfl
    rw [after_cons, ← hlog]
    exact ih hstill

lemma Reachable.cached_of_closed (hr : r.Reachable) (hclosed : r.closed = true) : r.cached = ∅ := by
  rw [cached, hr.shards_of_closed hclosed]
  rfl

end Router

lemma Traffic.opened_after {t : Traffic} {r : Router} (hr : r.Reachable) (h : t.front.Of r)
    (hs : List Happening) : (t.after hs).front.opened = t.front.opened ++ r.entered hs := by
  induction hs generalizing t r with
  | nil => exact (List.append_nil _).symm
  | cons happening hs ih =>
    have hfront : (t.befall happening).front.Of (r.befall happening) := by
      rw [front_befall]
      exact h.befall hr happening
    rw [after_cons, ih (hr.befall happening) hfront, front_befall, h.opened_befall, Router.entered,
      Router.toList_entering, List.append_assoc]

namespace Router

/-- **Scanned when created**: in every run, and however the clock is set, a shard comes into the cache when
an open router takes a query whose only predicate on shards is the equality with it and which has no
filter; it is scanned then, and nothing else is scanned. A shard leaves when it is evicted, which tells
whether it was cached, when the router is closed, or, with all others, when a query comes later than the
day on which the router was started and the days of all queries before. After a close nothing is cached or
scanned again. So the scans of the run are those of the shards that came in, each time once. With requests
under way the same shards are cached, each time one comes in a mailbox is opened for it, and each mailbox
has one scan, finished or awaited. -/
theorem scanned_when_created (source : Source) (today : Date) (limits : PageLimits)
    (hs : List Happening) :
    let first := start source today limits
    let r := first.after hs
    let t := (Traffic.ofRouter first).after hs
    (∀ h key, key ∈ r.entering h ↔ r.closed = false ∧ key ∉ (r.checked h).cached ∧
      ∃ actor ps, h = .request (.query actor ps) ∧ ps.filter (·.isTargeting) = [.inShard key] ∧
        ∀ p ∈ ps, p.property.isFilter = false) ∧
    (∀ h, (r.befall h).source.log =
      (r.entering h).toList.map (fun key => ⟨key, decide (key ∉ r.source.offline)⟩) ++ r.source.log) ∧
    (∀ h key, key ∈ r.leaving h ↔ key ∈ r.cached ∧
      (h = .request (.evict key) ∨ h = .request .close ∨ (h.isQuery = true ∧
        ∀ day ∈ today :: queryDays today hs, compare day r.today = .lt))) ∧
    (∀ key, (r.serve (.evict key)).2 = .evicted (decide (key ∈ r.cached)) ∧
      key ∉ (r.befall (.request (.evict key))).cached) ∧
    (∀ hs', ((r.befall (.request .close)).after hs').cached = ∅ ∧
      ((r.befall (.request .close)).after hs').source.log = r.source.log) ∧
    r.source.scans = (first.entered hs).reverse ++ source.scans ∧
    t.front.keys = r.keys ∧ t.front.opened = first.entered hs ∧
    t.source.scans.Perm (t.front.scanned ++ source.scans) := by
  intro first r t
  have hfirst : first.Reachable := .start source today limits
  have hr : r.Reachable := hfirst.after hs
  have hfront : (Traffic.ofRouter first).front.Of first := ⟨rfl, rfl, rfl, rfl⟩
  refine ⟨fun h key => ?_, fun h => ?_, fun h key => ?_, fun key => ⟨?_, ?_⟩, fun hs' => ?_,
    scans_after first hs, (Traffic.front_after hfirst hfront hs).keys,
    Traffic.opened_after hfirst hfront hs, Traffic.scans_after (.refl _) hs⟩
  · simp only [mem_entering_iff, Happening.creates?_eq_some_iff, Route.indexKey?_eq_some_iff, mem_cached]
  · rw [log_befall, toList_entering]
    cases h.creates? (r.checked h).keys r.closed <;> rfl
  · rw [mem_leaving_iff, validFor_after_lt_iff]
    rfl
  · have hcached : (r.find? key).isSome = decide (key ∈ r.cached) := by
      rw [Bool.eq_iff_iff, decide_eq_true_iff, mem_cached, Option.isSome_iff_ne_none, Ne,
        find?_eq_none_iff, not_not]
    exact congrArg Traffic.Result.evicted hcached
  · rw [mem_cached_befall]
    simp [Happening.drops, Happening.creates?]
  · have hclosed : (r.befall (.request .close)).closed = true := rfl
    obtain ⟨hstill, hlog⟩ := after_of_closed hclosed hs'
    exact ⟨((hr.befall _).after hs').cached_of_closed hstill, hlog⟩

end Router

end TaskIndex
