import TaskIndex.Proofs.Router.Start

/-!
What happens to a router over time.

Requests are started, those under way go on, the clock is set forwards and backwards, and the store behind
the router changes. A list of such happenings is a history. It can be told of a router that serves every
request to its end at once, and of a router with requests under way; of both it is told here which shards
each happening takes out of the cache and which one it puts in, and that the two cache the same shards
throughout.
-/

namespace TaskIndex

/-! ### Requests to index -/

/-- The shard that a query has to create to go its way, when the keys are those of the cached ones. -/
def Route.creates? (keys : List ShardKey) : Route → Option ShardKey
  | index key => if key ∈ keys then none else some key
  | _ => none

lemma Route.of_eq_index_iff {actor : Actor} {ps : List Predicate} {key : ShardKey} :
    Route.of actor ps = .index key ↔ Route.indexKey? ps = some key := by
  unfold Route.of
  cases Route.indexKey? ps with
  | some named => exact ⟨fun h => congrArg some (Route.index.inj h), fun h => congrArg _ (Option.some.inj h)⟩
  | none =>
    dsimp only
    split <;> exact ⟨fun h => (nomatch h), fun h => (nomatch h)⟩

/-! ### Happenings -/

namespace Happening

def isQuery : Happening → Bool
  | request (.query _ _) => true
  | _ => false

def drops (key : ShardKey) : Happening → Bool
  | request (.evict k) => k = key
  | request .close => true
  | _ => false

def closes : Happening → Bool
  | request .close => true
  | _ => false

/-- The shard that a router creates, which has the keys cached and may be closed. -/
def creates? (keys : List ShardKey) (closed : Bool) : Happening → Option ShardKey
  | request (.query actor ps) => if closed then none else (Route.of actor ps).creates? keys
  | _ => none

def date? : Happening → Option Date
  | tick today => some today
  | _ => none

end Happening

def queryDays (now : Date) : List Happening → List Date
  | [] => []
  | h :: hs => (if h.isQuery then [now] else []) ++ queryDays (h.date?.getD now) hs

/-! ### Serving one request at a time -/

def Source.scans (s : Source) : List ShardKey := s.log.map (·.shard)

lemma Source.log_scan (s : Source) (key : ShardKey) :
    (s.scan key).1.log = ⟨key, decide (key ∉ s.offline)⟩ :: s.log := by
  unfold scan
  split
  · next hoffline => simp [hoffline]
  · next honline => simp [honline]

namespace Router

/-- Every request is served to its end when it is started; so nothing is left that could go on. -/
def befall (r : Router) : Happening → Router
  | .request s => (r.serve s).1
  | .event _ => r
  | .tick today => r.setDate today
  | .restock store offline further => { r with source := { r.source with store, offline, further } }

def after (r : Router) (hs : List Happening) : Router := hs.foldl befall r

/-- The router that is about to meet the happening: a query begins with the check of the day. -/
def checked (r : Router) (h : Happening) : Router := if h.isQuery then r.rollOver else r

lemma checked_query (r : Router) (actor : Actor) (ps : List Predicate) :
    r.checked (.request (.query actor ps)) = r.rollOver := rfl

def keys (r : Router) : List ShardKey := r.shards.map (·.key)

variable {r : Router} {key : ShardKey} {h : Happening} {hs : List Happening}

@[simp] lemma after_nil (r : Router) : r.after [] = r := rfl

@[simp] lemma after_cons (r : Router) (h : Happening) (hs : List Happening) :
    r.after (h :: hs) = (r.befall h).after hs := rfl

lemma Reachable.befall (hr : r.Reachable) (h : Happening) : (r.befall h).Reachable := by
  match h with
  | .request s => exact hr.serve s
  | .event (.load _) | .event (.work _) | .event (.collect _) | .event .merge => exact hr
  | .tick today => exact .setDate r today hr
  | .restock store offline further => exact .restock r _ hr

lemma Reachable.after (hr : r.Reachable) (hs : List Happening) : (r.after hs).Reachable := by
  induction hs generalizing r with
  | nil => exact hr
  | cons h hs ih => exact ih (hr.befall h)

/-! ### What is cached -/

lemma mem_cached : key ∈ r.cached ↔ key ∈ r.keys := SortedSet.mem_ofList

lemma find?_eq_none_iff : r.find? key = none ↔ key ∉ r.keys := by
  rw [find?, List.find?_eq_none, keys, List.mem_map]
  constructor
  · rintro hnone ⟨s, hs, hkey⟩
    exact hnone s hs (decide_eq_true hkey)
  · intro hnone s hs hkey
    exact hnone ⟨s, hs, of_decide_eq_true hkey⟩

lemma keys_obtain (r : Router) (key : ShardKey) :
    (r.obtain key).1.keys = r.keys ++ (if key ∈ r.keys then [] else [key]) := by
  cases hfind : r.find? key with
  | some s =>
    have hmem : key ∈ r.keys := by
      by_contra hnone
      rw [find?_eq_none_iff.2 hnone] at hfind
      cases hfind
    rw [obtain_of_find?_some hfind, if_pos hmem, List.append_nil]
  | none =>
    have hkey := (Shard.key_ofScan key r.today (r.source.scan key).2).1
    rw [obtain_of_find?_none hfind, if_neg (find?_eq_none_iff.1 hfind)]
    show (r.shards ++ [Shard.ofScan key r.today (r.source.scan key).2]).map (·.key) = _
    rw [List.map_append, List.map_singleton, hkey]
    rfl

lemma source_rollOver (r : Router) : r.rollOver.source = r.source := by
  unfold rollOver
  split <;> rfl

lemma source_obtain (r : Router) (key : ShardKey) :
    (r.obtain key).1.source = if key ∈ r.keys then r.source else (r.source.scan key).1 := by
  cases hfind : r.find? key with
  | some s =>
    rw [obtain_of_find?_some hfind, if_pos]
    exact (mem_of_find? hfind).2 ▸ List.mem_map_of_mem (mem_of_find? hfind).1
  | none => rw [obtain_of_find?_none hfind, if_neg (find?_eq_none_iff.1 hfind)]

lemma frame_obtain (r : Router) (key : ShardKey) :
    (r.obtain key).1.today = r.today ∧ (r.obtain key).1.validFor = r.validFor ∧
      (r.obtain key).1.closed = r.closed := by
  unfold obtain
  split <;> exact ⟨rfl, rfl, rfl⟩

lemma frame_query (r : Router) (actor : Actor) (ps : List Predicate) :
    (r.query actor ps).1.today = r.rollOver.today ∧
      (r.query actor ps).1.validFor = r.rollOver.validFor ∧
      (r.query actor ps).1.closed = r.rollOver.closed := by
  rcases query_state r actor ps with ⟨hstate, -⟩ | ⟨key, -, -, hstate⟩
  · rw [hstate]
    exact ⟨rfl, rfl, rfl⟩
  · rw [hstate]
    exact frame_obtain r.rollOver key

lemma frame_notify (r : Router) (batch : ChangeBatch) :
    ∃ shards, (r.notify batch).1 = { r with shards } ∧ shards.map (·.key) = r.keys := by
  rcases notify_state r batch with hstate | ⟨s, -, hstate⟩
  · exact ⟨r.shards, hstate, rfl⟩
  · exact ⟨_, hstate, keys_replace r _⟩

/-- A query adds the shard it creates to those that the check of the day has left, and scans it. -/
lemma query_creates (r : Router) (actor : Actor) (ps : List Predicate) :
    let created := Happening.creates? r.rollOver.keys r.closed (.request (.query actor ps))
    (r.query actor ps).1.keys = r.rollOver.keys ++ created.toList ∧
      (r.query actor ps).1.source = created.elim r.source fun key => (r.source.scan key).1 := by
  have hsame : r.rollOver.keys = r.rollOver.keys ++ [] ∧ r.rollOver.source = r.source :=
    ⟨(List.append_nil _).symm, source_rollOver r⟩
  cases hclosed : r.closed with
  | true =>
    rcases query_state r actor ps with ⟨hstate, -⟩ | ⟨-, hopen, -⟩
    · rw [hstate]
      exact hsame
    · rw [hclosed] at hopen
      cases hopen
  | false =>
    rw [query_of_open hclosed]
    dsimp only [Happening.creates?]
    generalize Route.of actor ps = route
    cases route with
    | index key =>
      simp only [Route.creates?, keys_obtain, source_obtain, source_rollOver]
      split <;> exact ⟨rfl, rfl⟩
    | empty | single | multi => exact hsame

/-- A happening drops what it drops by name, and adds the shard it creates to those that are left once the
day is checked. -/
lemma keys_befall (r : Router) (h : Happening) :
    (r.befall h).keys = (r.checked h).keys.filter (!h.drops ·) ++
      (h.creates? (r.checked h).keys r.closed).toList := by
  have hkept : ∀ keys : List ShardKey, keys = keys.filter (fun _ => !false) := by simp
  have hsame : r.keys = r.keys.filter (fun _ => !false) ++ [] := by simp
  match h with
  | .request (.query actor ps) =>
    refine (query_creates r actor ps).1.trans ?_
    exact congrArg (· ++ _) (hkept r.rollOver.keys)
  | .request (.notify batch) =>
    obtain ⟨shards, hstate, hkeys⟩ := r.frame_notify batch
    exact ((congrArg keys hstate).trans hkeys).trans hsame
  | .request (.evict key) =>
    show (r.shards.filter (·.key ≠ key)).map (·.key) = r.keys.filter (fun k => !decide (key = k)) ++ []
    rw [List.append_nil, keys, List.filter_map]
    refine congrArg _ (List.filter_congr fun s _ => ?_)
    simp [eq_comm]
  | .request .close =>
    show [] = r.keys.filter (fun _ => !true) ++ []
    simp
  | .request (.stats _) | .event (.load _) | .event (.work _) | .event (.collect _) | .event .merge
  | .tick _ | .restock _ _ _ => exact hsame

/-- A happening scans the shard it creates, and no other. -/
lemma log_befall (r : Router) (h : Happening) :
    (r.befall h).source.log =
      ((h.creates? (r.checked h).keys r.closed).map fun key =>
        (⟨key, decide (key ∉ r.source.offline)⟩ : Scan)).toList ++ r.source.log := by
  match h with
  | .request (.query actor ps) =>
    have hsource := (query_creates r actor ps).2
    rw [checked_query]
    generalize Happening.creates? r.rollOver.keys r.closed (.request (.query actor ps)) = created at hsource ⊢
    refine (congrArg Source.log hsource).trans ?_
    cases created with
    | none => rfl
    | some key => exact Source.log_scan r.source key
  | .request (.notify batch) =>
    obtain ⟨shards, hstate, -⟩ := r.frame_notify batch
    exact congrArg (·.source.log) hstate
  | .request (.evict _) | .request .close | .request (.stats _) | .event (.load _) | .event (.work _)
  | .event (.collect _) | .event .merge | .tick _ | .restock _ _ _ => rfl

lemma frame_befall (r : Router) (h : Happening) :
    (r.befall h).today = h.date?.getD r.today ∧ (r.befall h).validFor = (r.checked h).validFor ∧
      (r.befall h).closed = (r.closed || h.closes) := by
  match h with
  | .request (.query actor ps) =>
    obtain ⟨htoday, hvalidFor, hclosed⟩ := r.frame_query actor ps
    obtain ⟨htoday', -, hclosed'⟩ := r.frame_rollOver
    exact ⟨htoday.trans htoday', hvalidFor, (hclosed.trans hclosed').trans (Bool.or_false _).symm⟩
  | .request (.notify batch) =>
    obtain ⟨shards, hstate, -⟩ := r.frame_notify batch
    have hbefall : r.befall (.request (.notify batch)) = { r with shards } := hstate
    rw [hbefall]
    exact ⟨rfl, rfl, (Bool.or_false _).symm⟩
  | .request .close => exact ⟨rfl, rfl, (Bool.or_true _).symm⟩
  | .request (.stats _) | .request (.evict _) | .event (.load _) | .event (.work _)
  | .event (.collect _) | .event .merge | .tick _ | .restock _ _ _ =>
    exact ⟨rfl, rfl, (Bool.or_false _).symm⟩

end Router

end TaskIndex
