import TaskIndex.Proofs.Router.Mirror

/-!
Starting a request as if nothing were under way.

Starting a request in a router with requests under way and serving it at once in the router that it
mirrors comes to the same: the mirror is kept, the result that is foreseen for the new request is the one
that it is served with, and nothing that was started before is touched.
-/

namespace TaskIndex

def Router.serve (r : Router) : Traffic.Start → Router × Traffic.Result
  | .query actor ps => ((r.query actor ps).1, .answer (r.query actor ps).2)
  | .notify batch => ((r.notify batch).1, .tally (r.notify batch).2)
  | .stats key => (r, .stats (r.stats key))
  | .evict key => ((r.evict key).1, .evicted (r.evict key).2)
  | .close => (r.close, .closed)

lemma Router.Reachable.serve {r : Router} (h : r.Reachable) (s : Traffic.Start) :
    (r.serve s).1.Reachable := by
  cases s with
  | query actor ps => exact .query r actor ps h
  | notify batch => exact .notify r batch h
  | stats key => exact h
  | evict key => exact .evict r key h
  | close => exact .close r h

namespace Traffic

variable {scan : ShardKey → Except SourceError (List Task)} {t t' : Traffic} {r : Router}
  {key : ShardKey} {box : Nat} {s : Shard}

/-- A cached shard never replies that it has gone away. -/
lemma served_of_reachable (hr : r.Reachable) (hs : r.find? key = some s) (request : Request) :
    Served (s.serve r.limits request).2 := by
  cases hcontent : s.content with
  | ok idx =>
    cases request <;>
      simp [Served, Shard.serve, Shard.lookup, Shard.filter, Shard.apply, Shard.stats, hcontent, Except.map]
  | error e =>
    obtain ⟨detail, rfl⟩ := hr.failsOnlyToLoad hs e hcontent
    cases request <;>
      simp [Served, Shard.serve, Shard.lookup, Shard.filter, Shard.apply, Shard.stats, hcontent, Except.map]

/-- Starting the request keeps the mirror, and the request comes to the result that it is served with. -/
def StartsAs (scan : ShardKey → Except SourceError (List Task)) (t t' : Traffic)
    (served : Router × Result) : Prop :=
  t'.Mirrors scan served.1 ∧ Opens scan t t' served.2

lemma mapM_eq_some {α β : Type} {f : α → Option β} {g : α → β} {l : List α}
    (h : ∀ a ∈ l, f a = some (g a)) : l.mapM f = some (l.map g) := by
  induction l with
  | nil => rfl
  | cons a l ih =>
    rw [List.mapM_cons, h a List.mem_cons_self, ih fun b hb => h b (List.mem_cons_of_mem a hb)]
    rfl

namespace Posted

lemma done (h : Posted scan t t' []) (ho : t.Ordered scan) (hmirrors : t'.Mirrors scan r)
    (result : Result) : StartsAs scan t (t'.opened (.done result)) (r, result) :=
  ⟨hmirrors.opened _, h.opens ho (fun _ hentry => absurd hentry List.not_mem_nil) rfl⟩

/-! ### One shard -/

lemma single (h : Posted scan t t' []) (ho : t.Ordered scan) (hmirrors : t'.Mirrors scan r)
    (hr : r.Reachable) (hbox : t'.boxOf? key = some box) (hs : r.find? key = some s)
    (request : Request) (shards : List Shard)
    (hfind : ∀ k, ({ r with shards } : Router).find? k =
      if k = key then some (s.serve r.limits request).1 else r.find? k) {c : Call} {result : Result}
    (hc : ∀ reply? : Nat → Option (Except CacheError Reply),
      reply? box = some (s.serve r.limits request).2 → outcomeOf? reply? none c = some result) :
    StartsAs scan t ((t'.atBox box (.post t'.nextTicket request)).opened c)
      ({ r with shards }, result) := by
  obtain ⟨hmirrors', hposted⟩ := hmirrors.post hbox hs request shards hfind
  refine ⟨hmirrors'.opened c, (h.trans hposted).opens ho (fun entry hentry => ?_) (hc _ ?_)⟩
  · rw [List.mem_singleton.1 hentry]
    exact served_of_reachable hr hs request
  · simp

lemma page (h : Posted scan t t' []) (ho : t.Ordered scan) (hmirrors : t'.Mirrors scan r)
    (hr : r.Reachable) (hbox : t'.boxOf? key = some box) (hs : r.find? key = some s)
    (ps : List Predicate) :
    StartsAs scan t (t'.startPage key box ps) (r, .answer (r.askShard ps s)) := by
  refine h.single ho hmirrors hr hbox hs (.lookup (withoutTargeting ps)) r.shards
    (Router.find?_unchanged hs rfl) fun reply? hreply => ?_
  obtain ⟨-, rfl⟩ := Router.mem_of_find? hs
  simp only [outcomeOf?, hreply, Shard.serve, Router.askShard]
  cases s.lookup r.limits (withoutTargeting ps) <;> rfl

/-! ### Several shards -/

lemma tasksOf?_map (reply : Except CacheError (List Task)) :
    tasksOf? (reply.map .tasks) = reply.toOption := by
  cases reply <;> rfl

/-- What several shards reply is merged as the other router merges it. -/
lemma mergedAnswer_eq_fanOut (keys : SortedSet ShardKey) (ps : List Predicate) :
    mergedAnswer ((keys.toList.filterMap r.find?).map fun s =>
        (s.key, (s.serve r.limits (.filter (filtersOnly ps))).2))
      (keys.filter fun key => (r.find? key).isNone) (.ofPredicates r.limits ps) r.today =
      r.fanOut keys ps := by
  have hfailed : ∀ reply : Except CacheError (List Task), reply.toOption.isNone = !reply.toBool := by
    intro reply
    cases reply <;> rfl
  simp only [mergedAnswer, Router.fanOut, Shard.serve, List.filterMap_map, List.filter_map, List.map_map,
    Function.comp_def, tasksOf?_map, hfailed]
  rfl

lemma parts (h : Posted scan t t' []) (ho : t.Ordered scan) (hmirrors : t'.Mirrors scan r)
    (hr : r.Reachable) (keys : SortedSet ShardKey) (ps : List Predicate) :
    StartsAs scan t (t'.startParts t'.today keys ps) (r, .answer (r.fanOut keys ps)) := by
  obtain ⟨asked, hparts, hshards, hasked, hnodup⟩ := hmirrors.exists_asked keys.nodup
  have hexcluded : ∀ key, (t'.boxOf? key).isNone = (r.find? key).isNone := by
    intro key
    rcases hmirrors.cached_cases key with ⟨hbox, hs⟩ | ⟨box, s, hbox, hs⟩ <;> simp [hbox, hs]
  have hrequest : ∀ s : Shard, (s.serve r.limits (.filter (filtersOnly ps))).1 = s := fun _ => rfl
  obtain ⟨hmirrors', hposted⟩ := hmirrors.askAll (.filter (filtersOnly ps)) hrequest hasked hnodup
  unfold startParts
  simp only [hparts, hexcluded, List.map_map, Function.comp_def]
  refine ⟨hmirrors'.opened _, (h.trans hposted).opens ho (fun entry hentry => ?_) ?_⟩
  · obtain ⟨x, hx, rfl⟩ := List.mem_map.1 hentry
    exact served_of_reachable hr (hasked x hx).2 _
  · have hreplies : ((asked.map (·.1)).mapM fun part =>
        ((asked.map fun x => (x.1.box, (x.2.serve r.limits (.filter (filtersOnly ps))).2)).lookup
          part.box).map fun reply => (part.key, reply)) =
        some (asked.map fun x => (x.2.key, (x.2.serve r.limits (.filter (filtersOnly ps))).2)) := by
      rw [List.mapM_map]
      refine mapM_eq_some fun x hx => ?_
      have hnodup : ((asked.map fun x =>
          (x.1.box, (x.2.serve r.limits (.filter (filtersOnly ps))).2)).map (·.1)).Nodup := by
        rwa [List.map_map]
      rw [Function.comp_apply, lookup_of_nodup hnodup (List.mem_map_of_mem hx),
        (Router.mem_of_find? (hasked x hx).2).2, Option.map_some]
    have hanswer := mergedAnswer_eq_fanOut (r := r) keys ps
    rw [hshards, List.map_map] at hanswer
    simp only [outcomeOf?, hreplies, Option.map_some, hmirrors.limits, hmirrors.today]
    exact congrArg (some ∘ Result.answer) hanswer

end Posted

/-! ### Every request -/

lemma startsAs_query (hmirrors : t.Mirrors scan r) (ho : t.Ordered scan) (hr : r.Reachable)
    (actor : Actor) (ps : List Predicate) :
    StartsAs scan t (t.startQuery actor ps) (r.serve (.query actor ps)) := by
  have hday : t.rollOver.Mirrors scan r.rollOver := hmirrors.rollOver
  have hposted : Posted scan t t.rollOver [] := .rollOver t
  have hr' : r.rollOver.Reachable := .rollOver r hr
  unfold startQuery refuse route
  dsimp only
  cases hclosed : r.closed with
  | true =>
    have hclosed' : r.rollOver.closed = true := (Router.frame_rollOver r).2.2.trans hclosed
    have hquery : r.query actor ps = (r.rollOver, .excluding (Route.of actor ps).targets) :=
      if_pos hclosed'
    rw [if_pos (hday.closed.trans hclosed'), Router.serve, hquery]
    exact hposted.done ho hday _
  | false =>
    have hopen : r.rollOver.closed = false := (Router.frame_rollOver r).2.2.trans hclosed
    rw [if_neg (by rw [hday.closed, hopen]; exact Bool.false_ne_true), Router.serve,
      Router.query_of_open hclosed]
    generalize Route.of actor ps = route
    cases route with
    | index key =>
      have hbox := boxOf?_obtain t.rollOver key key
      rw [if_pos rfl] at hbox
      exact (hposted.trans (.obtain t.rollOver key)).page ho (hday.obtain hopen key)
        (.obtain _ key hopen hr') hbox (Router.find?_obtain r.rollOver key) ps
    | empty => exact hposted.done ho hday _
    | single key =>
      dsimp only
      rcases hday.cached_cases key with ⟨hbox, hs⟩ | ⟨box, s, hbox, hs⟩
      · rw [hbox, hs]
        exact hposted.done ho hday _
      · rw [hbox, hs]
        exact hposted.page ho hday hr' hbox hs ps
    | multi keys => exact hposted.parts ho hday hr' keys ps

lemma startsAs_notify (hmirrors : t.Mirrors scan r) (ho : t.Ordered scan) (hr : r.Reachable)
    (batch : ChangeBatch) : StartsAs scan t (t.start (.notify batch)) (r.serve (.notify batch)) := by
  unfold start Router.serve Router.notify
  dsimp only
  rcases hmirrors.cached_cases batch.shard with ⟨hbox, hs⟩ | ⟨box, s, hbox, hs⟩
  · rw [hbox, hs]
    exact (Posted.refl t).done ho hmirrors _
  · rw [hbox, hs]
    have hkey : (s.apply batch).1.key = batch.shard :=
      (Shard.key_apply s batch).trans (Router.mem_of_find? hs).2
    refine (Posted.refl t).single ho hmirrors hr hbox hs (.apply batch) _ (Router.find?_replace hs hkey)
      fun reply? hreply => ?_
    simp only [outcomeOf?, hreply, Shard.serve]
    cases (s.apply batch).2 <;> rfl

lemma startsAs_stats (hmirrors : t.Mirrors scan r) (ho : t.Ordered scan) (hr : r.Reachable)
    (key : ShardKey) : StartsAs scan t (t.start (.stats key)) (r.serve (.stats key)) := by
  unfold start Router.serve Router.stats
  dsimp only
  rcases hmirrors.cached_cases key with ⟨hbox, hs⟩ | ⟨box, s, hbox, hs⟩
  · rw [hbox, hs]
    exact (Posted.refl t).done ho hmirrors _
  · rw [hbox, hs]
    refine (Posted.refl t).single ho hmirrors hr hbox hs .stats r.shards (Router.find?_unchanged hs rfl)
      fun reply? hreply => ?_
    simp only [outcomeOf?, hreply, Shard.serve]
    cases s.stats <;> rfl

lemma startsAs_evict (hmirrors : t.Mirrors scan r) (ho : t.Ordered scan) (key : ShardKey) :
    StartsAs scan t (t.start (.evict key)) (r.serve (.evict key)) := by
  show StartsAs scan t _ ((r.evict key).1, .evicted (r.find? key).isSome)
  unfold start
  dsimp only
  rcases hmirrors.cached_cases key with ⟨hbox, hs⟩ | ⟨box, s, hbox, hs⟩
  · rw [hbox, hs]
    have hmirrors' : t.Mirrors scan (r.evict key).1 := by
      refine ⟨hmirrors.today, hmirrors.limits, hmirrors.validFor, hmirrors.closed, hmirrors.scans,
        fun k => ?_, hmirrors.idle⟩
      have hhas := hmirrors.cached k
      rw [Router.find?_evict]
      split
      · next hk => rwa [hk, hs, ← hk] at hhas
      · exact hhas
    exact (Posted.refl t).done ho hmirrors' (.evicted false)
  · rw [hbox, hs]
    exact (Posted.evict t key box).done ho (hmirrors.evict hbox) (.evicted true)

lemma startsAs_close (hmirrors : t.Mirrors scan r) (ho : t.Ordered scan) :
    StartsAs scan t (t.start .close) (r.serve .close) := by
  unfold start
  dsimp only
  split
  · next hclosed =>
    have hempty : t.cached = [] := hmirrors.idle hclosed
    have hmirrors' : t.Mirrors scan r.close := by
      refine ⟨hmirrors.today, hmirrors.limits, hmirrors.validFor, hclosed, hmirrors.scans, fun key => ?_,
        hmirrors.idle⟩
      show t.cached.lookup key = none
      rw [hempty, List.lookup_nil]
    exact (Posted.refl t).done ho hmirrors' .closed
  · next hopen =>
    have hretired := hmirrors.retire
    refine (Posted.shut (by simpa using hopen)).done ho (r := r.close) ?_ .closed
    exact ⟨hretired.today, hretired.limits, hretired.validFor, rfl, hretired.scans, hretired.cached,
      fun _ => rfl⟩

/-- **Started as if alone**: whatever is under way, a request that is started comes to the result that it
is served with when everything started before has been served to its end. -/
theorem startsAs (hmirrors : t.Mirrors scan r) (ho : t.Ordered scan) (hr : r.Reachable) (s : Start) :
    StartsAs scan t (t.start s) (r.serve s) := by
  cases s with
  | query actor ps => exact startsAs_query hmirrors ho hr actor ps
  | notify batch => exact startsAs_notify hmirrors ho hr batch
  | stats key => exact startsAs_stats hmirrors ho hr key
  | evict key => exact startsAs_evict hmirrors ho key
  | close => exact startsAs_close hmirrors ho

end Traffic

end TaskIndex
