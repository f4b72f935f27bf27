import Mathlib.Data.List.Induction
import TaskIndex.Proofs.Router.Progress
import TaskIndex.Proofs.Router.Start

/-!
Requests already started are served in full.

Requests are started one after another, at any time and on any day, while everything that is under way
goes on in any order. Every request gets the answer that it gets from a router that serves each request to
its end before the next one starts, whatever is evicted, dropped at the turn of the day or closed before it
has come to its result. The one exception is a query over several shards whose parts reach a merger that
has been closed.
-/

namespace TaskIndex

namespace Traffic

inductive Moment where
  | event (e : Event)
  | tick (today : Date)

def pass (t : Traffic) : Moment → Traffic
  | .event e => t.step e
  | .tick today => { t with today }

def live (t : Traffic) (ms : List Moment) : Traffic := ms.foldl pass t

/-- The parts of a query over several shards are posted to a merger that was closed before. -/
def MergedLate (t : Traffic) (ms : List Moment) (call : Ticket) : Prop :=
  ∃ before after, ms = before ++ .event (.collect call) :: after ∧
    (t.live before).closed = true ∧ (t.live before).CanCollect call

end Traffic

def Router.pass (r : Router × List Traffic.Result) : Traffic.Moment → Router × List Traffic.Result
  | .event (.start s) => ((r.1.serve s).1, r.2 ++ [(r.1.serve s).2])
  | .event _ => r
  | .tick today => (r.1.setDate today, r.2)

/-- What each request comes to when everything started before it has finished and nothing that is started
after it exists. -/
def Router.serveAll (r : Router) (ms : List Traffic.Moment) : Router × List Traffic.Result :=
  ms.foldl Router.pass (r, [])

namespace Traffic

variable {scan : ShardKey → Except SourceError (List Task)} {t t₀ : Traffic} {r : Router}
  {ms : List Moment} {m : Moment} {call : Ticket} {due : List Result}

/-! ### One more moment -/

lemma live_snoc (t : Traffic) (ms : List Moment) (m : Moment) :
    t.live (ms ++ [m]) = (t.live ms).pass m := List.foldl_concat ..

lemma mergedLate_nil : ¬MergedLate t [] call := by
  rintro ⟨before, after, hms, -⟩
  simp at hms

lemma mergedLate_snoc : MergedLate t (ms ++ [m]) call ↔ MergedLate t ms call ∨
    m = .event (.collect call) ∧ (t.live ms).closed = true ∧ (t.live ms).CanCollect call := by
  constructor
  · rintro ⟨before, after, hms, hlate⟩
    rcases after.eq_nil_or_concat' with rfl | ⟨after, m', rfl⟩
    · obtain ⟨rfl, hm⟩ := List.append_inj' hms rfl
      exact .inr ⟨List.singleton_inj.1 hm, hlate⟩
    · rw [← List.cons_append, ← List.append_assoc] at hms
      exact .inl ⟨before, after, (List.append_inj' hms rfl).1, hlate⟩
  · rintro (⟨before, after, rfl, hlate⟩ | ⟨rfl, hlate⟩)
    · exact ⟨before, after ++ [m], by simp, hlate⟩
    · exact ⟨ms, [], rfl, hlate⟩

/-! ### Keeping track -/

variable (scan) in
/-- The state mirrors the router that serves requests one at a time, and what is foreseen for each request
is what is due to it, save for queries that were merged late. -/
structure Tracks (t₀ : Traffic) (ms : List Moment) (t : Traffic) (r : Router) (due : List Result) :
    Prop where
  mirrors : t.Mirrors scan r
  ordered : t.Ordered scan
  reachable : r.Reachable
  size : due.length = t.calls.size
  inTime : ∀ call, ¬MergedLate t₀ ms call → t.foreseen scan call = due[call]?
  late : ∀ call, MergedLate t₀ ms call → ∃ a, due[call]? = some (.answer a) ∧
    t.foreseen scan call = some (.answer (.unmerged a.included a.excluded a.erroneous)) ∧
    t.calls[call]? = some (.merge a.included a.excluded a.erroneous)

namespace Tracks

lemma tick (h : Tracks scan t₀ ms (t₀.live ms) r due) (today : Date) :
    Tracks scan t₀ (ms ++ [.tick today]) { t₀.live ms with today } (r.setDate today) due := by
  have hlate : ∀ call, MergedLate t₀ (ms ++ [.tick today]) call ↔ MergedLate t₀ ms call := by
    intro call
    simp [mergedLate_snoc]
  obtain ⟨-, hlimits, hvalidFor, hclosed, hscans, hcached, hidle⟩ := h.mirrors
  obtain ⟨hscans', hposted, hmerger, hmerging⟩ := h.ordered
  exact ⟨⟨rfl, hlimits, hvalidFor, hclosed, hscans, hcached, hidle⟩,
    ⟨hscans', hposted, hmerger, hmerging⟩, .setDate r today h.reachable, h.size,
    fun call hcall => h.inTime call (mt (hlate call).2 hcall),
    fun call hcall => h.late call ((hlate call).1 hcall)⟩

lemma start (h : Tracks scan t₀ ms (t₀.live ms) r due) (s : Start) :
    Tracks scan t₀ (ms ++ [.event (.start s)]) ((t₀.live ms).start s) (r.serve s).1
      (due ++ [(r.serve s).2]) := by
  obtain ⟨hmirrors, hopens⟩ := startsAs h.mirrors h.ordered h.reachable s
  have hlate : ∀ call, MergedLate t₀ (ms ++ [.event (.start s)]) call ↔ MergedLate t₀ ms call := by
    intro call
    simp [mergedLate_snoc]
  have hdue : ∀ call, call < (t₀.live ms).calls.size →
      (due ++ [(r.serve s).2])[call]? = due[call]? := by
    intro call hcall
    exact List.getElem?_append_left (h.size ▸ hcall)
  refine ⟨hmirrors, hopens.ordered, h.reachable.serve s, ?_, fun call hcall => ?_, fun call hcall => ?_⟩
  · rw [hopens.size, ← h.size, List.length_append, List.length_singleton]
  · rcases Nat.lt_trichotomy call (t₀.live ms).calls.size with hlt | rfl | hgt
    · rw [(hopens.others call hlt).2, hdue call hlt]
      exact h.inTime call (mt (hlate call).2 hcall)
    · rw [hopens.foreseen, ← h.size, List.getElem?_concat_length]
    · have hsize := hopens.size
      rw [foreseen, Array.getElem?_eq_none (by omega), List.getElem?_eq_none]
      · rfl
      · rw [List.length_append, List.length_singleton, h.size]
        omega
  · obtain ⟨a, hanswer, hforeseen, hmerge⟩ := h.late call ((hlate call).1 hcall)
    have hlt : call < (t₀.live ms).calls.size := (Array.getElem?_eq_some_iff.1 hmerge).1
    obtain ⟨hsame, hsame'⟩ := hopens.others call hlt
    exact ⟨a, (hdue call hlt).trans hanswer, hsame'.trans hforeseen, hsame.trans hmerge⟩

/-- What goes on changes what is foreseen for one query at most, and only when its parts come late. -/
lemma goOn (h : Tracks scan t₀ ms (t₀.live ms) r due) {e : Event} (he : ∀ s, e ≠ .start s) :
    Tracks scan t₀ (ms ++ [.event e]) ((t₀.live ms).step e) r due := by
  refine ⟨h.mirrors.step h.ordered he, h.ordered.step he, h.reachable, ?_, fun call hcall => ?_,
    fun call hcall => ?_⟩
  · rw [(calls_step _ he).1, h.size]
  · rw [mergedLate_snoc, not_or] at hcall
    rw [h.ordered.foreseen_step he fun heq hclosed hcan => hcall.2 ⟨by rw [heq], hclosed, hcan⟩]
    exact h.inTime call hcall.1
  · rcases mergedLate_snoc.1 hcall with hcall | ⟨heq, hclosed, hcan⟩
    · obtain ⟨a, hanswer, hforeseen, hmerge⟩ := h.late call hcall
      have hnot : ¬(t₀.live ms).CanCollect call := not_canCollect_of_merge hmerge
      exact ⟨a, hanswer, (h.ordered.foreseen_step he fun _ _ => hnot).trans hforeseen,
        ((calls_step _ he).2 call fun _ => hnot).trans hmerge⟩
    · have hnew : ¬MergedLate t₀ ms call := fun hcall => by
        obtain ⟨a, -, -, hmerge⟩ := h.late call hcall
        exact not_canCollect_of_merge hmerge hcan
      obtain ⟨a, hforeseen, hmerge, hafter⟩ := h.ordered.foreseen_collect hcan
      rw [hclosed, if_pos rfl] at hafter
      obtain rfl := Moment.event.inj heq
      exact ⟨a, (h.inTime call hnew).symm.trans hforeseen, hafter, hmerge⟩

end Tracks

/-! ### From the beginning -/

lemma outlookAt_ofRouter (r : Router) (box : Nat) : (ofRouter r).outlookAt scan box = [] := by
  rw [outlookAt, ofRouter, List.getElem?_toArray, List.getElem?_map]
  cases r.shards[box]? <;> rfl

/-- Every cached shard is at work behind a mailbox of its own. -/
lemma has_ofRouter (hr : r.Reachable) (key : ShardKey) :
    (ofRouter r).Has scan key (r.find? key) := by
  have hkeys : (ofRouter r).cached.map (·.1) = r.shards.map (·.key) :=
    List.ext_getElem (by simp [ofRouter]) fun i _ _ => by simp [ofRouter]
  have hnodup : ((ofRouter r).cached.map (·.1)).Nodup := hkeys ▸ hr.sound.distinct
  cases hfind : r.find? key with
  | none =>
    refine List.lookup_eq_none_iff.2 fun entry hentry => bne_iff_ne.2 ?_
    obtain ⟨i, hi, rfl⟩ := List.mem_mapIdx.1 hentry
    have hother := List.find?_eq_none.1 hfind r.shards[i] (List.getElem_mem hi)
    simpa [eq_comm] using hother
  | some s =>
    obtain ⟨hmem, rfl⟩ := Router.mem_of_find? hfind
    obtain ⟨i, hi, rfl⟩ := List.mem_iff_getElem.1 hmem
    have hbox : (ofRouter r).boxes[i]? = some ⟨r.shards[i].key, r.shards[i].today, r.limits,
        .serving r.shards[i], [], []⟩ := by
      rw [ofRouter, List.getElem?_toArray, List.getElem?_map, List.getElem?_eq_getElem hi, Option.map_some]
    exact ⟨i, _, lookup_of_nodup hnodup (List.mem_mapIdx.2 ⟨i, hi, rfl⟩), hbox, rfl, rfl,
      Mailbox.comesTo_serving _ _ _ _⟩

lemma tracks_ofRouter (hr : r.Reachable) :
    Tracks (fun key => (r.source.scan key).2) (ofRouter r) [] (ofRouter r) r [] where
  mirrors := by
    refine ⟨rfl, rfl, rfl, rfl, fun _ => rfl, has_ofRouter hr, fun hclosed => ?_⟩
    rw [ofRouter, hr.shards_of_closed hclosed, List.mapIdx_nil]
  ordered := by
    refine ⟨fun _ => rfl, fun box entry hentry => ?_, ⟨?_, fun _ => rfl⟩, fun entry hentry => ?_⟩
    · rw [outlookAt_ofRouter] at hentry
      cases hentry
    · exact (Bool.or_false _).symm
    · cases hentry
  reachable := hr
  size := rfl
  inTime call _ := rfl
  late call hcall := absurd hcall mergedLate_nil

lemma tracks (hr : r.Reachable) (ms : List Moment) :
    Tracks (fun key => (r.source.scan key).2) (ofRouter r) ms ((ofRouter r).live ms) (r.serveAll ms).1
      (r.serveAll ms).2 := by
  induction ms using List.reverseRecOn with
  | nil => exact tracks_ofRouter hr
  | append_singleton ms m ih =>
    rw [live_snoc, Router.serveAll, List.foldl_concat]
    cases m with
    | tick today => exact ih.tick today
    | event e =>
      cases e with
      | start s => exact ih.start s
      | load | work | collect | merge => exact ih.goOn fun s hs => by cases hs

/-- **Served in full**: a request that has come to a result has come to the one that it is served with when
everything started before has finished and nothing started after exists, unless it is a query over several
shards that was merged late; then it has no tasks and no included shard, and the shards that would have
been included are erroneous. When nothing more is started, only so many events can change anything, in
whatever order they come; some schedule ends at rest, and at rest every request has come to a result. No
mailbox ever answers that the shard is closed or that the reply was dropped. -/
theorem served_in_full (r : Router) (hr : r.Reachable) (ms : List Moment) :
    let t := (ofRouter r).live ms
    let due := (r.serveAll ms).2
    due.length = t.calls.size ∧
      (∀ call result, t.result? call = some result →
        (¬MergedLate (ofRouter r) ms call → due[call]? = some result) ∧
        (MergedLate (ofRouter r) ms call → ∃ a, due[call]? = some (.answer a) ∧
          result = .answer ⟨[], 0, ∅, a.excluded, a.erroneous.union a.included⟩)) ∧
      (∀ es, (∀ e ∈ es, ∀ s, e ≠ .start s) → t.EachChanges es → es.length ≤ t.toDo) ∧
      (∃ es, (∀ e ∈ es, ∀ s, e ≠ .start s) ∧ (t.run es).AtRest) ∧
      (t.AtRest → ∀ call < t.calls.size, ∃ result, t.result? call = some result) ∧
      ∀ m ∈ t.boxes, ∀ entry ∈ m.answers, ∀ key,
        entry.2 ≠ .error (.shardClosed key) ∧ entry.2 ≠ .error (.replyDropped key) := by
  intro t due
  have h := tracks hr ms
  refine ⟨h.size, fun call result hresult => ⟨fun hcall => ?_, fun hcall => ?_⟩,
    fun es hes hchanges => hchanges.length_le hes, t.exists_atRest, fun hrest call hcall => ?_,
    fun m hm entry hentry => ?_⟩
  · rw [← foreseen_of_result? hresult]
    exact (h.inTime call hcall).symm
  · obtain ⟨a, hanswer, hforeseen, -⟩ := h.late call hcall
    rw [foreseen_of_result? hresult] at hforeseen
    exact ⟨a, hanswer, Option.some.inj hforeseen⟩
  · have hresult : t.result? call = t.foreseen (fun key => (r.source.scan key).2) call :=
      hrest.result?_eq call
    rw [hresult]
    by_cases hlate : MergedLate (ofRouter r) ms call
    · obtain ⟨a, -, hforeseen, -⟩ := h.late call hlate
      exact ⟨_, hforeseen⟩
    · exact ⟨_, (h.inTime call hlate).trans (List.getElem?_eq_getElem (h.size ▸ hcall))⟩
  · obtain ⟨box, hbox, rfl⟩ := Array.mem_iff_getElem.1 hm
    refine (h.ordered.posted box entry ?_).2
    rw [outlookAt, Array.getElem?_eq_getElem hbox]
    exact List.mem_append_left _ hentry

def halfLoaded : Router :=
  (((Router.start { offline := [Router.maple] } ⟨2026, 3, 1, by decide⟩ default).obtain
    Index.cedar).1.obtain Router.maple).1

/-- The router is closed while a query lies in the mailboxes of its two shards. -/
def closedEarly : List Moment :=
  [.event (.start (.query ⟨"ana", .ofList [Index.cedar, Router.maple]⟩ [])), .event (.start .close),
    .event (.work 0), .event (.work 1), .event (.collect 0), .event .merge]

theorem served_in_full_closing :
    halfLoaded.Reachable ∧ MergedLate (ofRouter halfLoaded) closedEarly 0 ∧
      ∃ a, (halfLoaded.serveAll closedEarly).2[0]? = some (.answer a) ∧
        ((ofRouter halfLoaded).live closedEarly).result? 0 =
          some (.answer ⟨[], 0, ∅, a.excluded, a.erroneous.union a.included⟩) := by
  have hr : halfLoaded.Reachable :=
    .obtain _ Router.maple rfl (.obtain _ Index.cedar rfl (.start _ _ _))
  have hlate : MergedLate (ofRouter halfLoaded) closedEarly 0 :=
    ⟨closedEarly.take 4, [.event .merge], rfl, rfl, [⟨Index.cedar, 0⟩, ⟨Router.maple, 1⟩], ∅,
      .ofPredicates default [], halfLoaded.today, by rfl, by rfl⟩
  have hsome : (((ofRouter halfLoaded).live closedEarly).result? 0).isSome := by rfl
  obtain ⟨result, hresult⟩ := Option.isSome_iff_exists.1 hsome
  obtain ⟨-, hserved, -⟩ := served_in_full halfLoaded hr closedEarly
  obtain ⟨a, ha, hanswer⟩ := (hserved 0 result hresult).2 hlate
  exact ⟨hr, hlate, a, ha, hanswer ▸ hresult⟩

end Traffic

end TaskIndex
