import TaskIndex.Proofs.Router.Waiting

/-!
The day that a request asks about.

A shard files and judges temperatures by the day it was built for, and a query over several shards is merged on
the day of its start. Mailboxes keep their day, and a request keeps waiting for the mailboxes it was posted to;
so a request that was posted to mailboxes of one day, and is merged on that day, is a request of that day for
good, however late it comes to its answer.
-/

namespace TaskIndex

/-! ### Days -/

instance : Std.LawfulEqOrd Date where
  eq_of_compare {d d'} h := by
    obtain ⟨hyear, h⟩ := compareLex_eq_eq.1 h
    obtain ⟨hmonth, hday⟩ := compareLex_eq_eq.1 h
    obtain ⟨year, month, day, _⟩ := d
    obtain ⟨year', month', day', _⟩ := d'
    obtain rfl : year = year' := Std.LawfulEqOrd.eq_of_compare hyear
    obtain rfl : month = month' := Std.LawfulEqOrd.eq_of_compare hmonth
    obtain rfl : day = day' := Std.LawfulEqOrd.eq_of_compare hday
    rfl

instance : Std.LinearOrderPackage Date := .ofOrd Date {
  beq_iff := fun _ _ => beq_iff_eq.trans Std.LawfulEqOrd.compare_eq_iff_eq.symm }

/-- The shard files and judges temperatures by the day. -/
structure Shard.BuiltFor (s : Shard) (day : Date) : Prop where
  today : s.today = day
  index : ∀ idx, s.content = .ok idx → idx.today = day

lemma Shard.Sound.builtFor {s : Shard} (h : s.Sound) : s.BuiltFor s.today :=
  ⟨rfl, fun idx hidx => (h idx hidx).2.2⟩

lemma Shard.today_apply (s : Shard) (batch : ChangeBatch) : (s.apply batch).1.today = s.today := by
  unfold apply
  split <;> rfl

lemma Shard.BuiltFor.serve {s : Shard} {day : Date} (h : s.BuiltFor day) (limits : PageLimits)
    (request : Request) : (s.serve limits request).1.BuiltFor day := by
  cases request with
  | lookup | filter | stats => exact h
  | apply batch =>
    refine ⟨(s.today_apply batch).trans h.today, fun idx hidx => ?_⟩
    cases hcontent : s.content with
    | error e =>
      have hsame : (s.apply batch).1 = s := by
        unfold Shard.apply
        rw [hcontent]
      exact h.index idx (hsame ▸ hidx)
    | ok before =>
      have happlied : (s.apply batch).1.content = .ok (before.applyBatch batch).1 := by
        unfold Shard.apply
        rw [hcontent]
      obtain rfl : (before.applyBatch batch).1 = idx := Except.ok.inj (happlied.symm.trans hidx)
      rw [Index.applyBatch_fst, Index.today_absorb]
      exact h.index before hcontent

/-! ### Mailboxes -/

def Front.dayAt? (f : Front) (box : Nat) : Option Date := f.labels[box]?.map (·.today)

/-- The shard behind a mailbox, loaded or yet to be, is one of the day. -/
structure Mailbox.BuiltFor (m : Mailbox) (day : Date) : Prop where
  today : m.today = day
  shard : ∀ s, m.phase = .serving s → s.BuiltFor day

namespace Front

variable {f : Front} {box : Nat} {day : Date}

lemma dayAt?_append {labels later : List Label} (hlabels : f.labels = labels ++ later)
    (hday : (labels[box]?).map (·.today) = some day) : f.dayAt? box = some day := by
  obtain ⟨l, hl, hday⟩ := Option.map_eq_some_iff.1 hday
  have hbox : box < labels.length := (List.getElem?_eq_some_iff.1 hl).1
  rw [dayAt?, hlabels, List.getElem?_append_left hbox, hl, Option.map_some, hday]

lemma dayAt?_created (created : Option ShardKey) (hday : f.dayAt? box = some day) :
    (created.elim f f.create).dayAt? box = some day :=
  dayAt?_append (f.elim_create created).2.2.2.2 hday

lemma dayAt?_new (f : Front) (key : ShardKey) : (f.create key).dayAt? f.labels.length = some f.today := by
  rw [dayAt?, create, List.getElem?_concat_length, Option.map_some]

lemma today_rollOver (f : Front) : f.rollOver.today = f.today := by
  unfold Front.rollOver
  split <;> rfl

lemma dayAt?_befall (h : Happening) (hday : f.dayAt? box = some day) :
    (f.befall h).dayAt? box = some day := by
  match h with
  | .request (.query actor ps) =>
    refine dayAt?_created _ ?_
    rwa [dayAt?, labels_rollOver]
  | .event (.load i) =>
    show ((f.labels.modify i ({ · with awaited := false }))[box]?).map (·.today) = some day
    rw [List.getElem?_modify, ← hday, dayAt?]
    by_cases hi : i = box <;> cases f.labels[box]? <;> simp [hi]
  | .request .close =>
    show (if f.closed then f else { f with closed := true, cached := [] }).dayAt? box = some day
    split <;> exact hday
  | .request (.notify _) | .request (.stats _) | .request (.evict _) | .event (.work _)
  | .event (.collect _) | .event .merge | .tick _ | .restock _ _ _ => exact hday

end Front

lemma Mailbox.BuiltFor.step {m : Mailbox} (h : m.BuiltFor m.today) (e : Mailbox.Event) :
    (m.step e).BuiltFor (m.step e).today := by
  have hpost : ∀ letter, (m.post letter).BuiltFor (m.post letter).today := by
    intro letter
    obtain ⟨htoday, hphase, -⟩ := m.kept_post letter
    rw [htoday]
    exact ⟨htoday, fun s hs => h.shard s (hphase ▸ hs)⟩
  cases e with
  | post ticket request => exact hpost _
  | close => exact hpost _
  | loaded scanned =>
    cases hphase : m.phase with
    | loading =>
      have hserving : m.step (.loaded scanned) =
          { m with phase := .serving (.ofScan m.key m.today scanned) } := by
        simp [Mailbox.step, hphase]
      rw [hserving]
      refine ⟨rfl, fun s hs => ?_⟩
      obtain rfl := Phase.serving.inj hs
      have hbuilt := (Shard.sound_ofScan m.key m.today scanned).builtFor
      rwa [(Shard.key_ofScan m.key m.today scanned).2] at hbuilt
    | serving | closing | draining | stopped =>
      have hsame : m.step (.loaded scanned) = m := by simp [Mailbox.step, hphase]
      rwa [hsame]
  | work =>
    show m.work.BuiltFor m.work.today
    unfold work
    split
    case h_4 shard ticket request rest hphase hqueue =>
      refine ⟨rfl, fun s hs => ?_⟩
      obtain rfl := Phase.serving.inj hs
      exact (h.shard shard hphase).serve m.limits request
    -- the shard stops serving
    case h_3 | h_5 | h_8 => exact ⟨rfl, fun s hs => by cases hs⟩
    all_goals exact ⟨rfl, h.shard⟩

namespace Traffic

/-- Every mailbox has a shard of its own day behind it. -/
def Dated (t : Traffic) : Prop :=
  ∀ (box : Nat) (m : Mailbox), t.boxes[box]? = some m → m.BuiltFor m.today

/-- There is a mailbox at the position, and the shard behind it is one of the day. -/
def Behind (t : Traffic) (box : Nat) (day : Date) : Prop := ∃ m, t.boxes[box]? = some m ∧ m.BuiltFor day

def AllOf (t : Traffic) (day : Date) : Prop := ∀ key box, t.boxOf? key = some box → t.Behind box day

variable {t t' : Traffic} {call : Ticket} {box : Nat} {day : Date}

lemma mem_cached_of_boxOf? {key : ShardKey} (hbox : t.boxOf? key = some box) : (key, box) ∈ t.cached := by
  obtain ⟨before, later, hsplit, -⟩ := List.lookup_eq_some_iff.1 hbox
  rw [hsplit]
  exact List.mem_append_right before List.mem_cons_self

lemma length_labels (t : Traffic) : t.front.labels.length = t.boxes.size := by
  rw [front, List.length_map, Array.length_toList]

namespace Dated

lemma of_boxes (ht : t.Dated) (hboxes : t'.boxes = t.boxes) : t'.Dated := by
  intro box m hm
  exact ht box m (hboxes ▸ hm)

lemma atBox (ht : t.Dated) (box : Nat) (e : Mailbox.Event) : (t.atBox box e).Dated := by
  intro i m hm
  rw [getElem?_atBox] at hm
  split at hm
  · obtain ⟨m', hm', rfl⟩ := Option.map_eq_some_iff.1 hm
    exact (ht i m' hm').step e
  · exact ht i m hm

lemma atBoxes (ht : t.Dated) (boxes : List Nat) (e : Mailbox.Event) : (t.atBoxes boxes e).Dated := by
  induction boxes generalizing t with
  | nil => exact ht
  | cons box boxes ih => exact ih (ht.atBox box e)

lemma retire (ht : t.Dated) : t.retire.Dated := (ht.atBoxes (t.cached.map (·.2)) .close).of_boxes rfl

lemma rollOver (ht : t.Dated) : t.rollOver.Dated := by
  unfold Traffic.rollOver
  split
  · exact ht.retire.of_boxes rfl
  · exact ht

lemma obtain (ht : t.Dated) (key : ShardKey) : (t.obtain key).1.Dated := by
  unfold Traffic.obtain
  split
  · exact ht
  · intro i m hm
    rw [Array.getElem?_push] at hm
    split at hm
    · obtain rfl := Option.some.inj hm
      exact ⟨rfl, fun s hs => (nomatch hs)⟩
    · exact ht i m hm

lemma opened (ht : t.Dated) (c : Call) : (t.opened c).Dated := ht.of_boxes rfl

lemma route (ht : t.Dated) (today : Date) (actor : Actor) (ps : List Predicate) :
    (t.route today actor ps).Dated := by
  have hpage : ∀ {t : Traffic}, t.Dated → ∀ key box, (t.startPage key box ps).Dated :=
    fun ht _ box => (ht.atBox box _).opened _
  unfold Traffic.route
  split
  · exact hpage (ht.obtain _) _ _
  · exact ht.opened _
  · split
    · exact hpage ht _ _
    · exact ht.opened _
  · exact (ht.atBoxes _ _).opened _

lemma start (ht : t.Dated) (s : Start) : (t.start s).Dated := by
  cases s with
  | query actor ps =>
    show (t.startQuery actor ps).Dated
    unfold startQuery
    dsimp only
    split
    · exact ht.rollOver.opened _
    · exact ht.rollOver.route _ actor ps
  | notify | stats =>
    unfold Traffic.start
    dsimp only
    split
    · exact (ht.atBox _ _).opened _
    · exact ht.opened _
  | evict key =>
    unfold Traffic.start
    dsimp only
    split
    · next box _ =>
      have hkept : Dated { t.atBox box .close with cached := t.cached.filter (·.1 ≠ key) } :=
        (ht.atBox box .close).of_boxes rfl
      exact hkept.opened _
    · exact ht.opened _
  | close =>
    unfold Traffic.start
    dsimp only
    split
    · exact ht.opened _
    · exact ht.retire.of_boxes rfl

lemma befall (ht : t.Dated) (h : Happening) : (t.befall h).Dated := by
  match h with
  | .request s => exact ht.start s
  | .event (.load box) =>
    rcases load_cases t box with ⟨m, -, -, hload⟩ | ⟨-, hload⟩
    · show (t.load box).Dated
      rw [hload]
      have hscanned : Dated { t with source := (t.source.scan m.key).1 } := ht.of_boxes rfl
      exact hscanned.atBox box _
    · exact ht.of_boxes (congrArg Traffic.boxes hload)
  | .event (.work box) => exact ht.atBox box .work
  | .event (.collect call) =>
    show (t.collect call).Dated
    rcases collect_posts t call with hsame | ⟨_, _, _, _, _, job, _, _, _, _, hposted⟩
    · rwa [hsame]
    · rw [hposted]
      exact ht.of_boxes rfl
  | .event .merge | .tick _ | .restock _ _ _ => exact ht.of_boxes rfl

lemma behind (ht : t.Dated) (hbox : t.front.dayAt? box = some day) : t.Behind box day := by
  rw [Front.dayAt?, getElem?_labels, Option.map_map] at hbox
  obtain ⟨m, hm, rfl⟩ := Option.map_eq_some_iff.1 hbox
  exact ⟨m, hm, ht box m hm⟩

lemma allOf (ht : t.Dated) (hcached : ∀ entry ∈ t.cached, t.front.dayAt? entry.2 = some day) : t.AllOf day := by
  intro key box hbox
  exact ht.behind (hcached _ (mem_cached_of_boxOf? hbox))

end Dated

/-! ### The day of a request -/

/-- From the first state to the second requests go on, and mailboxes keep their days. -/
structure Later (t t' : Traffic) : Prop extends Onward t t' where
  days : ∀ box day, t.front.dayAt? box = some day → t'.front.dayAt? box = some day

namespace Later

lemma of_front (honward : Onward t t') (hlabels : t'.front.labels = t.front.labels) : Later t t' :=
  ⟨honward, fun box day hday => by rwa [Front.dayAt?, hlabels]⟩

lemma refl (t : Traffic) : Later t t := of_front (.of_calls rfl fun _ hjob => hjob) rfl

lemma opened (t : Traffic) (c : Call) : Later t (t.opened c) := of_front (.of_push rfl fun _ hjob => hjob) rfl

lemma route (t : Traffic) (today : Date) (actor : Actor) (ps : List Predicate) :
    Later t (t.route today actor ps) := by
  obtain ⟨⟨c, hcalls⟩, hmerger⟩ := t.rest_route today actor ps
  refine ⟨.of_push hcalls fun job hjob => hmerger ▸ hjob, fun box day hday => ?_⟩
  rw [front_route]
  exact Front.dayAt?_created _ hday

lemma befall (t : Traffic) (h : Happening) : Later t (t.befall h) := by
  refine ⟨.befall t h, fun box day hday => ?_⟩
  rw [front_befall]
  exact Front.dayAt?_befall h hday

lemma retire (t : Traffic) : Later t t.retire := by
  obtain ⟨hcalls, hmerger⟩ := t.rest_atBoxes (t.cached.map (·.2)) .close
  have hlabels : t.retire.front.labels = t.front.labels := by rw [front_retire]
  exact of_front (.of_calls hcalls fun job hjob => hmerger ▸ hjob) hlabels

end Later

/-- Whatever day has a part in the answer that the request waits for is the one. -/
structure AsksOf (t : Traffic) (call : Ticket) (day : Date) : Prop where
  started : call < t.calls.size
  page : ∀ key box, t.calls[call]? = some (.page key box) → t.front.dayAt? box = some day
  parts : ∀ parts excluded spec today, t.calls[call]? = some (.parts parts excluded spec today) →
    today = day ∧ ∀ p ∈ parts, t.front.dayAt? p.box = some day
  merge : ∀ job, .job job ∈ t.merger.queue → job.call = call → job.today = day

namespace AsksOf

/-- A request keeps its day, whatever the clock shows later. -/
lemma later (h : t.AsksOf call day) (hlater : Later t t') : t'.AsksOf call day := by
  have hcalls := hlater.calls call h.started
  refine ⟨Nat.lt_of_lt_of_le h.started hlater.size, fun key box hcall => ?_,
    fun parts excluded spec today hcall => ?_, fun job hjob hcall => ?_⟩
  · rcases hcalls with hsame | ⟨_, _, _, hmerge⟩
    · exact hlater.days box day (h.page key box (hsame ▸ hcall))
    · rw [hmerge] at hcall
      cases hcall
  · rcases hcalls with hsame | ⟨_, _, _, hmerge⟩
    · obtain ⟨htoday, hparts⟩ := h.parts parts excluded spec today (hsame ▸ hcall)
      exact ⟨htoday, fun p hp => hlater.days p.box day (hparts p hp)⟩
    · rw [hmerge] at hcall
      cases hcall
  · rcases hlater.queue job hjob with hqueue | ⟨parts, excluded, spec, hparts⟩
    · exact h.merge job hqueue hcall
    · exact (h.parts parts excluded spec job.today (hcall ▸ hparts)).1

lemma opened (hposts : t.Posts) {c : Call}
    (hpage : ∀ key box, c = .page key box → t.front.dayAt? box = some day)
    (hparts : ∀ parts excluded spec today, c = .parts parts excluded spec today →
      today = day ∧ ∀ p ∈ parts, t.front.dayAt? p.box = some day) :
    (t.opened c).AsksOf t.nextTicket day := by
  have hcall : ∀ c', (t.opened c).calls[t.nextTicket]? = some c' → c = c' := by
    intro c' hc'
    have hthis : (t.opened c).calls[t.nextTicket]? = some c := Array.getElem?_push_size
    exact Option.some.inj (hthis.symm.trans hc')
  refine ⟨?_, fun key box hc => hpage key box (hcall _ hc), fun _ _ _ _ hc => hparts _ _ _ _ (hcall _ hc),
    fun job hjob hticket => ?_⟩
  · show t.calls.size < (t.calls.push c).size
    rw [Array.size_push]
    exact Nat.lt_succ_self _
  · exact absurd hticket (Nat.ne_of_lt (hposts job hjob))

lemma done (hposts : t.Posts) (result : Result) : (t.opened (.done result)).AsksOf t.nextTicket day :=
  opened hposts (fun _ _ hc => (nomatch hc)) fun _ _ _ _ hc => (nomatch hc)

lemma startPage (hposts : t.Posts) (hbox : t.front.dayAt? box = some day) (key : ShardKey)
    (ps : List Predicate) : (t.startPage key box ps).AsksOf t.nextTicket day := by
  have hfront := front_startPage t key box ps
  refine opened (t := t.atBox box _) hposts (fun key' box' hc => ?_) fun _ _ _ _ hc => (nomatch hc)
  obtain ⟨-, rfl⟩ := Call.page.inj hc
  exact hfront ▸ hbox

lemma startParts (hposts : t.Posts) (hcached : ∀ entry ∈ t.cached, t.front.dayAt? entry.2 = some day)
    (keys : SortedSet ShardKey) (ps : List Predicate) :
    (t.startParts day keys ps).AsksOf t.nextTicket day := by
  have hfront := front_startParts t day keys ps
  obtain ⟨hcalls, hmerger⟩ := rest_atBoxes t
    ((keys.toList.filterMap fun key => (t.boxOf? key).map fun box => (⟨key, box⟩ : Part)).map (·.box))
    (.post t.nextTicket (.filter (filtersOnly ps)))
  have hposts' := hposts.of_rest hcalls hmerger
  rw [show t.nextTicket = _ from (congrArg Array.size hcalls).symm]
  refine opened hposts' (fun _ _ hc => (nomatch hc)) fun parts excluded spec today hc => ?_
  obtain ⟨hparts, -, -, rfl⟩ := Call.parts.inj hc
  refine ⟨rfl, fun p hp => ?_⟩
  rw [← hparts] at hp
  obtain ⟨key, -, hkey⟩ := List.mem_filterMap.1 hp
  obtain ⟨box, hbox, rfl⟩ := Option.map_eq_some_iff.1 hkey
  exact hfront ▸ hcached _ (mem_cached_of_boxOf? hbox)

lemma dayAt?_obtain (hcached : ∀ entry ∈ t.cached, t.front.dayAt? entry.2 = some t.today) (key : ShardKey) :
    (t.obtain key).1.front.dayAt? (t.obtain key).2 = some t.today := by
  cases hbox : t.boxOf? key with
  | some box =>
    rw [obtain_of_boxOf?_some hbox]
    exact hcached _ (mem_cached_of_boxOf? hbox)
  | none =>
    have hnew := t.front.dayAt?_new key
    rw [length_labels] at hnew
    rwa [front_obtain, if_neg (boxOf?_eq_none_iff.1 hbox), obtain_of_boxOf?_none hbox]

/-- A query that goes its way on a day on which every cached shard was built. -/
lemma route (hposts : t.Posts) (hcached : ∀ entry ∈ t.cached, t.front.dayAt? entry.2 = some t.today)
    (actor : Actor) (ps : List Predicate) : (t.route t.today actor ps).AsksOf t.nextTicket t.today := by
  unfold Traffic.route
  split
  · next key _ =>
    obtain ⟨hcalls, hmerger⟩ := rest_obtain t key
    rw [show t.nextTicket = (t.obtain key).1.nextTicket from (congrArg Array.size hcalls).symm]
    exact startPage (hposts.of_rest hcalls hmerger) (dayAt?_obtain hcached key) key ps
  · exact done hposts _
  · split
    · next hbox => exact startPage hposts (hcached _ (mem_cached_of_boxOf? hbox)) _ ps
    · exact done hposts _
  · exact startParts hposts hcached _ ps

lemma startQuery (hposts : t.Posts)
    (hcached : ∀ entry ∈ t.rollOver.cached, t.rollOver.front.dayAt? entry.2 = some t.today) (actor : Actor)
    (ps : List Predicate) : (t.startQuery actor ps).AsksOf t.nextTicket t.today := by
  obtain ⟨hcalls, hmerger⟩ := t.rest_rollOver
  have htoday : t.rollOver.today = t.today :=
    (congrArg Front.today t.front_rollOver).trans t.front.today_rollOver
  have hposts' : t.rollOver.Posts := hposts.of_rest hcalls hmerger
  rw [show t.nextTicket = t.rollOver.nextTicket from (congrArg Array.size hcalls).symm, ← htoday]
  rw [← htoday] at hcached
  unfold Traffic.startQuery
  dsimp only
  split
  · exact done hposts' _
  · exact route hposts' hcached actor ps

end AsksOf

/-- The answer that the request waits for comes from shards of the day alone, and is merged on it. -/
structure AnsweredOf (t : Traffic) (call : Ticket) (day : Date) : Prop where
  page : ∀ key box, t.calls[call]? = some (.page key box) → t.Behind box day
  parts : ∀ parts excluded spec today, t.calls[call]? = some (.parts parts excluded spec today) →
    today = day ∧ ∀ p ∈ parts, t.Behind p.box day
  merge : ∀ job, .job job ∈ t.merger.queue → job.call = call → job.today = day

lemma AsksOf.answeredOf (h : t.AsksOf call day) (ht : t.Dated) : t.AnsweredOf call day where
  page key box hcall := ht.behind (h.page key box hcall)
  parts parts excluded spec today hcall := by
    obtain ⟨htoday, hparts⟩ := h.parts parts excluded spec today hcall
    exact ⟨htoday, fun p hp => ht.behind (hparts p hp)⟩
  merge := h.merge

end Traffic

end TaskIndex
