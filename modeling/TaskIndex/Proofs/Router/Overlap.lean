import TaskIndex.Proofs.Router.Day
import TaskIndex.Router.Overlap

/-!
No query is answered from another day's index, as far as that can be said.

The day stands in the marker, in every cached shard and in what is handed to the merger. Queries that begin side
by side can find these at odds: one has moved the marker and has not yet dropped the shards, the clock goes on
after it was read, or the marker has gone to an earlier day than the one that was read. While the clock is never
set back there is no other way. In every state the marker and the days of the cached shards lie behind the
clock; and once no shards are due to be dropped, no cached shard is older than the marker, nor older than the
day that a query has found at its check.
-/

namespace TaskIndex

/-! ### Days in a front -/

namespace Front

def Since (f : Front) (day : Date) : Prop :=
  ∀ entry ∈ f.cached, ∃ built, f.dayAt? entry.2 = some built ∧ day ≤ built

lemma today_befall (f : Front) (h : Happening) : (f.befall h).today = h.date?.getD f.today := by
  match h with
  | .request (.query actor ps) =>
    exact (f.rollOver.elim_create (f.rollOver.created? (Route.of actor ps))).1.trans f.today_rollOver
  | .request .close =>
    show (if f.closed then f else { f with closed := true, cached := [] }).today = f.today
    split <;> rfl
  | .request (.notify _) | .request (.stats _) | .request (.evict _) | .event (.load _) | .event (.work _)
  | .event (.collect _) | .event .merge | .tick _ | .restock _ _ _ => rfl

/-- What one step makes of the days in a front. A query can be `due` to drop the shards before the step and
after it. -/
structure Moves (f f' : Front) (due due' : Prop) : Prop where
  clock : f.today ≤ f'.today
  marker : f.validFor ≤ f'.validFor
  bound : f'.validFor ≤ f.today
  days : ∀ box day, f.dayAt? box = some day → f'.dayAt? box = some day
  cached : ∀ entry ∈ f'.cached, entry ∈ f.cached ∨ f'.dayAt? entry.2 = some f.today
  dropped : due → due' ∨ f'.cached = []
  checked : f'.validFor = f.validFor ∨ due' ∨ ∀ entry ∈ f'.cached, f'.dayAt? entry.2 = some f.today

namespace Moves

variable {f f' : Front} {due due' : Prop} {day : Date}

lemma of_subset (hmarker : f.validFor ≤ f.today) (hdue : due → due') (cached : List (ShardKey × Nat))
    (hcached : ∀ entry ∈ cached, entry ∈ f.cached) (closed : Bool) :
    f.Moves { f with cached, closed } due due' where
  clock := Std.le_refl _
  marker := Std.le_refl _
  bound := hmarker
  days _ _ hday := hday
  cached entry hentry := .inl (hcached entry hentry)
  dropped h := .inl (hdue h)
  checked := .inl rfl

lemma refl (hmarker : f.validFor ≤ f.today) (hdue : due → due') : f.Moves f due due' :=
  of_subset hmarker hdue f.cached (fun _ hentry => hentry) f.closed

lemma retire (hmarker : f.validFor ≤ f.today) : f.Moves { f with cached := [] } due due' where
  clock := Std.le_refl _
  marker := Std.le_refl _
  bound := hmarker
  days _ _ hday := hday
  cached _ hentry := absurd hentry List.not_mem_nil
  dropped _ := .inr rfl
  checked := .inl rfl

/-- Whoever moves the marker is due to drop the shards. -/
lemma mark (hlater : f.validFor < day) (hday : day ≤ f.today) (hdue : due') :
    f.Moves { f with validFor := day } due due' where
  clock := Std.le_refl _
  marker := Std.le_of_lt hlater
  bound := hday
  days _ _ hday := hday
  cached _ hentry := .inl hentry
  dropped _ := .inl hdue
  checked := .inr (.inl hdue)

lemma create (h : f.Moves f' due due) (htoday : f'.today = f.today) (created : Option ShardKey) :
    f.Moves (created.elim f' f'.create) due due := by
  cases created with
  | none => exact h
  | some key =>
    have hkept : ∀ {box day}, f'.dayAt? box = some day → (f'.create key).dayAt? box = some day :=
      fun hday => dayAt?_created (some key) hday
    have hnew : (f'.create key).dayAt? f'.labels.length = some f.today := htoday ▸ f'.dayAt?_new key
    refine ⟨h.clock, h.marker, h.bound, fun box day hday => hkept (h.days box day hday), fun entry hentry => ?_,
      fun hdue => .inl hdue, h.checked.imp_right (Or.imp_right fun hall entry hentry => ?_)⟩
    · rcases List.mem_append.1 hentry with hentry | hentry
      · exact (h.cached entry hentry).imp_right hkept
      · rw [List.mem_singleton.1 hentry]
        exact .inr hnew
    · rcases List.mem_append.1 hentry with hentry | hentry
      · exact hkept (hall entry hentry)
      · rw [List.mem_singleton.1 hentry]
        exact hnew

lemma rollOver (hmarker : f.validFor ≤ f.today) (due : Prop) : f.Moves f.rollOver due due := by
  unfold Front.rollOver
  split
  · exact {
      clock := Std.le_refl _
      marker := hmarker
      bound := Std.le_refl _
      days _ _ hday := hday
      cached := fun entry hentry => absurd hentry List.not_mem_nil
      dropped := .inl
      checked := .inr (.inr fun entry hentry => absurd hentry List.not_mem_nil) }
  · exact refl hmarker id

lemma befall (hmarker : f.validFor ≤ f.today) (due : Prop) {h : Happening}
    (hforward : f.today ≤ h.date?.getD f.today) : f.Moves (f.befall h) due due := by
  have hclock : f.today ≤ (f.befall h).today := (f.today_befall h).symm ▸ hforward
  match h with
  | .request (.query actor ps) =>
    exact (rollOver hmarker due).create f.today_rollOver _
  | .request (.evict key) =>
    exact of_subset hmarker id _ (fun entry hentry => (List.mem_filter.1 hentry).1) f.closed
  | .request .close =>
    show f.Moves (if f.closed then f else { f with closed := true, cached := [] }) due due
    split
    · exact refl hmarker id
    · exact of_subset hmarker id [] (fun entry hentry => absurd hentry List.not_mem_nil) true
  | .tick today =>
    have hsame : f.Moves f due due := refl hmarker id
    exact { hsame with clock := hclock }
  | .event (.load box) =>
    have hsame : f.Moves f due due := refl hmarker id
    have hdays : ∀ i day, f.dayAt? i = some day → (f.befall (.event (.load box))).dayAt? i = some day :=
      fun i day hday => dayAt?_befall _ hday
    exact { hsame with
      days := hdays
      cached := fun entry hentry => .inl hentry
      checked := .inl rfl }
  | .request (.notify _) | .request (.stats _) | .event (.work _) | .event (.collect _) | .event .merge
  | .restock _ _ _ => exact refl hmarker id

/-- Shards of earlier days do not come back. -/
lemma since (h : f.Moves f' due due') (hday : day ≤ f.today) (hnot : ¬due') (hsince : ¬due → f.Since day) :
    f'.Since day := by
  intro entry hentry
  by_cases hdue : due
  · rw [(h.dropped hdue).resolve_left hnot] at hentry
    cases hentry
  · rcases h.cached entry hentry with hold | hnew
    · obtain ⟨built, hbuilt, hle⟩ := hsince hdue entry hold
      exact ⟨built, h.days _ _ hbuilt, hle⟩
    · exact ⟨f.today, hnew, hday⟩

end Moves

end Front

namespace Traffic

lemma retire_eq (t : Traffic) : t.retire = { t with
    boxes := (t.cached.map (·.2)).foldl (fun boxes box => boxes.modify box (·.step .close)) t.boxes
    cached := [] } := by
  rw [retire, atBoxes_eq]

end Traffic

namespace Overlap

/-! ### What holds in every state -/

/-- A query has moved the marker, and is due to drop the shards. -/
def Due (callers : List Caller) : Prop := ∃ c ∈ callers, ∃ day, c.stage = .dropShards day

/-- What a query can rely on where it stands. -/
def Stage.Holds (f : Front) (due : Prop) : Stage → Prop
  | .readClock | .gone => True
  | .readMarker day => day ≤ f.today
  | .moveMarker day marked => day ≤ f.today ∧ marked < day ∧ (¬due → f.validFor = marked ∨ f.Since day)
  | .dropShards day => day ≤ f.today ∧ day ≤ f.validFor
  | .enter day lost | .leave day lost =>
    day ≤ f.today ∧ (lost = false → day ≤ f.validFor) ∧ (¬due → f.Since day)

/-- The marker and the days of the cached shards lie behind the clock, the shards that are not due to be dropped
are no older than the marker, and every query can rely on what it has found. -/
structure Timely (f : Front) (callers : List Caller) : Prop where
  marker : f.validFor ≤ f.today
  opened : ∀ entry ∈ f.cached, ∃ built, f.dayAt? entry.2 = some built ∧ built ≤ f.today
  fresh : ¬Due callers → f.Since f.validFor
  callers : ∀ c ∈ callers, c.stage.Holds f (Due callers)

variable {f f' : Front} {callers callers' : List Caller} {c : Caller} {i : Nat} {stage : Stage}

lemma Stage.Holds.moves {due due' : Prop} (hm : f.Moves f' due due') (h : stage.Holds f due) :
    stage.Holds f' due' := by
  have hkept : ∀ {day : Date} {lost : Bool}, day ≤ f.today ∧ (lost = false → day ≤ f.validFor) ∧
      (¬due → f.Since day) → day ≤ f'.today ∧ (lost = false → day ≤ f'.validFor) ∧ (¬due' → f'.Since day) :=
    fun ⟨hday, hwon, hsince⟩ => ⟨Std.le_trans hday hm.clock, fun hlost => Std.le_trans (hwon hlost) hm.marker,
      fun hnot => hm.since hday hnot hsince⟩
  cases stage with
  | readClock | gone => trivial
  | readMarker day => exact Std.le_trans h hm.clock
  | moveMarker day marked =>
    obtain ⟨hday, hlater, hstill⟩ := h
    refine ⟨Std.le_trans hday hm.clock, hlater, fun hnot => ?_⟩
    by_cases hmarked : f.validFor = marked
    · rcases hm.checked with hsame | hdue | hall
      · exact .inl (hsame.trans hmarked)
      · exact absurd hdue hnot
      · exact .inr fun entry hentry => ⟨f.today, hall entry hentry, hday⟩
    · exact .inr (hm.since hday hnot fun hnotDue => (hstill hnotDue).resolve_left hmarked)
  | dropShards day => exact ⟨Std.le_trans h.1 hm.clock, Std.le_trans h.2 hm.marker⟩
  | enter day lost => exact hkept h
  | leave day lost => exact hkept h

namespace Timely

lemma moves (h : Timely f callers) (hm : f.Moves f' (Due callers) (Due callers'))
    (hcallers : ∀ c ∈ callers', c ∈ callers ∨ c.stage.Holds f' (Due callers')) : Timely f' callers' where
  marker := Std.le_trans hm.bound hm.clock
  opened entry hentry := by
    rcases hm.cached entry hentry with hold | hnew
    · obtain ⟨built, hbuilt, hle⟩ := h.opened entry hold
      exact ⟨built, hm.days _ _ hbuilt, Std.le_trans hle hm.clock⟩
    · exact ⟨f.today, hnew, hm.clock⟩
  fresh hnot := by
    rcases hm.checked with hsame | hdue | hall
    · rw [hsame]
      exact hm.since h.marker hnot h.fresh
    · exact absurd hdue hnot
    · exact fun entry hentry => ⟨f.today, hall entry hentry, hm.bound⟩
  callers c hc := (hcallers c hc).elim (fun hold => (h.callers c hold).moves hm) id

lemma set (h : Timely f callers) (hm : f.Moves f' (Due callers) (Due (callers.set i c)))
    (hstage : c.stage.Holds f' (Due (callers.set i c))) : Timely f' (callers.set i c) := by
  refine h.moves hm fun c' hc' => ?_
  rcases List.mem_or_eq_of_mem_set hc' with hold | rfl
  · exact .inl hold
  · exact .inr hstage

end Timely

/-- Nobody drops the shards in the place of the query that is due to. -/
lemma due_set (hi : callers[i]? = some c) (hstage : ∀ day, c.stage ≠ .dropShards day) (c' : Caller)
    (hdue : Due callers) : Due (callers.set i c') := by
  obtain ⟨q, hq, day, hday⟩ := hdue
  obtain ⟨j, hj⟩ := List.mem_iff_getElem?.1 hq
  refine ⟨q, List.mem_iff_getElem?.2 ⟨j, ?_⟩, day, hday⟩
  rw [List.getElem?_set_ne, hj]
  rintro rfl
  obtain rfl := Option.some.inj (hi.symm.trans hj)
  exact hstage day hday

/-! ### One step of a query -/

lemma front_depart (c : Caller) (t : Traffic) (day : Date) :
    ∃ created : Option ShardKey, (c.depart t day).front = created.elim t.front t.front.create := by
  unfold Caller.depart
  split
  · exact ⟨none, rfl⟩
  · exact ⟨_, t.front_route day c.actor c.ps⟩

/-- What a query can make of the router in one step. -/
lemma next_cases (c : Caller) (t : Traffic) :
    (c.next t).1 = t ∨ (∃ day, (c.next t).1 = { t with validFor := day }) ∨ (c.next t).1 = t.retire ∨
      (c.next t).1 = t.refuse c.actor c.ps ∨ ∃ day, (c.next t).1 = t.route day c.actor c.ps := by
  unfold Caller.next
  split
  · exact .inl rfl
  · exact .inl rfl
  · split
    · exact .inr (.inl ⟨_, rfl⟩)
    · exact .inl rfl
  · exact .inr (.inr (.inl rfl))
  · split
    · exact .inr (.inr (.inr (.inl rfl)))
    · exact .inl rfl
  · dsimp only
    unfold Caller.depart
    split
    · exact .inr (.inr (.inr (.inl rfl)))
    · exact .inr (.inr (.inr (.inr ⟨_, rfl⟩)))
  · exact .inl rfl

lemma later_next (c : Caller) (t : Traffic) : Traffic.Later t (c.next t).1 := by
  rcases next_cases c t with hsame | ⟨day, hmarked⟩ | hretired | hrefused | ⟨day, hrouted⟩
  · rw [hsame]
    exact .refl t
  · exact hmarked ▸ .of_front (.of_calls rfl fun _ hjob => hjob) rfl
  · exact hretired ▸ .retire t
  · exact hrefused ▸ .opened t _
  · exact hrouted ▸ .route t day c.actor c.ps

lemma today_next (c : Caller) (t : Traffic) : (c.next t).1.today = t.today := by
  rcases next_cases c t with hsame | ⟨day, hmarked⟩ | hretired | hrefused | ⟨day, hrouted⟩
  · rw [hsame]
  · rw [hmarked]
  · rw [hretired]
    exact congrArg Front.today t.front_retire
  · rw [hrefused]
    rfl
  · rw [hrouted]
    exact (congrArg Front.today (t.front_route day c.actor c.ps)).trans (t.front.elim_create _).1

lemma dated_next {t : Traffic} (ht : t.Dated) (c : Caller) : (c.next t).1.Dated := by
  rcases next_cases c t with hsame | ⟨day, hmarked⟩ | hretired | hrefused | ⟨day, hrouted⟩
  · rwa [hsame]
  · exact hmarked ▸ ht.of_boxes rfl
  · exact hretired ▸ ht.retire
  · exact hrefused ▸ ht.opened _
  · exact hrouted ▸ ht.route day c.actor c.ps

lemma Timely.next {t : Traffic} (h : Timely t.front callers) (hi : callers[i]? = some c) :
    Timely (c.next t).1.front (callers.set i { c with stage := (c.next t).2 }) := by
  obtain ⟨actor, ps, stage⟩ := c
  have hholds := h.callers _ (List.mem_of_getElem? hi)
  -- whoever else is due stays due
  have hdue : (∀ day, stage ≠ .dropShards day) → ∀ stage',
      Due callers → Due (callers.set i ⟨actor, ps, stage'⟩) := fun hstage stage' => due_set hi hstage _
  cases stage with
  | readClock => exact h.set (.refl h.marker (hdue (fun _ heq => nomatch heq) _)) (Std.le_refl t.today)
  | readMarker day =>
    dsimp only [Caller.next]
    have hdue' := hdue fun _ heq => nomatch heq
    split
    · next hlater =>
      refine h.set (.refl h.marker (hdue' _)) ⟨hholds, ?_, fun _ => .inl rfl⟩
      exact Std.compare_eq_lt.1 hlater
    · next hnot =>
      have hday : day ≤ t.front.validFor := Std.not_lt.1 fun hlt => hnot (Std.compare_eq_lt.2 hlt)
      refine h.set (.refl h.marker (hdue' _)) ⟨hholds, fun _ => hday, fun hnotDue entry hentry => ?_⟩
      obtain ⟨built, hbuilt, hle⟩ := h.fresh (fun hthis => hnotDue (hdue' _ hthis)) entry hentry
      exact ⟨built, hbuilt, Std.le_trans hday hle⟩
  | moveMarker day marked =>
    dsimp only [Caller.next]
    have hdue' := hdue fun _ heq => nomatch heq
    obtain ⟨hday, hlater, hstill⟩ := hholds
    split
    · next hmarked =>
      have hlt : t.validFor < day := hmarked ▸ hlater
      have hnow : Due (callers.set i ⟨actor, ps, .dropShards day⟩) :=
        ⟨_, List.mem_set (List.getElem?_eq_some_iff.1 hi).1 _, day, rfl⟩
      exact h.set (.mark hlt hday hnow) ⟨hday, Std.le_refl day⟩
    · next hmoved =>
      refine h.set (.refl h.marker (hdue' _)) ⟨hday, fun hlost => (nomatch hlost), fun hnotDue => ?_⟩
      exact (hstill fun hthis => hnotDue (hdue' _ hthis)).resolve_left hmoved
  | dropShards day =>
    dsimp only [Caller.next]
    obtain ⟨hday, hwon⟩ := hholds
    rw [Traffic.front_retire]
    exact h.set (.retire h.marker)
      ⟨hday, fun _ => hwon, fun _ entry hentry => absurd hentry List.not_mem_nil⟩
  | enter day lost =>
    dsimp only [Caller.next]
    have hdue' := hdue fun _ heq => nomatch heq
    obtain ⟨hday, hwon, hsince⟩ := hholds
    split
    · exact h.set (.refl h.marker (hdue' _)) trivial
    · exact h.set (.refl h.marker (hdue' _))
        ⟨hday, hwon, fun hnotDue => hsince fun hthis => hnotDue (hdue' _ hthis)⟩
  | leave day lost =>
    dsimp only [Caller.next]
    obtain ⟨created, hfront⟩ := front_depart ⟨actor, ps, .leave day lost⟩ t day
    rw [hfront]
    have hdue' := hdue (fun _ heq => nomatch heq) .gone
    refine h.set ?_ trivial
    have hsame : t.front.Moves t.front (Due callers) (Due callers) := .refl h.marker id
    exact { hsame.create rfl created with
      dropped := fun hthis => .inl (hdue' hthis)
      checked := .inl (t.front.elim_create created).2.1 }
  | gone => exact h.set (.refl h.marker (hdue (fun _ heq => nomatch heq) _)) trivial

/-! ### Runs -/

def Event.date? : Event → Option Date
  | .happen h => h.date?
  | _ => none

/-- The clock, which shows `now` at first, is never set back. -/
def Forward (now : Date) : List Event → Prop
  | [] => True
  | e :: es => now ≤ e.date?.getD now ∧ Forward (e.date?.getD now) es

instance : (now : Date) → (es : List Event) → Decidable (Forward now es)
  | _, [] => inferInstanceAs (Decidable True)
  | now, e :: es =>
    have := instDecidableForward (e.date?.getD now) es
    inferInstanceAs (Decidable (_ ∧ _))

variable {o : Overlap} {es : List Event}

@[simp] lemma run_nil (o : Overlap) : o.run [] = o := rfl

@[simp] lemma run_cons (o : Overlap) (e : Event) (es : List Event) : o.run (e :: es) = (o.step e).run es := rfl

lemma step_go (hi : o.callers[i]? = some c) : o.step (.go i) = { o with
    traffic := (c.next o.traffic).1
    callers := o.callers.set i { c with stage := (c.next o.traffic).2 } } := by
  simp only [step, hi]

lemma later_step (o : Overlap) (e : Event) : Traffic.Later o.traffic (o.step e).traffic := by
  cases e with
  | arrive => exact .refl _
  | go i =>
    cases hi : o.callers[i]? with
    | none => simp only [step, hi, Traffic.Later.refl]
    | some c => exact step_go hi ▸ later_next c o.traffic
  | shut =>
    simp only [step]
    split
    · exact .opened _ _
    · refine .of_front (.of_calls rfl fun job hjob => ?_) rfl
      have hqueue : (.job job : Traffic.MergePosting) ∈ o.traffic.merger.queue ++ [.close] := hjob
      simpa using hqueue
  | clear =>
    simp only [step]
    split
    · obtain ⟨hcalls, hmerger⟩ := o.traffic.rest_atBoxes (o.traffic.cached.map (·.2)) .close
      have hlabels : o.traffic.retire.front.labels = o.traffic.front.labels := by rw [Traffic.front_retire]
      have hpushed : (o.traffic.retire.opened (.done .closed)).calls = o.traffic.calls.push (.done .closed) :=
        congrArg (·.push (.done .closed)) hcalls
      exact .of_front (.of_push hpushed fun job hjob => hmerger ▸ hjob) hlabels
    · exact .refl _
  | happen h => exact .befall _ h

lemma today_step (o : Overlap) (e : Event) : (o.step e).traffic.today = e.date?.getD o.traffic.today := by
  cases e with
  | arrive => rfl
  | go i =>
    cases hi : o.callers[i]? with
    | none => simp only [step, hi, Event.date?, Option.getD_none]
    | some c => exact step_go hi ▸ today_next c o.traffic
  | shut =>
    simp only [step]
    split <;> rfl
  | clear =>
    simp only [step]
    split
    · exact congrArg Front.today o.traffic.front_retire
    · rfl
  | happen h =>
    have hfront := o.traffic.front.today_befall h
    rwa [← Traffic.front_befall] at hfront

lemma dated_step (h : o.traffic.Dated) (e : Event) : (o.step e).traffic.Dated := by
  cases e with
  | arrive => exact h
  | go i =>
    cases hi : o.callers[i]? with
    | none => simpa only [step, hi] using h
    | some c => exact step_go hi ▸ dated_next h c
  | shut =>
    simp only [step]
    split
    · exact h.opened _
    · exact h.of_boxes rfl
  | clear =>
    simp only [step]
    split
    · exact h.retire.opened _
    · exact h
  | happen happening => exact h.befall happening

lemma Timely.step (h : Timely o.traffic.front o.callers) {e : Event}
    (hforward : o.traffic.today ≤ e.date?.getD o.traffic.today) :
    Timely (o.step e).traffic.front (o.step e).callers := by
  cases e with
  | arrive actor ps =>
    refine h.moves (.refl h.marker fun ⟨c, hc, hday⟩ => ⟨c, List.mem_append_left _ hc, hday⟩) fun c hc => ?_
    rcases List.mem_append.1 hc with hold | hnew
    · exact .inl hold
    · rw [List.mem_singleton.1 hnew]
      exact .inr trivial
  | go i =>
    cases hi : o.callers[i]? with
    | none => simpa only [Overlap.step, hi] using h
    | some c =>
      rw [step_go hi]
      exact h.next hi
  | shut =>
    simp only [Overlap.step]
    split
    · exact h
    · exact h.moves (.of_subset h.marker id _ (fun _ hentry => hentry) true) fun _ hc => .inl hc
  | clear =>
    simp only [Overlap.step]
    split
    · show Timely o.traffic.retire.front o.callers
      rw [Traffic.front_retire]
      exact h.moves (.retire h.marker) fun _ hc => .inl hc
    · exact h
  | happen happening =>
    show Timely (o.traffic.befall happening).front o.callers
    rw [Traffic.front_befall]
    exact h.moves (.befall h.marker _ hforward) fun _ hc => .inl hc

lemma timely_start {source : Source} {today : Date} {limits : PageLimits} :
    Timely (start source today limits).traffic.front (start source today limits).callers where
  marker := Std.le_refl today
  opened _ hentry := absurd hentry List.not_mem_nil
  fresh _ _ hentry := absurd hentry List.not_mem_nil
  callers _ hc := absurd hc List.not_mem_nil

lemma timely_run (h : Timely o.traffic.front o.callers) (hforward : Forward o.traffic.today es) :
    Timely (o.run es).traffic.front (o.run es).callers := by
  induction es generalizing o with
  | nil => exact h
  | cons e es ih =>
    obtain ⟨hnow, hlater⟩ := hforward
    exact ih (h.step hnow) (o.today_step e ▸ hlater)

lemma dated_start {source : Source} {today : Date} {limits : PageLimits} :
    (start source today limits).traffic.Dated := by
  intro box m hm
  have hnone : (#[] : Array Mailbox)[box]? = some m := hm
  simp at hnone

lemma dated_run (h : o.traffic.Dated) (es : List Event) : (o.run es).traffic.Dated := by
  induction es generalizing o with
  | nil => exact h
  | cons e es ih => exact ih (dated_step h e)

lemma posts_run (h : o.traffic.Posts) (es : List Event) : (o.run es).traffic.Posts := by
  induction es generalizing o with
  | nil => exact h
  | cons e es ih => exact ih (h.onward (o.later_step e).toOnward)

lemma answeredOf_run {call : Ticket} {day : Date} (h : o.traffic.AsksOf call day) (hdated : o.traffic.Dated)
    (es : List Event) : (o.run es).traffic.AnsweredOf call day := by
  induction es generalizing o with
  | nil => exact h.answeredOf hdated
  | cons e es ih => exact ih (h.later (o.later_step e)) (dated_step hdated e)

lemma callers_run (hes : ∀ e ∈ es, ∃ h, e = .happen h) : (o.run es).callers = o.callers := by
  induction es generalizing o with
  | nil => rfl
  | cons e es ih =>
    obtain ⟨h, rfl⟩ := hes e List.mem_cons_self
    exact ih fun e he => hes e (List.mem_cons_of_mem _ he)

/-! ### In one go -/

def Caller.goOn (c : Caller) (t : Traffic) : Nat → Traffic × Caller
  | 0 => (t, c)
  | n + 1 => { c with stage := (c.next t).2 }.goOn (c.next t).1 n

lemma run_go (hi : o.callers[i]? = some c) (n : Nat) : o.run (.replicate n (.go i)) = { o with
    traffic := (c.goOn o.traffic n).1
    callers := o.callers.set i (c.goOn o.traffic n).2 } := by
  induction n generalizing o c with
  | zero =>
    have hself : o.callers.set i c = o.callers := by
      obtain ⟨hlt, rfl⟩ := List.getElem?_eq_some_iff.1 hi
      exact List.set_getElem_self hlt
    simp only [Caller.goOn, hself, List.replicate_zero, run_nil]
  | succ n ih =>
    have hlt : i < o.callers.length := (List.getElem?_eq_some_iff.1 hi).1
    have hnext : (o.step (.go i)).callers[i]? = some { c with stage := (c.next o.traffic).2 } := by
      rw [step_go hi]
      exact List.getElem?_set_self hlt
    rw [List.replicate_succ, run_cons, ih hnext, step_go hi, List.set_set]
    rfl

lemma goOn_readClock (actor : Actor) (ps : List Predicate) (t : Traffic) :
    Caller.goOn { actor, ps } t 6 = (t.startQuery actor ps, { actor, ps, stage := .gone }) := by
  unfold Traffic.startQuery Traffic.rollOver
  by_cases hlater : compare t.validFor t.today = .lt
  · cases hclosed : t.closed with
    | false => simp [Caller.goOn, Caller.next, Caller.depart, hlater, hclosed, Traffic.retire_eq]
    | true => simp [Caller.goOn, Caller.next, hlater, hclosed, Traffic.retire_eq]
  · cases hclosed : t.closed with
    | false => simp [Caller.goOn, Caller.next, Caller.depart, hlater, hclosed]
    | true => simp [Caller.goOn, Caller.next, hlater, hclosed]

/-- A query that nothing comes between does what a query does that is one step. -/
theorem run_go_readClock {actor : Actor} {ps : List Predicate} (hi : o.callers[i]? = some { actor, ps }) :
    o.run (.replicate 6 (.go i)) = { o with
      traffic := o.traffic.startQuery actor ps
      callers := o.callers.set i { actor, ps, stage := .gone } } := by
  rw [run_go hi, goOn_readClock]

/-- A close that nothing comes between does what a close does that is one step. -/
theorem clear_shut (hclosing : o.closing = false) :
    (o.step .shut).step .clear = o.step (.happen (.request .close)) := by
  show _ = { o with traffic := o.traffic.start .close }
  cases hclosed : o.traffic.closed with
  | false =>
    simp [step, hclosed, Traffic.shut, Traffic.start, Traffic.retire_eq, Traffic.opened, hclosing]
  | true => simp [step, hclosed, Traffic.start, Traffic.opened, hclosing]

/-! ### Days that agree -/

namespace Timely

/-- A cached shard lies behind the clock, and behind an earlier day only as long as it is due to be dropped. -/
lemma dayAt?_le (h : Timely f callers) {day : Date} (hsince : ¬Due callers → f.Since day)
    {entry : ShardKey × Nat} (hentry : entry ∈ f.cached) :
    ∃ built, f.dayAt? entry.2 = some built ∧ built ≤ f.today ∧ (built < day → Due callers) := by
  obtain ⟨built, hbuilt, hle⟩ := h.opened entry hentry
  refine ⟨built, hbuilt, hle, fun hearlier => ?_⟩
  by_contra hnot
  obtain ⟨built', hbuilt', hge⟩ := hsince hnot entry hentry
  obtain rfl := Option.some.inj (hbuilt.symm.trans hbuilt')
  exact Std.not_lt.2 hge hearlier

lemma dayAt?_eq (h : Timely f callers) (hnot : ¬Due callers) (hsince : f.Since f.today) :
    ∀ entry ∈ f.cached, f.dayAt? entry.2 = some f.today := by
  intro entry hentry
  obtain ⟨built, hbuilt, hle, hearlier⟩ := h.dayAt?_le (fun _ => hsince) hentry
  rw [hbuilt, Std.le_antisymm hle (Std.not_lt.1 fun hlt => hnot (hearlier hlt))]

/-- The check of the day in one go brings the marker, the clock and the cached shards together. -/
lemma rollOver (h : Timely f callers) (hnot : ¬Due callers) :
    f.rollOver.validFor = f.today ∧ ∀ entry ∈ f.rollOver.cached, f.rollOver.dayAt? entry.2 = some f.today := by
  unfold Front.rollOver
  split
  · exact ⟨rfl, fun entry hentry => absurd hentry List.not_mem_nil⟩
  · next hlater =>
    have hmarked : f.validFor = f.today :=
      Std.le_antisymm h.marker (Std.not_lt.1 fun hlt => hlater (Std.compare_eq_lt.2 hlt))
    exact ⟨hmarked, h.dayAt?_eq hnot (hmarked ▸ h.fresh hnot)⟩

end Timely

lemma asksOf_depart {t : Traffic} (hposts : t.Posts)
    (hcached : ∀ entry ∈ t.cached, t.front.dayAt? entry.2 = some t.today) (c : Caller) :
    (c.depart t t.today).AsksOf t.nextTicket t.today := by
  unfold Caller.depart
  split
  · exact .done hposts _
  · exact .route hposts hcached c.actor c.ps

/-! ### Every query -/

/-- **Answered on its day**: when the clock is never set back, then in every schedule the marker and the days of
the cached shards lie behind the clock whenever a query goes its way. Unless another query has moved the marker
first, the marker has come to the day that the query found at its check, and shows what the clock shows if that
is still this day. A shard of an earlier day is cached only while another query is due to drop it. If nobody is
due, and the clock still shows the day, then every cached shard was built for it and the query keeps it: the
mailboxes that it waits for and what it posts to be merged are of that day, however late it comes to its answer.
A query that begins in one go while nobody is due to drop shards finds the marker and every cached shard at the
day of the clock and keeps it, and nobody ever is due if all requests begin so. -/
theorem answered_on_its_day (source : Source) (today : Date) (limits : PageLimits) (es : List Event)
    (hforward : Forward today es) :
    let o := (start source today limits).run es
    let t := o.traffic
    (∀ i c day lost, o.callers[i]? = some c → c.stage = .leave day lost →
      day ≤ t.today ∧ t.validFor ≤ t.today ∧
      (∀ key box, t.boxOf? key = some box →
        ∃ built, t.Behind box built ∧ built ≤ t.today ∧ (built < day → Due o.callers)) ∧
      (lost = false → day ≤ t.validFor ∧ (t.today = day → t.validFor = t.today)) ∧
      (t.today = day → ¬Due o.callers → t.AllOf t.today ∧
        ∀ es', ((o.step (.go i)).run es').traffic.AnsweredOf t.nextTicket t.today)) ∧
    (¬Due o.callers → ∀ actor ps,
      t.rollOver.validFor = t.today ∧ t.rollOver.AllOf t.today ∧
      ∀ es', ((o.step (.happen (.request (.query actor ps)))).run es').traffic.AnsweredOf
        t.nextTicket t.today) ∧
    ((∀ e ∈ es, ∃ h, e = .happen h) → ¬Due o.callers) := by
  intro o t
  have htimely : Timely t.front o.callers := timely_run timely_start hforward
  have hdated : t.Dated := dated_run dated_start es
  have hposts : t.Posts := posts_run (fun job hjob => absurd hjob List.not_mem_nil) es
  refine ⟨fun i c day lost hi hstage => ?_, fun hnot actor ps => ?_, fun hes => ?_⟩
  · have hholds := htimely.callers c (List.mem_of_getElem? hi)
    rw [hstage] at hholds
    obtain ⟨hday, hwon, hsince⟩ := hholds
    refine ⟨hday, htimely.marker, fun key box hbox => ?_, ?_, ?_⟩
    · obtain ⟨built, hbuilt, hle⟩ := htimely.dayAt?_le hsince (Traffic.mem_cached_of_boxOf? hbox)
      exact ⟨built, hdated.behind hbuilt, hle⟩
    · refine fun hlost => ⟨hwon hlost, ?_⟩
      rintro rfl
      exact Std.le_antisymm htimely.marker (hwon hlost)
    · rintro rfl hnot
      have hcached := htimely.dayAt?_eq hnot (hsince hnot)
      refine ⟨hdated.allOf hcached, answeredOf_run ?_ (dated_step hdated _)⟩
      have hnext : (c.next t).1 = c.depart t t.today := by simp only [Caller.next, hstage]
      rw [step_go hi]
      exact hnext ▸ asksOf_depart hposts hcached c
  · obtain ⟨hmarked, hcached⟩ := htimely.rollOver hnot
    rw [← Traffic.front_rollOver] at hmarked hcached
    exact ⟨hmarked, hdated.rollOver.allOf hcached,
      answeredOf_run (.startQuery hposts hcached actor ps) (dated_step hdated _)⟩
  · have hnone : o.callers = [] := callers_run hes
    rintro ⟨c, hc, -⟩
    rw [hnone] at hc
    cases hc

def ana : Actor := ⟨"ana", .ofList [Index.cedar, Router.maple]⟩

def dayOne : Date := ⟨2026, 4, 1, by decide⟩

def dayTwo : Date := ⟨2026, 4, 2, by decide⟩

def dayThree : Date := ⟨2026, 4, 3, by decide⟩

/-- One of the two shards has been asked for on the first day, before the second comes. -/
def overnight : List Event :=
  [.happen (.request (.query ana [.inShard Index.cedar])), .happen (.tick dayTwo)]

/-- Two queries read the marker. The one that moves it drops the shards and has the one it asks for opened anew
before the other, which has lost, passes its check. -/
def besides : List Event :=
  overnight ++ [.arrive ana [.inShard Index.cedar], .arrive ana [], .go 0, .go 0, .go 1, .go 1, .go 0, .go 0,
    .go 0, .go 0, .go 1, .go 1]

theorem answered_on_its_day_besides :
    let o := (start {} dayOne default).run besides
    Forward dayOne besides ∧ o.callers.map (·.stage) = [.gone, .leave dayTwo true] ∧ ¬Due o.callers ∧
      o.traffic.boxOf? Index.cedar = some 1 ∧ o.traffic.AllOf dayTwo ∧
      ∀ es, ((o.step (.go 1)).run es).traffic.AnsweredOf 2 dayTwo := by
  have hforward : Forward dayOne besides := by decide
  have hcallers : ((start {} dayOne default).run besides).callers =
      [⟨ana, [.inShard Index.cedar], .gone⟩, ⟨ana, [], .leave dayTwo true⟩] := rfl
  have hdue : ¬Due ((start {} dayOne default).run besides).callers := by
    rintro ⟨c, hc, day, hday⟩
    rw [hcallers] at hc
    rcases List.mem_pair.1 hc with rfl | rfl <;> cases hday
  obtain ⟨hleave, -, -⟩ := answered_on_its_day {} dayOne default besides hforward
  obtain ⟨-, -, -, -, hkept⟩ := hleave 1 _ dayTwo true (by rw [hcallers]; rfl) rfl
  obtain ⟨hall, hanswered⟩ := hkept rfl hdue
  exact ⟨hforward, rfl, hdue, rfl, hall, hanswered⟩

/-! ### Where days come apart -/

/-- Before the query that has moved the marker drops the shards, another one passes its check. -/
def racing : List Event :=
  overnight ++ [.arrive ana [], .go 0, .go 0, .go 0, .arrive ana [], .go 1, .go 1, .go 1]

/-- The clock goes on after a query has passed its check. -/
def lingering : List Event :=
  [.arrive ana [.inShard Index.cedar], .go 0, .go 0, .go 0, .happen (.tick dayTwo)]

/-- A query of the third day finds that one of the second has moved the marker before it. -/
def overtaken : List Event :=
  [.happen (.tick dayTwo), .arrive ana [], .go 0, .go 0, .happen (.tick dayThree), .arrive ana [], .go 1, .go 1,
    .go 0, .go 0, .go 1, .go 1]

/-- Of queries that begin side by side one can be merged on the day after the one that its shard was built for,
one can have a shard opened for a day that the marker does not show, and one can go its way while the marker lies
behind the clock. -/
theorem not_always_on_its_day :
    (Forward dayOne racing ∧
      let o := (start {} dayOne default).run racing
      o.callers[1]? = some ⟨ana, [], .leave dayTwo false⟩ ∧ o.traffic.today = dayTwo ∧
        o.traffic.validFor = dayTwo ∧ o.traffic.boxOf? Index.cedar = some 0 ∧ o.traffic.Behind 0 dayOne ∧
        ¬o.traffic.AllOf dayTwo ∧ (o.step (.go 1)).traffic.calls[1]? =
          some (.parts [⟨Index.cedar, 0⟩] (.single Router.maple) (.ofPredicates default []) dayTwo)) ∧
    (Forward dayOne lingering ∧
      let o := (start {} dayOne default).run lingering
      o.callers[0]? = some ⟨ana, [.inShard Index.cedar], .leave dayOne false⟩ ∧ o.traffic.today = dayTwo ∧
        o.traffic.validFor = dayOne ∧ (o.step (.go 0)).traffic.validFor = dayOne ∧
        (o.step (.go 0)).traffic.Behind 0 dayTwo) ∧
    Forward dayOne overtaken ∧
      let o := (start {} dayOne default).run overtaken
      o.callers[1]? = some ⟨ana, [], .leave dayThree true⟩ ∧ o.traffic.today = dayThree ∧
        o.traffic.validFor = dayTwo := by
  have hdated : ∀ es, ((start {} dayOne default).run es).traffic.Dated := dated_run dated_start
  have hold : ((start {} dayOne default).run racing).traffic.Behind 0 dayOne := (hdated _).behind rfl
  have hnew : (((start {} dayOne default).run lingering).step (.go 0)).traffic.Behind 0 dayTwo :=
    (dated_step (hdated _) _).behind rfl
  refine ⟨⟨by decide, rfl, rfl, rfl, rfl, hold, fun hall => ?_, rfl⟩, ⟨by decide, rfl, rfl, rfl, rfl, hnew⟩,
    by decide, rfl, rfl, rfl⟩
  obtain ⟨m, hm, hbuilt⟩ := hold
  obtain ⟨m', hm', hbuilt'⟩ := hall Index.cedar 0 rfl
  obtain rfl := Option.some.inj (hm.symm.trans hm')
  have hsame : dayOne = dayTwo := hbuilt.today.symm.trans hbuilt'.today
  exact absurd hsame (by decide)

end Overlap

end TaskIndex
