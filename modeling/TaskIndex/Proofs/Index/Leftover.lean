import Mathlib.Data.List.Induction
import TaskIndex.Proofs.Index.Filter
import TaskIndex.Proofs.Query.Order

/-!
What wrong tags can do to an answer.

A change is applied whatever its tags say, and only what a tag speaks of is moved. So an id can be left
behind a facet that its task no longer carries: a change took the facet away and no tag of that change, nor
of any later one, has spoken of it. The bucket that a lookup walks is not tested again, and this is the
one way in which a task that fails a predicate can come into an answer.
-/

namespace TaskIndex.Index

variable {idx : Index} {e : ChangeEntry} {es fs : List ChangeEntry} {f : Facet} {id : TaskId} {t : Task}
  {p : Predicate} {ps : List Predicate}

/-! ### Changes that leave an id behind -/

/-- The entry is news about the task that the index holds in the state `before`. -/
def IsNews (idx : Index) (before : Task) (e : ChangeEntry) : Prop :=
  idx.Belongs e.after ∧ idx.get? e.after.id = some before ∧ before.revision < e.after.revision

def Mentions (idx : Index) (e : ChangeEntry) (f : Facet) : Prop :=
  ∃ before, idx.IsNews before e ∧ Move.Speaks f (movesOf idx.today before e)

/-- The entry is news about a known task and takes the facet away from it, and none of its tags speaks
of the facet. -/
def Forgets (idx : Index) (e : ChangeEntry) (f : Facet) : Prop :=
  ∃ before, idx.IsNews before e ∧ f ∈ before.facets idx.today ∧ f ∉ e.after.facets idx.today ∧
    ¬Move.Speaks f (movesOf idx.today before e)

/-- No entry about the id, when its turn comes, speaks of the facet. -/
def SilentRun (idx : Index) (f : Facet) (id : TaskId) : List ChangeEntry → Prop
  | [] => True
  | e :: es => (e.after.id = id → ¬idx.Mentions e f) ∧ SilentRun (idx.applyEntry e).1 f id es

/-- One of the entries takes the facet away from the task of the id without speaking of it, and no later
one speaks of it. -/
def LeftBehind (idx : Index) (f : Facet) (id : TaskId) (es : List ChangeEntry) : Prop :=
  ∃ earlier e later, es = earlier ++ e :: later ∧ e.after.id = id ∧ (idx.absorb earlier).Forgets e f ∧
    ((idx.absorb earlier).applyEntry e).1.SilentRun f id later

def Carries (idx : Index) (f : Facet) (id : TaskId) : Prop :=
  ∃ t, idx.get? id = some t ∧ f ∈ t.facets idx.today

lemma not_isNews_of_le {before : Task} (hget : idx.get? e.after.id = some before)
    (hrev : e.after.revision ≤ before.revision) (u : Task) : ¬idx.IsNews u e := by
  rintro ⟨-, hu, hlt⟩
  obtain rfl : before = u := Option.some.inj (hget.symm.trans hu)
  exact UInt64.not_le.2 hlt hrev

lemma IsNews.applyEntry {before : Task} (h : idx.IsNews before e) :
    idx.applyEntry e = (idx.change before e, .applied) := by
  obtain ⟨hb, hget, hrev⟩ := h
  generalize heq : idx.applyEntry e = result
  cases applies heq with
  | foreign hforeign => exact absurd hb hforeign
  | gone _ hfree | new _ hfree =>
    rw [hget] at hfree
    cases hfree
  | stale u _ hu hle => exact absurd ⟨hb, hget, hrev⟩ (not_isNews_of_le hu hle before)
  | news u _ hu =>
    obtain rfl : before = u := Option.some.inj (hget.symm.trans hu)
    rfl

lemma SilentRun.snoc (h : idx.SilentRun f id es) (he : e.after.id = id → ¬(idx.absorb es).Mentions e f) :
    idx.SilentRun f id (es ++ [e]) := by
  induction es generalizing idx with
  | nil => exact ⟨he, trivial⟩
  | cons e' es ih => exact ⟨h.1, ih h.2 he⟩

lemma LeftBehind.snoc (h : idx.LeftBehind f id es)
    (he : e.after.id = id → ¬(idx.absorb es).Mentions e f) : idx.LeftBehind f id (es ++ [e]) := by
  obtain ⟨earlier, e', later, rfl, hid, hforgets, hsilent⟩ := h
  refine ⟨earlier, e', later ++ [e], by simp, hid, hforgets, hsilent.snoc ?_⟩
  rwa [absorb_append, absorb_cons] at he

/-- After an entry an id stands behind a facet because its task carries it, because the entry has just
left the id behind, or because the id stood there before without its task carrying the facet. -/
lemma Sound.mem_applyEntry (h : idx.Sound) (hmem : id ∈ (idx.applyEntry e).1.bucket f) :
    (idx.applyEntry e).1.Carries f id ∨ (e.after.id = id ∧ idx.Forgets e f) ∨
      (id ∈ idx.bucket f ∧ ¬idx.Carries f id ∧ (e.after.id = id → ¬idx.Mentions e f)) := by
  by_cases hcarried : idx.Carries f id ∧ (idx.applyEntry e).1.get? id = idx.get? id
  · obtain ⟨⟨t, ht, hf⟩, hsame⟩ := hcarried
    exact .inl ⟨t, hsame.trans ht, by rwa [today_applyEntry]⟩
  generalize heq : idx.applyEntry e = result at hmem hcarried ⊢
  cases applies heq with
  | foreign hforeign =>
    refine .inr (.inr ⟨hmem, fun hc => hcarried ⟨hc, rfl⟩, ?_⟩)
    rintro - ⟨before, ⟨hb, -⟩, -⟩
    exact hforeign hb
  | gone _ hfree =>
    refine .inr (.inr ⟨hmem, fun hc => hcarried ⟨hc, rfl⟩, ?_⟩)
    rintro - ⟨before, ⟨-, hget, -⟩, -⟩
    rw [hfree] at hget
    cases hget
  | stale before _ hget hrev =>
    refine .inr (.inr ⟨hmem, fun hc => hcarried ⟨hc, rfl⟩, ?_⟩)
    rintro - ⟨u, hnews, -⟩
    exact not_isNews_of_le hget hrev u hnews
  | new hb hfree =>
    rcases ((h.bucket_insertNew hb hfree f).2 id).1 hmem with hold | ⟨rfl, hf⟩
    · have hid : id ≠ e.after.id := by
        rintro rfl
        exact h.not_mem_of_free hfree hold
      refine .inr (.inr ⟨hold, fun hc => hcarried ⟨hc, by rw [get?_insertNew, if_neg hid]⟩, ?_⟩)
      exact fun hid' => absurd hid'.symm hid
    · exact .inl ⟨e.after, by rw [get?_insertNew, if_pos rfl], by rwa [today_insertNew]⟩
  | news before hb hget hrev =>
    have hcases := ((h.bucket_change hb before f).2 id).1 hmem
    by_cases hid : id = e.after.id
    · subst hid
      rw [if_pos rfl] at hcases
      by_cases hafter : f ∈ e.after.facets idx.today
      · exact .inl ⟨e.after, by rw [get?_change, if_pos rfl], by rwa [today_change]⟩
      cases hout : Move.outcome? f (movesOf idx.today before e) with
      | some b =>
        -- a move has put the id behind the facet, so the new task carries it
        rw [hout, Option.elim_some] at hcases
        exact absurd ((settle_flatMap idx.today before e.after e.operations f b hout).1 hcases) hafter
      | none =>
        have hsilent : ¬Move.Speaks f (movesOf idx.today before e) := fun hspeaks => by
          have hsome := Move.outcome?_isSome_of_speaks hspeaks
          rw [hout] at hsome
          cases hsome
        rw [hout, Option.elim_none] at hcases
        by_cases hbefore : f ∈ before.facets idx.today
        · exact .inr (.inl ⟨rfl, before, ⟨hb, hget, hrev⟩, hbefore, hafter, hsilent⟩)
        · refine .inr (.inr ⟨hcases, ?_, ?_⟩)
          · rintro ⟨u, hu, hf⟩
            obtain rfl : before = u := Option.some.inj (hget.symm.trans hu)
            exact hbefore hf
          · rintro - ⟨u, ⟨-, hu, -⟩, hspeaks⟩
            obtain rfl : before = u := Option.some.inj (hget.symm.trans hu)
            exact hsilent hspeaks
    · rw [if_neg hid] at hcases
      refine .inr (.inr ⟨hcases, fun hc => hcarried ⟨hc, by rw [get?_change, if_neg hid]⟩, ?_⟩)
      exact fun hid' => absurd hid'.symm hid

/-- **Carried or left behind**: whatever entries an index was shown, an id stands behind a facet only if
its task carries it or the entries have left it behind. -/
theorem mem_bucket_absorb (h : idx.Sound) (hf : idx.Faithful) (es : List ChangeEntry)
    (hmem : id ∈ (idx.absorb es).bucket f) :
    (idx.absorb es).Carries f id ∨ idx.LeftBehind f id es := by
  induction es using List.reverseRecOn with
  | nil => exact .inl ((hf f id).1 hmem)
  | append_singleton es e ih =>
    rw [absorb_append, absorb_cons, absorb_nil] at hmem ⊢
    rcases (h.absorb es).mem_applyEntry hmem with hcarries | ⟨hid, hforgets⟩ | ⟨hold, hnot, hsilent⟩
    · exact .inl hcarries
    · exact .inr ⟨es, e, [], rfl, hid, hforgets, trivial⟩
    · exact .inr (((ih hold).resolve_left hnot).snoc hsilent)

/-! ### What comes into an answer -/

lemma Placed.matches_of_single (h : idx.Placed) (hp : idx.probeOf? p = some (.single id))
    (hget : idx.get? id = some t) : p.Matches t idx.today = true := by
  unfold probeOf? at hp
  split at hp
  case isFalse => cases hp
  next hfilter =>
  obtain ⟨operand, hoperand, hprobe⟩ := Option.bind_eq_some_iff.1 hp
  rw [matches_iff_of_equalityOperand? hfilter hoperand]
  unfold probe? at hprobe
  split at hprobe
  · next n hproperty =>
    obtain ⟨u, hu, hequal⟩ := ((h.leadsTo_slot hprobe).2 id).1 (List.mem_singleton_self id)
    obtain rfl : t = u := Option.some.inj (hget.symm.trans hu)
    rwa [hproperty]
  · dsimp only at hprobe
    split at hprobe
    · have hnone := Option.some.inj hprobe
      split at hnone <;> cases hnone
    · cases hprobe

lemma Carries.matches {operand : Operand} (h : idx.Carries ⟨p.property, operand⟩ id)
    (hget : idx.get? id = some t) (hfilter : p.property.isFilter = true)
    (hoperand : p.equalityOperand? = some operand) : p.Matches t idx.today = true := by
  obtain ⟨u, hu, hf⟩ := h
  obtain rfl : t = u := Option.some.inj (hget.symm.trans hu)
  exact (matches_iff_of_equalityOperand? hfilter hoperand t _).2 (Facet.mem_facets.1 hf).2

/-- A hit satisfies the predicate at every position but the walked one, and there it stands behind the
facet that the predicate asks for. -/
lemma Sound.hit (h : idx.Sound) (ht : t ∈ idx.filter ps) :
    idx.get? t.id = some t ∧ ∀ (i : Nat) p, ps[i]? = some p → p.Matches t idx.today = true ∨
      ∃ ids operand, Plan.of idx ps = .walk (.bucket ids) i ∧ p.property.isFilter = true ∧
        p.equalityOperand? = some operand ∧ t.id ∈ idx.bucket ⟨p.property, operand⟩ := by
  refine ⟨(h.filter_stored ps).2 t ht, fun i p hi => ?_⟩
  have hp : p ∈ ps := List.mem_of_getElem? hi
  have hplan := plans idx ps
  unfold filter at ht
  generalize Plan.of idx ps = plan at hplan ht ⊢
  cases hplan with
  | everything hnone => exact .inl (by simp [Predicate.Matches, hnone p hp])
  | fullScan => exact .inl (List.all_eq_true.1 (List.mem_filter.1 ht).2 p hp)
  | nothing => exact absurd ht List.not_mem_nil
  | walk probe position q hq hprobe =>
    obtain ⟨hwalked, hrest⟩ := List.mem_filter.1 ht
    by_cases hhere : i = position
    · subst hhere
      obtain rfl : p = q := Option.some.inj (hi.symm.trans hq)
      obtain ⟨id, hid, hget⟩ := List.mem_filterMap.1 hwalked
      obtain rfl := h.placed.id_eq hget
      cases probe with
      | empty => exact absurd hid List.not_mem_nil
      | single n =>
        rw [List.mem_singleton.1 hid] at hget
        exact .inl (h.placed.matches_of_single hprobe hget)
      | bucket ids =>
        obtain ⟨operand, hfilter, hoperand, -, rfl⟩ := eq_bucket_of_probeOf? hprobe
        exact .inr ⟨_, operand, rfl, hfilter, hoperand, hid⟩
    · refine .inl (List.all_eq_true.1 hrest p ?_)
      exact List.mem_eraseIdx_iff_getElem?.2 ⟨i, hhere, hi⟩

/-! ### A leftover that is found -/

lemma Sound.mem_bucket_of_unrecognized (h : idx.Sound) (hops : ∀ o ∈ e.operations, o.isUnrecognized = true)
    (hmem : id ∈ idx.bucket f) : id ∈ (idx.applyEntry e).1.bucket f := by
  generalize heq : idx.applyEntry e = result
  cases applies heq with
  | foreign | gone | stale => exact hmem
  | new hb hfree => exact ((h.bucket_insertNew hb hfree f).2 id).2 (.inl hmem)
  | news before hb =>
    have hmoves : movesOf idx.today before e = [] := by
      refine List.flatMap_eq_nil_iff.2 fun o ho => ?_
      cases o with
      | known tag => exact absurd (hops _ ho) Bool.false_ne_true
      | unrecognized => rfl
    refine ((h.bucket_change hb before f).2 id).2 ?_
    rw [hmoves, Move.outcome?_nil, Option.elim_none]
    split
    · next hid => exact hid ▸ hmem
    · exact hmem

lemma Sound.mem_filter_equals (h : idx.Sound) (hf : f.isIndexed = true) (hmem : t.id ∈ idx.bucket f)
    (hget : idx.get? t.id = some t) : t ∈ idx.filter [.equals f.property f.operand] := by
  have hsome : (idx.bucket f).isEmpty = false := (h.bucket f).not_isEmpty_iff.2 ⟨t.id, hmem⟩
  have hfilter : f.property.isFilter = true := by
    cases Facet.family_of_isIndexed hf <;> rfl
  have hid : f.property ≠ .id := by
    cases Facet.family_of_isIndexed hf <;> exact fun hid => nomatch hid
  have hprobe : idx.probe? f.property f.operand = some (.bucket (idx.bucket f)) := by
    unfold probe?
    split
    · next hproperty _ => exact absurd hproperty hid
    · rw [if_pos hf]
      simp only [hsome, Bool.false_eq_true, if_false]
  have hplan : Plan.of idx [.equals f.property f.operand] = .walk (.bucket (idx.bucket f)) 0 := by
    simp [Plan.of, Plan.choose, probeOf?, Predicate.equals, Predicate.equalityOperand?, hfilter, hprobe,
      Plan.Candidate.orBest]
  unfold filter
  rw [hplan]
  exact List.mem_filter.2 ⟨List.mem_filterMap.2 ⟨t.id, hmem, hget⟩, rfl⟩

/-- A task of no area that comes to be of the lexer, by an entry whose only tag nobody knows. -/
def untagged (today : Date) : ChangeEntry :=
  ⟨none, { Task.fresh cedar 6 today with area := "lexer", revision := 2 }, [.ofText "teleported"]⟩

lemma untagged_mem_filter (today : Date) :
    (untagged today).after ∈ ((load cedar today [Task.fresh cedar 6 today]).absorb [untagged today]).filter
      [.equals .area (.text "")] := by
  have hload := sound_load cedar today [Task.fresh cedar 6 today]
  have hget : (load cedar today [Task.fresh cedar 6 today]).get? 6 = some (Task.fresh cedar 6 today) := by
    rw [get?_load]
    rfl
  have hmem : 6 ∈ (load cedar today [Task.fresh cedar 6 today]).bucket (.area "") :=
    (faithful_load cedar today _ _ _).2 ⟨_, hget, Facet.area_mem.2 rfl⟩
  have hnews : (load cedar today [Task.fresh cedar 6 today]).IsNews (Task.fresh cedar 6 today)
      (untagged today) :=
    ⟨⟨(shard_load _ _ _).symm, (by decide : (6 : TaskId) ≠ 0 ∧ 6 ≤ maxTaskId)⟩, hget,
      (by decide : (1 : UInt64) < 2)⟩
  have hops : ∀ o ∈ [Operation.ofText "teleported"], o.isUnrecognized = true := by decide
  refine (hload.absorb [untagged today]).mem_filter_equals (f := .area "") rfl ?_ ?_
  · exact hload.mem_bucket_of_unrecognized hops hmem
  · rw [absorb_cons, hnews.applyEntry, absorb_nil, get?_change, if_pos rfl]

/-! ### Every answer -/

/-- **Every hit matches, leftovers aside**: whatever a scan and any batches have led to, what a lookup
gives back is stored, and it satisfies every predicate of the query on the day of the index, with one
exception. The equality whose bucket was walked is not tested again; a task can fail it that a change
has left behind there, by taking the value away without speaking of it. -/
theorem hit_matches_or_left_behind (shard : ShardKey) (today : Date) (scanned : List Task)
    (batches : List ChangeBatch) (limits : PageLimits) (ps : List Predicate) (t : Task)
    (ht : t ∈ ((load shard today scanned).applyBatches batches).filter ps ∨
      t ∈ (((load shard today scanned).applyBatches batches).lookup limits ps).tasks) :
    let idx := (load shard today scanned).applyBatches batches
    idx.get? t.id = some t ∧
    ∀ (i : Nat) p, ps[i]? = some p → p.Matches t today = true ∨
      ∃ ids operand, Plan.of idx ps = .walk (.bucket ids) i ∧ p.equalityOperand? = some operand ∧
        (load shard today scanned).LeftBehind ⟨p.property, operand⟩ t.id
          (batches.flatMap (·.entries)) := by
  intro idx
  have hidx : idx = (load shard today scanned).absorb (batches.flatMap (·.entries)) :=
    applyBatches_eq _ batches
  have htoday : idx.today = today := by rw [hidx, today_absorb, today_load]
  have hsound : idx.Sound := by
    rw [hidx]
    exact (sound_load shard today scanned).absorb _
  have hhit : t ∈ idx.filter ps := by
    rcases ht with ht | ht
    · exact ht
    · exact Page.mem_of_mem_ofMatches ht
  obtain ⟨hget, hpositions⟩ := hsound.hit hhit
  refine ⟨hget, fun i p hi => ?_⟩
  rcases hpositions i p hi with hmatches | ⟨ids, operand, hwalk, hfilter, hoperand, hmem⟩
  · exact .inl (htoday ▸ hmatches)
  · rw [hidx] at hmem
    rcases mem_bucket_absorb (sound_load shard today scanned) (faithful_load shard today scanned) _
      hmem with hcarries | hleft
    · rw [← hidx] at hcarries
      exact .inl (htoday ▸ hcarries.matches hget hfilter hoperand)
    · exact .inr ⟨ids, operand, hwalk, hoperand, hleft⟩

/-- The task that was moved to the lexer is found as one of no area, because it was left behind there. -/
theorem hit_matches_or_left_behind_untagged :
    let today : Date := ⟨2026, 3, 1, by decide⟩
    let t := Task.fresh cedar 6 today
    let e := untagged today
    let batch : ChangeBatch := ⟨cedar, [e], by simp, by simp [ChangeEntry.shard, e, untagged, Task.fresh]⟩
    let idx := (load cedar today [t]).applyBatches [batch]
    e.after ∈ idx.filter [.equals .area (.text "")] ∧ idx.get? 6 = some e.after ∧
      (load cedar today [t]).LeftBehind (.area "") 6 [e] := by
  intro today t e batch idx
  have hmem : e.after ∈ idx.filter [.equals .area (.text "")] := by
    rw [show idx = (load cedar today [t]).absorb [e] from applyBatches_eq _ _]
    exact untagged_mem_filter today
  obtain ⟨hget, hpositions⟩ := hit_matches_or_left_behind cedar today [t] [batch] ⟨50, none, by simp⟩
    [.equals .area (.text "")] e.after (.inl hmem)
  refine ⟨hmem, hget, ?_⟩
  rcases hpositions 0 _ rfl with hmatches | ⟨ids, operand, -, hoperand, hleft⟩
  · exact absurd hmatches (by decide)
  · obtain rfl := Option.some.inj hoperand
    exact hleft

/-- **Not every hit matches**: there is a scan, a batch and a query with a hit that fails the query. -/
theorem not_forall_hit_matches :
    ¬∀ (shard : ShardKey) (today : Date) (scanned : List Task) (batches : List ChangeBatch)
      (limits : PageLimits) (ps : List Predicate) (t : Task),
      let idx := (load shard today scanned).applyBatches batches
      t ∈ idx.filter ps ∨ t ∈ (idx.lookup limits ps).tasks → ∀ p ∈ ps, p.Matches t today = true := by
  intro h
  let today : Date := ⟨2026, 3, 1, by decide⟩
  let batch : ChangeBatch := ⟨cedar, [untagged today], by simp, by simp [ChangeEntry.shard, untagged, Task.fresh]⟩
  have hidx : (load cedar today [Task.fresh cedar 6 today]).applyBatches [batch] =
      (load cedar today [Task.fresh cedar 6 today]).absorb [untagged today] := applyBatches_eq _ _
  have hmem := untagged_mem_filter today
  rw [← hidx] at hmem
  have hmatches := h cedar today [Task.fresh cedar 6 today] [batch] ⟨50, none, by simp⟩
    [.equals .area (.text "")] (untagged today).after (.inl hmem) _ List.mem_cons_self
  exact absurd hmatches (by decide)

end TaskIndex.Index
