import Mathlib.Data.List.Perm.Basic
import TaskIndex.Index.Lookup
import TaskIndex.Proofs.Index.Plan
import TaskIndex.Proofs.Index.Rebuild

/-!
The planned lookup against the plain scan.

What is walked for a predicate is never tested on the tasks again, so the ids behind a predicate must be
those of exactly the tasks that it lets through, for every property and every kind of operand. Given
that, whichever walk the planner picks, it gives back what testing every task would.
-/

namespace TaskIndex

namespace Index

/-- The slots are in order, and every bucket of an indexed facet holds the ids of the stored tasks that
carry the facet, each once, and knows how many they are. -/
structure Exact (idx : Index) : Prop where
  placed : idx.Placed
  holds : ∀ f, f.isIndexed = true → ∀ id, id ∈ idx.bucket f ↔
    ∃ t, idx.get? id = some t ∧ f ∈ t.facets idx.today
  once : ∀ f, f.isIndexed = true → (idx.bucket f).toList.Nodup
  counted : ∀ f, f.isIndexed = true → (idx.bucket f).size = (idx.bucket f).toList.length

variable {idx : Index} {p : Predicate} {ps : List Predicate} {probe : Probe} {t : Task}

lemma Sound.exact (h : idx.Sound) (hf : idx.Faithful) : idx.Exact where
  placed := h.placed
  holds f _ := hf f
  once f _ := (h.bucket f).nodup
  counted f _ := (h.bucket f).live

/-! ### What stands behind a predicate -/

/-- The probe leads to the ids of the tasks that satisfy a condition, each once. -/
def LeadsTo (idx : Index) (probe : Probe) (condition : Task → Prop) : Prop :=
  probe.ids.Nodup ∧ ∀ id, id ∈ probe.ids ↔ ∃ t, idx.get? id = some t ∧ condition t

lemma ofNumber?_eq_some_iff {n : Int64} {id : TaskId} :
    TaskId.ofNumber? n = some id ↔ (id.toNat : Int) = n.toInt := by
  have hlow : 0 ≤ n ↔ 0 ≤ n.toInt := Int64.le_iff_toInt_le
  have hhigh : n < 65536 ↔ n.toInt < 65536 := Int64.lt_iff_toInt_lt
  have hlt := id.toNat_lt
  unfold TaskId.ofNumber?
  simp only [hlow, hhigh]
  split
  · next h =>
    have hnat : (UInt16.ofNat n.toInt.toNat).toNat = n.toInt.toNat :=
      UInt16.toNat_ofNat_of_lt' (by rw [UInt16.size]; omega)
    rw [Option.some.injEq, ← UInt16.toNat_inj, hnat]
    omega
  · next h => exact ⟨fun h' => (by cases h'), fun h' => absurd ⟨by omega, by omega⟩ h⟩

lemma Placed.leadsTo_slot (h : idx.Placed) {n : Int64} (hp : idx.probe? .id (.number n) = some probe) :
    idx.LeadsTo probe fun t => (t.field idx.today .id).equals (.number n) = true := by
  -- a stored task whose id is the number stands in the slot of the number
  have hslot : ∀ id t, idx.get? id = some t →
      ((t.field idx.today .id).equals (.number n) = true ↔ TaskId.ofNumber? n = some id) := by
    intro id t ht
    rw [Task.field, Field.equals_number, h.id_eq ht, ofNumber?_eq_some_iff]
  simp only [probe?] at hp
  split at hp
  · next id hid =>
    obtain rfl := Option.some.inj hp
    obtain ⟨hnumber, hstored⟩ := Option.filter_eq_some_iff.1 hid
    obtain ⟨t, ht⟩ := Option.isSome_iff_exists.1 hstored
    refine ⟨List.nodup_singleton id, fun x => ?_⟩
    rw [Probe.ids, List.mem_singleton]
    constructor
    · rintro rfl
      exact ⟨t, ht, (hslot x t ht).2 hnumber⟩
    · rintro ⟨u, hu, hequal⟩
      exact Option.some.inj (((hslot x u hu).1 hequal).symm.trans hnumber)
  · next hnone =>
    obtain rfl := Option.some.inj hp
    refine ⟨List.nodup_nil, fun x => ⟨fun hx => absurd hx List.not_mem_nil, ?_⟩⟩
    rintro ⟨u, hu, hequal⟩
    have := Option.filter_eq_none_iff.1 hnone x ((hslot x u hu).1 hequal)
    simp [hu] at this

lemma Exact.leadsTo_bucket (h : idx.Exact) {f : Facet} (hf : f.isIndexed = true) :
    idx.LeadsTo (if (idx.bucket f).isEmpty then .empty else .bucket (idx.bucket f))
      fun t => (t.field idx.today f.property).equals f.operand = true := by
  have hcarried : ∀ t : Task, f ∈ t.facets idx.today ↔
      (t.field idx.today f.property).equals f.operand = true := fun t => by
    rw [Facet.mem_facets, hf]
    simp
  have hids : (if (idx.bucket f).isEmpty then Probe.empty else .bucket (idx.bucket f)).ids =
      (idx.bucket f).toList := by
    split
    · next hempty =>
      have hsize : (idx.bucket f).size = 0 := by simpa [IdSet.isEmpty, IdSet.size] using hempty
      rw [h.counted f hf] at hsize
      exact (List.eq_nil_of_length_eq_zero hsize).symm
    · rfl
  refine ⟨by rw [hids]; exact h.once f hf, fun id => ?_⟩
  rw [hids, ← IdSet.mem_def, h.holds f hf id]
  simp only [hcarried]

lemma matches_iff_of_equalityOperand? {operand : Operand} (hfilter : p.property.isFilter = true)
    (hoperand : p.equalityOperand? = some operand) (t : Task) (today : Date) :
    p.Matches t today = true ↔ (t.field today p.property).equals operand = true := by
  unfold Predicate.equalityOperand? at hoperand
  split at hoperand
  · next hoperator hoperands =>
    obtain rfl := Option.some.inj hoperand
    simp [Predicate.Matches, hfilter, hoperator, hoperands]
  · cases hoperand

/-- **Walked or tested**: what stands behind an indexed equality are the ids of exactly the tasks that
the predicate lets through. -/
theorem Exact.leadsTo_matches (h : idx.Exact) (hp : idx.probeOf? p = some probe) :
    idx.LeadsTo probe fun t => p.Matches t idx.today = true := by
  unfold probeOf? at hp
  split at hp
  case isFalse => cases hp
  next hfilter =>
  obtain ⟨operand, hoperand, hprobe⟩ := Option.bind_eq_some_iff.1 hp
  simp only [matches_iff_of_equalityOperand? hfilter hoperand]
  unfold probe? at hprobe
  split at hprobe
  · next n hproperty =>
    rw [hproperty]
    exact h.placed.leadsTo_slot hprobe
  · dsimp only at hprobe
    split at hprobe
    · next hf =>
      obtain rfl := Option.some.inj hprobe
      exact h.leadsTo_bucket hf
    · cases hprobe

/-! ### What the planner may decide -/

/-- The plans that are right for a query. -/
inductive Plans (idx : Index) (ps : List Predicate) : Plan → Prop where
  | everything (h : ∀ p ∈ ps, p.property.isFilter = false) : Plans idx ps .everything
  | fullScan : Plans idx ps .fullScan
  | nothing (p : Predicate) (hp : p ∈ ps) (h : idx.probeOf? p = some .empty) : Plans idx ps .nothing
  | walk (probe : Probe) (position : Nat) (p : Predicate) (hp : ps[position]? = some p)
      (h : idx.probeOf? p = some probe) : Plans idx ps (.walk probe position)

def Stands (idx : Index) (ps : List Predicate) (c : Plan.Candidate) : Prop :=
  ∃ p, ps[c.position]? = some p ∧ idx.probeOf? p = some c.probe

lemma Offers.stands {c : Plan.Candidate} (h : idx.Offers ps c) : idx.Stands ps c := by
  obtain ⟨p, hp, hprobe, -⟩ := offers_iff.1 h
  exact ⟨p, hp, hprobe⟩

lemma plans (idx : Index) (ps : List Predicate) : Plans idx ps (Plan.of idx ps) := by
  rcases plan_cases idx ps with ⟨heverything, hnone⟩ | ⟨-, hdecides⟩
  · rw [heverything]
    exact .everything hnone
  · generalize Plan.of idx ps = plan at hdecides
    cases hdecides with
    | nothing c hc hempty =>
      obtain ⟨p, hp, hprobe⟩ := hc.stands
      exact .nothing p (List.mem_of_getElem? hp) (hempty ▸ hprobe)
    | fullScan => exact .fullScan
    | walk c hbest =>
      obtain ⟨p, hp, hprobe⟩ := hbest.offered.stands
      exact .walk c.probe c.position p hp hprobe

/-! ### The answer -/

/-- Walking what stands behind a predicate and testing the others gives every match once. -/
lemma Exact.walk_perm (h : idx.Exact) {position : Nat} (hp : ps[position]? = some p)
    (hprobe : idx.probeOf? p = some probe) :
    ((probe.ids.filterMap idx.get?).filter (idx.passes (ps.eraseIdx position))).Perm
      (idx.tasks.filter (idx.passes ps)) := by
  obtain ⟨hnodup, hids⟩ := h.leadsTo_matches hprobe
  have hpasses : ∀ t, idx.passes ps t = (p.Matches t idx.today && idx.passes (ps.eraseIdx position) t) := by
    intro t
    obtain ⟨hlt, rfl⟩ := List.getElem?_eq_some_iff.1 hp
    simp only [passes]
    exact (List.getElem_cons_eraseIdx_perm hlt).symm.all_eq
  have hwalked : (probe.ids.filterMap idx.get?).Nodup := by
    refine hnodup.filterMap fun a b t ha hb => ?_
    rw [← h.placed.id_eq ha, ← h.placed.id_eq hb]
  refine (List.perm_ext_iff_of_nodup (hwalked.filter _) (h.placed.tasks_nodup.filter _)).2 fun t => ?_
  simp only [List.mem_filter, List.mem_filterMap, hpasses, Bool.and_eq_true]
  constructor
  · rintro ⟨⟨id, hid, ht⟩, hrest⟩
    obtain ⟨u, hu, hmatches⟩ := (hids id).1 hid
    obtain rfl : t = u := Option.some.inj (ht.symm.trans hu)
    exact ⟨h.placed.mem_tasks_of_get? ht, hmatches, hrest⟩
  · rintro ⟨ht, hmatches, hrest⟩
    have hget := h.placed.mem_tasks.1 ht
    exact ⟨⟨t.id, (hids t.id).2 ⟨t, hget, hmatches⟩, hget⟩, hrest⟩

/-- The planned lookup gives what testing every predicate on every task gives. -/
lemma Exact.filter_perm (h : idx.Exact) (ps : List Predicate) :
    (idx.filter ps).Perm (idx.tasks.filter (idx.passes ps)) := by
  have hplan := plans idx ps
  unfold filter
  generalize Plan.of idx ps = plan at hplan ⊢
  cases hplan with
  | everything hnone =>
    have hall : ∀ t ∈ idx.tasks, idx.passes ps t = true := fun t _ =>
      List.all_eq_true.2 fun p hp => by simp [Predicate.Matches, hnone p hp]
    rw [List.filter_eq_self.2 hall]
  | fullScan => exact .refl _
  | nothing p hp hempty =>
    have hnone : ∀ t ∈ idx.tasks, ¬idx.passes ps t = true := by
      intro t ht hpasses
      have hmatches := List.all_eq_true.1 hpasses p hp
      have := ((h.leadsTo_matches hempty).2 t.id).2 ⟨t, h.placed.mem_tasks.1 ht, hmatches⟩
      exact List.not_mem_nil this
    rw [List.filter_eq_nil_iff.2 hnone]
  | walk probe position p hp hprobe => exact h.walk_perm hp hprobe

/-- **Planned as scanned**: on an exact index the lookup gives back, each once, the stored tasks that
every predicate lets through on the day of the index. So it does not matter which predicate is walked,
in which order the predicates come, or how the index came to hold the tasks that it holds. -/
theorem filter_eq_scan (idx : Index) (h : idx.Exact) (ps : List Predicate) :
    (idx.filter ps).Nodup ∧
    (∀ t, t ∈ idx.filter ps ↔ t ∈ idx.tasks ∧ ∀ p ∈ ps, p.Matches t idx.today = true) ∧
    (∀ position p probe, ps[position]? = some p → idx.probeOf? p = some probe →
      ((probe.ids.filterMap idx.get?).filter (idx.passes (ps.eraseIdx position))).Perm
        (idx.filter ps)) ∧
    ∀ (other : Index) (qs : List Predicate), other.Exact → other.today = idx.today →
      (∀ id, other.get? id = idx.get? id) → qs.Perm ps → (other.filter qs).Perm (idx.filter ps) := by
  refine ⟨?_, fun t => ?_, fun position p probe hp hprobe => ?_, fun other qs h' htoday hget hps => ?_⟩
  · exact (h.filter_perm ps).nodup_iff.2 (h.placed.tasks_nodup.filter _)
  · rw [(h.filter_perm ps).mem_iff, List.mem_filter, passes, List.all_eq_true]
  · exact (h.walk_perm hp hprobe).trans (h.filter_perm ps).symm
  · have hpasses : other.passes qs = idx.passes ps := by
      funext t
      rw [passes, htoday]
      exact hps.all_eq
    refine (h'.filter_perm qs).trans (.trans (.of_eq ?_) (h.filter_perm ps).symm)
    rw [hpasses, h'.placed.tasks_eq h.placed hget]

/-- A repeated equality finds the one of two tasks that has the value, in either order of the predicates. -/
theorem filter_eq_scan_repeated :
    let today : Date := ⟨2026, 3, 1, by decide⟩
    let plain := Task.fresh cedar 7 today
    let filed := { Task.fresh cedar 8 today with area := "lexer" }
    let idx := load cedar today [plain, filed]
    let ps := [Predicate.equals .area (.text "lexer"), .equals .status (.status .unsolved),
      .equals .area (.text "lexer")]
    idx.Exact ∧ (idx.filter ps).Nodup ∧ (∀ t, t ∈ idx.filter ps ↔ t = filed) ∧
      (idx.filter ps.reverse).Perm (idx.filter ps) := by
  intro today plain filed idx ps
  have hsound : idx.Sound := sound_load cedar today _
  have h : idx.Exact := hsound.exact (faithful_load cedar today _)
  have hstored : ∀ t ∈ idx.tasks, t = plain ∨ t = filed := by
    intro t ht
    rw [hsound.placed.mem_tasks, get?_load] at ht
    exact List.mem_pair.1 (List.mem_of_find?_eq_some ht)
  have hfiled : filed ∈ idx.tasks := by
    rw [hsound.placed.mem_tasks, get?_load]
    rfl
  obtain ⟨hnodup, hmem, -, hsame⟩ := filter_eq_scan idx h ps
  rw [show idx.today = today from today_load cedar today _] at hmem
  refine ⟨h, hnodup, fun t => ?_, hsame idx ps.reverse h rfl (fun _ => rfl) ps.reverse_perm⟩
  rw [hmem]
  constructor
  · rintro ⟨ht, hmatches⟩
    refine (hstored t ht).resolve_left ?_
    rintro rfl
    exact absurd (hmatches _ List.mem_cons_self) (by decide)
  · rintro rfl
    exact ⟨hfiled, by decide⟩

/-! ### Without exactness -/

/-- A bucket stands only behind an indexed equality with one operand, and is that of its facet. -/
lemma eq_bucket_of_probeOf? {ids : IdSet} (hp : idx.probeOf? p = some (.bucket ids)) :
    ∃ operand, p.property.isFilter = true ∧ p.equalityOperand? = some operand ∧
      Facet.isIndexed ⟨p.property, operand⟩ = true ∧ ids = idx.bucket ⟨p.property, operand⟩ := by
  unfold probeOf? at hp
  split at hp
  · next hfilter =>
    obtain ⟨operand, hoperand, hprobe⟩ := Option.bind_eq_some_iff.1 hp
    refine ⟨operand, hfilter, hoperand, ?_⟩
    unfold probe? at hprobe
    split at hprobe
    · split at hprobe <;> cases hprobe
    · dsimp only at hprobe
      split at hprobe
      · next hindexed =>
        have heq := Option.some.inj hprobe
        split at heq
        · cases heq
        · exact ⟨hindexed, (Probe.bucket.inj heq).symm⟩
      · cases hprobe
  · cases hp

/-- Even a lookup on wrong buckets gives back stored tasks only, each once. -/
lemma Sound.filter_stored (h : idx.Sound) (ps : List Predicate) :
    (idx.filter ps).Nodup ∧ ∀ t ∈ idx.filter ps, idx.get? t.id = some t := by
  have hstored : ∀ t ∈ idx.tasks, idx.get? t.id = some t := fun t => h.placed.mem_tasks.1
  have hplan := plans idx ps
  unfold filter
  generalize Plan.of idx ps = plan at hplan ⊢
  cases hplan with
  | everything => exact ⟨h.placed.tasks_nodup, hstored⟩
  | fullScan =>
    exact ⟨h.placed.tasks_nodup.filter _, fun t ht => hstored t (List.mem_filter.1 ht).1⟩
  | nothing => exact ⟨List.nodup_nil, fun t ht => absurd ht List.not_mem_nil⟩
  | walk probe position p hp hprobe =>
    have hids : probe.ids.Nodup := by
      cases probe with
      | empty => exact List.nodup_nil
      | single id => exact List.nodup_singleton id
      | bucket ids =>
        obtain ⟨operand, -, -, -, rfl⟩ := eq_bucket_of_probeOf? hprobe
        exact (h.bucket _).nodup
    constructor
    · refine (hids.filterMap fun a b t ha hb => ?_).filter _
      rw [← h.placed.id_eq ha, ← h.placed.id_eq hb]
    · intro t ht
      obtain ⟨id, -, hid⟩ := List.mem_filterMap.1 (List.mem_filter.1 ht).1
      rw [h.placed.id_eq hid, hid]

end Index

end TaskIndex
