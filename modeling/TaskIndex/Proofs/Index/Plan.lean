import Mathlib.Tactic.Set
import TaskIndex.Index.Plan

/-!
The planner takes the best walk.

What a query offers to walk are its equalities of filters with one operand that is indexed. Of two offers the
one with fewer ids behind it comes first, then the one on the more selective property, then the one that
stands earlier, so that of all offers one comes before the others. The planner reads the query once and keeps
the offer that comes before all others so far; an offer with nothing behind it ends the reading.
-/

namespace TaskIndex

/-- The candidate is worth more than another one of the same query: fewer ids, of as many the more selective
property, and of equally selective ones the earlier position. -/
def Plan.Candidate.Precedes (c other : Plan.Candidate) : Prop :=
  c.probe.size < other.probe.size ∨
    c.probe.size = other.probe.size ∧
      (other.selectivity < c.selectivity ∨
        other.selectivity = c.selectivity ∧ c.position < other.position)

namespace Index

/-- The query has at the candidate's position an equality of a filter with exactly one operand, and the
operand is indexed: what is behind it is what the candidate would walk. -/
def Offers (idx : Index) (ps : List Predicate) (c : Plan.Candidate) : Prop :=
  ∃ p operand, ps[c.position]? = some p ∧ p.property.isFilter = true ∧ p.operator = .eq ∧
    p.operands = [operand] ∧ idx.probe? p.property operand = some c.probe ∧
    c.selectivity = p.property.selectivity

structure Best (idx : Index) (ps : List Predicate) (c : Plan.Candidate) : Prop where
  offered : idx.Offers ps c
  precedes : ∀ other, idx.Offers ps other → other = c ∨ c.Precedes other

variable {idx : Index} {ps seen : List Predicate} {p : Predicate} {c d : Plan.Candidate} {probe : Probe}

/-! ### Offers -/

lemma probeOf?_eq_some_iff : idx.probeOf? p = some probe ↔ ∃ operand, p.property.isFilter = true ∧
    p.operator = .eq ∧ p.operands = [operand] ∧ idx.probe? p.property operand = some probe := by
  obtain ⟨property, operator, operands⟩ := p
  unfold probeOf?
  split
  · next hfilter =>
    rw [Option.bind_eq_some_iff]
    refine exists_congr fun operand => ?_
    cases operator <;> rcases operands with _ | ⟨first, _ | ⟨second, rest⟩⟩ <;>
      simp [Predicate.equalityOperand?, hfilter]
  · next hfilter => simp [hfilter]

lemma offers_iff : idx.Offers ps c ↔ ∃ p, ps[c.position]? = some p ∧ idx.probeOf? p = some c.probe ∧
    c.selectivity = p.property.selectivity := by
  simp only [Offers, probeOf?_eq_some_iff]
  grind

lemma Offers.eq_of_position (hc : idx.Offers ps c) (hd : idx.Offers ps d)
    (h : c.position = d.position) : c = d := by
  obtain ⟨p, hp, hprobe, hselectivity⟩ := offers_iff.1 hc
  obtain ⟨q, hq, hprobe', hselectivity'⟩ := offers_iff.1 hd
  obtain rfl : p = q := Option.some.inj (hp.symm.trans (h ▸ hq))
  obtain ⟨probe, position, selectivity⟩ := c
  obtain ⟨probe', position', selectivity'⟩ := d
  obtain rfl : probe = probe' := Option.some.inj (hprobe.symm.trans hprobe')
  obtain rfl : position = position' := h
  obtain rfl : selectivity = selectivity' := hselectivity.trans hselectivity'.symm
  rfl

lemma Offers.position_lt (h : idx.Offers ps c) : c.position < ps.length := by
  obtain ⟨p, -, hp, -⟩ := h
  exact (List.getElem?_eq_some_iff.1 hp).1

lemma offers_concat : idx.Offers (seen ++ [p]) c ↔ idx.Offers seen c ∨
    c.position = seen.length ∧ idx.probeOf? p = some c.probe ∧ c.selectivity = p.property.selectivity := by
  simp only [offers_iff]
  rcases Nat.lt_trichotomy c.position seen.length with hlt | heq | hgt
  · simp [List.getElem?_append_left hlt, Nat.ne_of_lt hlt]
  · simp [heq]
  · have hfar : (seen ++ [p])[c.position]? = none := by simp; omega
    have hfar' : seen[c.position]? = none := by simp; omega
    simp [hfar, hfar', Nat.ne_of_gt hgt]

/-! ### The best offer -/

lemma Best.unique (hc : idx.Best ps c) (hd : idx.Best ps d) : c = d := by
  rcases hc.precedes d hd.offered with heq | hcd
  · exact heq.symm
  · rcases hd.precedes c hc.offered with heq | hdc
    · exact heq
    · simp only [Plan.Candidate.Precedes] at hcd hdc
      omega

def BestSoFar (idx : Index) (seen : List Predicate) : Option Plan.Candidate → Prop
  | none => ∀ c, ¬idx.Offers seen c
  | some c => idx.Best seen c

lemma BestSoFar.skip {best : Option Plan.Candidate} (h : idx.BestSoFar seen best)
    (hp : idx.probeOf? p = none) : idx.BestSoFar (seen ++ [p]) best := by
  have hsame : ∀ c, idx.Offers (seen ++ [p]) c ↔ idx.Offers seen c := fun c => by
    rw [offers_concat, hp]
    simp
  cases best with
  | none => exact fun c hc => h c ((hsame c).1 hc)
  | some b => exact ⟨(hsame b).2 h.offered, fun other hother => h.precedes other ((hsame other).1 hother)⟩

/-- A candidate comes before all offers that the best one before it is not better than. It stands behind
them all, so it has to be really better to be taken. -/
lemma BestSoFar.orBest {best : Option Plan.Candidate} (h : idx.BestSoFar seen best)
    (hp : idx.probeOf? p = some probe) :
    idx.BestSoFar (seen ++ [p])
      (some (Plan.Candidate.orBest ⟨probe, seen.length, p.property.selectivity⟩ best)) := by
  set c : Plan.Candidate := ⟨probe, seen.length, p.property.selectivity⟩
  have hc : idx.Offers (seen ++ [p]) c := offers_concat.2 (.inr ⟨rfl, hp, rfl⟩)
  have hcases : ∀ other, idx.Offers (seen ++ [p]) other → idx.Offers seen other ∨ other = c := by
    intro other hother
    rcases offers_concat.1 hother with hold | ⟨hposition, -⟩
    · exact .inl hold
    · exact .inr (hother.eq_of_position hc hposition)
  cases best with
  | none => exact ⟨hc, fun other hother => .inl ((hcases other hother).resolve_left (h other))⟩
  | some b =>
    have hb : idx.Offers (seen ++ [p]) b := offers_concat.2 (.inl h.offered)
    simp only [Plan.Candidate.orBest, BestSoFar]
    split
    · next hbeats =>
      refine ⟨hc, fun other hother => (hcases other hother).symm.imp_right fun hold => ?_⟩
      -- what the best one so far precedes, the one that beats it precedes too
      have hbc : c.Precedes b := by
        simp only [Plan.Candidate.beats, Bool.or_eq_true, Bool.and_eq_true, decide_eq_true_eq,
          beq_iff_eq] at hbeats
        exact hbeats.imp_right fun h => ⟨h.1, .inl h.2⟩
      rcases h.precedes other hold with rfl | hbother
      · exact hbc
      · simp only [Plan.Candidate.Precedes] at hbc hbother ⊢
        omega
    · next hbeats =>
      refine ⟨hb, fun other hother => ?_⟩
      rcases hcases other hother with hold | rfl
      · exact h.precedes other hold
      · have hposition : b.position < c.position := h.offered.position_lt
        simp only [Plan.Candidate.beats, Bool.or_eq_true, Bool.and_eq_true, decide_eq_true_eq,
          beq_iff_eq] at hbeats
        simp only [Plan.Candidate.Precedes]
        omega

/-! ### What is decided -/

/-- What the offers of a query decide when something filters. -/
inductive Decides (idx : Index) (ps : List Predicate) : Plan → Prop where
  | nothing (c : Plan.Candidate) (h : idx.Offers ps c) (hempty : c.probe = .empty) : Decides idx ps .nothing
  | fullScan (h : ∀ c, ¬idx.Offers ps c) : Decides idx ps .fullScan
  | walk (c : Plan.Candidate) (h : idx.Best ps c) (hfull : ∀ d, idx.Offers ps d → d.probe ≠ .empty) :
      Decides idx ps (.walk c.probe c.position)

lemma decides_choose (seen rest : List Predicate) {best : Option Plan.Candidate}
    (hfull : ∀ c, idx.Offers seen c → c.probe ≠ .empty) (hbest : idx.BestSoFar seen best) :
    Decides idx (seen ++ rest) (Plan.choose idx seen.length best rest) := by
  induction rest generalizing seen best with
  | nil =>
    rw [List.append_nil]
    cases best with
    | none => exact .fullScan hbest
    | some c => exact .walk c hbest hfull
  | cons p rest ih =>
    have hlength : seen.length + 1 = (seen ++ [p]).length := by simp
    have hseen : seen ++ p :: rest = (seen ++ [p]) ++ rest := by simp
    rw [Plan.choose]
    split
    · next hnone =>
      rw [hlength, hseen]
      refine ih (seen ++ [p]) (fun c hc => ?_) (hbest.skip hnone)
      rcases offers_concat.1 hc with hold | ⟨-, hprobe, -⟩
      · exact hfull c hold
      · rw [hnone] at hprobe
        cases hprobe
    · next hempty =>
      have hhere : (seen ++ p :: rest)[seen.length]? = some p := by simp
      exact .nothing ⟨.empty, seen.length, p.property.selectivity⟩ (offers_iff.2 ⟨p, hhere, hempty, rfl⟩) rfl
    · next probe hprobe hsome =>
      rw [hlength, hseen]
      refine ih (seen ++ [p]) (fun c hc => ?_) (hbest.orBest hsome)
      rcases offers_concat.1 hc with hold | ⟨-, hprobe', -⟩
      · exact hfull c hold
      · rintro hempty
        rw [hempty, hsome] at hprobe'
        exact hprobe (Option.some.inj hprobe')

lemma Offers.exists_filter (h : idx.Offers ps c) : ∃ p ∈ ps, p.property.isFilter = true := by
  obtain ⟨p, -, hp, hfilter, -⟩ := h
  exact ⟨p, List.mem_of_getElem? hp, hfilter⟩

lemma plan_cases (idx : Index) (ps : List Predicate) :
    (Plan.of idx ps = .everything ∧ ∀ p ∈ ps, p.property.isFilter = false) ∨
    ((∃ p ∈ ps, p.property.isFilter = true) ∧ Decides idx ps (Plan.of idx ps)) := by
  unfold Plan.of
  split
  · next hany =>
    refine .inr ⟨by simpa using hany, decides_choose [] ps (fun c hc => ?_) fun c hc => ?_⟩
    · simp [Offers] at hc
    · simp [Offers] at hc
  · next hany => exact .inl ⟨rfl, by simpa using hany⟩

/-- **The best walk.** Every task is taken if and only if nothing filters. Otherwise nothing matches if and
only if something that is offered has nothing behind it, and every task is looked at if and only if nothing
is offered; and what is left is to walk, from the position where it stands, what is behind the one offer that
comes before all others. -/
theorem plan_takes_best (idx : Index) (ps : List Predicate) :
    (Plan.of idx ps = .everything ↔ ∀ p ∈ ps, p.property.isFilter = false) ∧
    (Plan.of idx ps = .nothing ↔ ∃ c, idx.Offers ps c ∧ c.probe = .empty) ∧
    (Plan.of idx ps = .fullScan ↔ (∃ p ∈ ps, p.property.isFilter = true) ∧ ∀ c, ¬idx.Offers ps c) ∧
    ∀ probe position, Plan.of idx ps = .walk probe position ↔
      (∀ c, idx.Offers ps c → c.probe ≠ .empty) ∧
        ∃ c, idx.Best ps c ∧ c.probe = probe ∧ c.position = position := by
  rcases plan_cases idx ps with ⟨heverything, hnone⟩ | ⟨hsome, hdecides⟩
  · have hnotSome : ¬∃ p ∈ ps, p.property.isFilter = true := by simpa using hnone
    have hoffers : ∀ c, ¬idx.Offers ps c := fun c hc => hnotSome hc.exists_filter
    rw [heverything]
    refine ⟨iff_of_true rfl hnone, iff_of_false nofun ?_, iff_of_false nofun fun h => hnotSome h.1,
      fun probe position => iff_of_false nofun ?_⟩
    · rintro ⟨c, hc, -⟩
      exact hoffers c hc
    · rintro ⟨-, c, hc, -⟩
      exact hoffers c hc.offered
  · have hnotNone : ¬∀ p ∈ ps, p.property.isFilter = false := by simpa using hsome
    generalize Plan.of idx ps = plan at hdecides
    cases hdecides with
    | nothing c hc hempty =>
      exact ⟨iff_of_false nofun hnotNone, iff_of_true rfl ⟨c, hc, hempty⟩,
        iff_of_false nofun fun h => h.2 c hc,
        fun probe position => iff_of_false nofun fun h => h.1 c hc hempty⟩
    | fullScan hoffers =>
      refine ⟨iff_of_false nofun hnotNone, iff_of_false nofun ?_, iff_of_true rfl ⟨hsome, hoffers⟩,
        fun probe position => iff_of_false nofun ?_⟩
      · rintro ⟨c, hc, -⟩
        exact hoffers c hc
      · rintro ⟨-, c, hc, -⟩
        exact hoffers c hc.offered
    | walk c hbest hfull =>
      refine ⟨iff_of_false nofun hnotNone, iff_of_false nofun ?_,
        iff_of_false nofun fun h => h.2 c hbest.offered, fun probe position => ⟨?_, ?_⟩⟩
      · rintro ⟨d, hd, hempty⟩
        exact hfull d hd hempty
      · rintro ⟨⟩
        exact ⟨hfull, c, hbest, rfl, rfl⟩
      · rintro ⟨-, d, hd, rfl, rfl⟩
        rw [hbest.unique hd]

end Index

end TaskIndex
