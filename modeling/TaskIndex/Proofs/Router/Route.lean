import TaskIndex.Proofs.Index.Filter
import TaskIndex.Router.Route

/-!
What the shards are asked.

One shard is asked everything but the choice of shards, several are asked the filters alone. The
predicates that make the difference let every task through, are never walked and do not speak of the
page that a shard is asked for, so both questions have the same matches, in the same order.
-/

namespace TaskIndex

variable {idx : Index} {p : Predicate} {ps qs : List Predicate}

lemma filtersOnly_append (ps qs : List Predicate) :
    filtersOnly (ps ++ qs) = filtersOnly ps ++ filtersOnly qs := List.filter_append ..

lemma filtersOnly_cons_of_pos (hp : p.property.isFilter = true) :
    filtersOnly (p :: ps) = p :: filtersOnly ps := List.filter_cons_of_pos hp

lemma filtersOnly_cons_of_neg (hp : p.property.isFilter = false) :
    filtersOnly (p :: ps) = filtersOnly ps := List.filter_cons_of_neg (by simp [hp])

lemma filtersOnly_filtersOnly (ps : List Predicate) :
    filtersOnly (filtersOnly ps) = filtersOnly ps := by
  simp [filtersOnly, List.filter_filter]

lemma filtersOnly_withoutTargeting (ps : List Predicate) :
    filtersOnly (withoutTargeting ps) = filtersOnly ps := by
  simp only [filtersOnly, withoutTargeting, List.filter_filter]
  refine List.filter_congr fun p _ => ?_
  unfold Predicate.isTargeting
  cases p.property <;> rfl

lemma ofPredicates_withoutTargeting (limits : PageLimits) (ps : List Predicate) :
    PageSpec.ofPredicates limits (withoutTargeting ps) = PageSpec.ofPredicates limits ps := by
  have hstep : ∀ (ps : List Predicate) (spec : PageSpec),
      (withoutTargeting ps).foldl PageSpec.step spec = ps.foldl PageSpec.step spec := by
    intro ps
    induction ps with
    | nil => intro spec; rfl
    | cons p ps ih =>
      intro spec
      rw [withoutTargeting, List.filter_cons]
      split
      · exact ih _
      · next hp =>
        have hshard : p.property = .shard := by simpa [Predicate.isTargeting] using hp
        have hsame : spec.step p = spec := by rw [PageSpec.step, hshard]
        rw [List.foldl_cons, hsame]
        exact ih spec
  simp only [PageSpec.ofPredicates, PageSpec.requested, hstep]

namespace Index

lemma passes_filtersOnly (idx : Index) (ps : List Predicate) :
    idx.passes (filtersOnly ps) = idx.passes ps := by
  funext t
  induction ps with
  | nil => rfl
  | cons p ps ih =>
    cases hp : p.property.isFilter with
    | true =>
      rw [filtersOnly_cons_of_pos hp]
      simp only [passes, List.all_cons] at ih ⊢
      rw [ih]
    | false =>
      rw [filtersOnly_cons_of_neg hp, ih]
      simp [passes, Predicate.Matches, hp]

/-- Two plans for two queries that come to the same walk and the same tests. -/
inductive SamePlan (ps qs : List Predicate) : Plan → Plan → Prop where
  | everything : SamePlan ps qs .everything .everything
  | fullScan : SamePlan ps qs .fullScan .fullScan
  | nothing : SamePlan ps qs .nothing .nothing
  | walk (probe : Probe) (i j : Nat) (h : filtersOnly (ps.eraseIdx i) = filtersOnly (qs.eraseIdx j)) :
      SamePlan ps qs (.walk probe i) (.walk probe j)

def SameBest (ps qs : List Predicate) : Option Plan.Candidate → Option Plan.Candidate → Prop
  | none, none => True
  | some c, some d => c.probe = d.probe ∧ c.selectivity = d.selectivity ∧
      filtersOnly (ps.eraseIdx c.position) = filtersOnly (qs.eraseIdx d.position)
  | _, _ => False

lemma SameBest.orBest {best best' : Option Plan.Candidate} (h : SameBest ps qs best best')
    {c d : Plan.Candidate} (hnew : SameBest ps qs (some c) (some d)) :
    SameBest ps qs (some (c.orBest best)) (some (d.orBest best')) := by
  cases best <;> cases best' <;> simp only [SameBest] at h
  · exact hnew
  · next b b' =>
    have hbeats : c.beats b = d.beats b' := by
      simp only [Plan.Candidate.beats, hnew.1, hnew.2.1, h.1, h.2.1]
    simp only [Plan.Candidate.orBest, hbeats]
    split
    · exact hnew
    · exact h

/-- Choosing among all predicates goes as choosing among the filters alone. -/
lemma samePlan_choose (idx : Index) (seen rest : List Predicate) {best best' : Option Plan.Candidate}
    (hbest : SameBest (seen ++ rest) (filtersOnly (seen ++ rest)) best best') :
    SamePlan (seen ++ rest) (filtersOnly (seen ++ rest)) (Plan.choose idx seen.length best rest)
      (Plan.choose idx (filtersOnly seen).length best' (filtersOnly rest)) := by
  induction rest generalizing seen best best' with
  | nil =>
    cases best <;> cases best' <;> simp only [SameBest] at hbest
    · exact .fullScan
    · next c d =>
      obtain ⟨hprobe, -, herase⟩ := hbest
      simp only [filtersOnly, List.filter_nil, Plan.choose, hprobe]
      exact .walk d.probe _ _ herase
  | cons p rest ih =>
    have hseen : seen ++ p :: rest = (seen ++ [p]) ++ rest := by simp
    have hlength : seen.length + 1 = (seen ++ [p]).length := by simp
    cases hp : p.property.isFilter with
    | false =>
      have hprobe : idx.probeOf? p = none := by simp [probeOf?, hp]
      have hsame : filtersOnly (seen ++ [p]) = filtersOnly seen := by
        rw [filtersOnly_append, filtersOnly_cons_of_neg hp]
        exact List.append_nil _
      rw [Plan.choose, hprobe, filtersOnly_cons_of_neg hp, hseen, hlength, ← hsame]
      exact ih (seen ++ [p]) (hseen ▸ hbest)
    | true =>
      have hlength' : (filtersOnly seen).length + 1 = (filtersOnly (seen ++ [p])).length := by
        rw [filtersOnly_append, filtersOnly_cons_of_pos hp]
        simp [filtersOnly]
      rw [filtersOnly_cons_of_pos hp, Plan.choose, Plan.choose]
      split
      · rw [hlength, hlength', hseen]
        exact ih (seen ++ [p]) (hseen ▸ hbest)
      · exact .nothing
      · next probe _ _ =>
        rw [hlength, hlength', hseen]
        refine ih (seen ++ [p]) ?_
        rw [← hseen]
        refine hbest.orBest ⟨rfl, rfl, ?_⟩
        rw [filtersOnly_append, filtersOnly_cons_of_pos hp]
        simp [List.eraseIdx_append_of_length_le, filtersOnly_append, filtersOnly_filtersOnly]

lemma samePlan (idx : Index) (ps : List Predicate) :
    SamePlan ps (filtersOnly ps) (Plan.of idx ps) (Plan.of idx (filtersOnly ps)) := by
  have hany : (filtersOnly ps).any (·.property.isFilter) = ps.any (·.property.isFilter) := by
    simp [filtersOnly, List.any_filter]
  rw [Plan.of, Plan.of, hany]
  split
  · exact samePlan_choose idx [] ps trivial
  · exact .everything

/-- **Filters alone**: the predicates that do not filter make no difference to the matches, not even
to the order in which they are found. -/
theorem filter_filtersOnly (idx : Index) (ps : List Predicate) :
    idx.filter (filtersOnly ps) = idx.filter ps := by
  have hplan := samePlan idx ps
  unfold filter
  generalize Plan.of idx ps = plan at hplan ⊢
  generalize Plan.of idx (filtersOnly ps) = plan' at hplan ⊢
  cases hplan with
  | everything | nothing => rfl
  | fullScan => simp only [passes_filtersOnly]
  | walk probe i j h =>
    simp only
    rw [← passes_filtersOnly idx (ps.eraseIdx i), h, passes_filtersOnly]

lemma filter_withoutTargeting (idx : Index) (ps : List Predicate) :
    idx.filter (withoutTargeting ps) = idx.filter (filtersOnly ps) := by
  rw [← filter_filtersOnly, filtersOnly_withoutTargeting]

end Index

end TaskIndex
