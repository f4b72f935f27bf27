import Mathlib.Data.List.Perm.Basic
import TaskIndex.Proofs.SortedSet
import TaskIndex.Router.Route

/-!
The shards that a query is about, told predicate by predicate.

A shard is a target when no predicate of the query speaks against it: every inclusive one names it, no
exclusive one does, and without an inclusive one it is a shard of the actor. None of this depends on the
order of the predicates, although the set is computed by folding over them.
-/

namespace TaskIndex

/-! ### Speaking for a shard and against it -/

/-- The predicate lets in the shards that it names and no others. -/
def Predicate.Includes (p : Predicate) : Prop :=
  p.property = .shard ∧ (p.operator = .eq ∨ p.operator = .within)

/-- The predicate keeps out the shards that it names. -/
def Predicate.Excludes (p : Predicate) : Prop :=
  p.property = .shard ∧ (p.operator = .ne ∨ p.operator = .notWithin)

/-- The query of the actor is about the shard. -/
structure IsTarget (actor : Actor) (ps : List Predicate) (key : ShardKey) : Prop where
  included : ∀ p ∈ ps, p.Includes → .shard key ∈ p.operands
  own : (∀ p ∈ ps, ¬p.Includes) → key ∈ actor.shards
  spared : ∀ p ∈ ps, p.Excludes → .shard key ∉ p.operands

variable {actor : Actor} {p : Predicate} {ps qs : List Predicate} {key : ShardKey}

lemma IsTarget.perm (hqs : qs.Perm ps) (h : IsTarget actor ps key) : IsTarget actor qs key where
  included p hp := h.included p (hqs.mem_iff.1 hp)
  own hnone := h.own fun p hp => hnone p (hqs.mem_iff.2 hp)
  spared p hp := h.spared p (hqs.mem_iff.1 hp)

lemma isTarget_perm (hqs : qs.Perm ps) : IsTarget actor qs key ↔ IsTarget actor ps key :=
  ⟨.perm hqs.symm, .perm hqs⟩

lemma IsTarget.of_includes (hp : p ∈ ps) (hincludes : p.Includes) (h : IsTarget actor ps key)
    (actor' : Actor) : IsTarget actor' ps key where
  included := h.included
  own hnone := absurd hincludes (hnone p hp)
  spared := h.spared

/-! ### The computed set -/

lemma Predicate.mem_shardKeys : key ∈ p.shardKeys ↔ .shard key ∈ p.operands := by
  rw [Predicate.shardKeys, SortedSet.mem_ofList, List.mem_filterMap]
  constructor
  · rintro ⟨operand, hoperand, hkey⟩
    cases operand with
    | shard k =>
      obtain rfl := Option.some.inj hkey
      exact hoperand
    | _ => cases hkey
  · exact fun h => ⟨.shard key, h, rfl⟩

lemma Predicate.isTargeting_iff : p.isTargeting = true ↔ p.property = .shard := beq_iff_eq

lemma Predicate.includes_iff :
    p.Includes ↔ (p.isTargeting && p.operator.isInclusive) = true := by
  rw [Bool.and_eq_true, isTargeting_iff, Includes]
  cases p.operator <;> simp [Operator.isInclusive]

lemma Predicate.excludes_iff :
    p.Excludes ↔ (p.isTargeting && p.operator.isExclusive) = true := by
  rw [Bool.and_eq_true, isTargeting_iff, Excludes]
  cases p.operator <;> simp [Operator.isExclusive]

lemma mem_inclusiveSets {keys : SortedSet ShardKey} :
    keys ∈ inclusiveSets ps ↔ ∃ p ∈ ps, p.Includes ∧ p.shardKeys = keys := by
  simp only [inclusiveSets, List.mem_map, List.mem_filter, ← Predicate.includes_iff, and_assoc]

lemma mem_exclusiveSets {keys : SortedSet ShardKey} :
    keys ∈ exclusiveSets ps ↔ ∃ p ∈ ps, p.Excludes ∧ p.shardKeys = keys := by
  simp only [exclusiveSets, List.mem_map, List.mem_filter, ← Predicate.excludes_iff, and_assoc]

/-- The set that the code computes is the set of targets. -/
lemma mem_targets : key ∈ targets actor ps ↔ IsTarget actor ps key := by
  have hexcluded : key ∉ (exclusiveSets ps).foldl SortedSet.union ∅ ↔
      ∀ p ∈ ps, p.Excludes → .shard key ∉ p.operands := by
    simp only [SortedSet.mem_foldl_union, mem_exclusiveSets]
    constructor
    · exact fun h p hp hexcludes hkey =>
        h (.inr ⟨_, ⟨p, hp, hexcludes, rfl⟩, Predicate.mem_shardKeys.2 hkey⟩)
    · rintro h (hnone | ⟨keys, ⟨p, hp, hexcludes, rfl⟩, hkey⟩)
      · exact absurd hnone List.not_mem_nil
      · exact h p hp hexcludes (Predicate.mem_shardKeys.1 hkey)
  unfold targets
  rw [SortedSet.mem_diff, hexcluded]
  have hmem := @mem_inclusiveSets ps
  cases hsets : inclusiveSets ps with
  | nil =>
    have hnone : ∀ p ∈ ps, ¬p.Includes := fun p hp hincludes => by
      have hp := hmem.2 ⟨p, hp, hincludes, rfl⟩
      rw [hsets] at hp
      cases hp
    exact ⟨fun h => ⟨fun p hp hincludes => absurd hincludes (hnone p hp), fun _ => h.1, h.2⟩,
      fun h => ⟨h.own hnone, h.spared⟩⟩
  | cons keys rest =>
    simp only [hsets] at hmem
    have hincluded : key ∈ rest.foldl SortedSet.inter keys ↔
        ∀ p ∈ ps, p.Includes → .shard key ∈ p.operands := by
      rw [SortedSet.mem_foldl_inter]
      constructor
      · exact fun h p hp hincludes => Predicate.mem_shardKeys.1 (h _ (hmem.2 ⟨p, hp, hincludes, rfl⟩))
      · intro h k hk
        obtain ⟨p, hp, hincludes, rfl⟩ := hmem.1 hk
        exact Predicate.mem_shardKeys.2 (h p hp hincludes)
    obtain ⟨q, hq, hincludes, -⟩ := hmem.1 List.mem_cons_self
    dsimp only
    rw [hincluded]
    exact ⟨fun h => ⟨h.1, fun hnone => absurd hincludes (hnone q hq), h.2⟩,
      fun h => ⟨h.included, h.spared⟩⟩

/-! ### The route -/

/-- A request to index names its shard, and nothing else speaks of shards. -/
lemma isTarget_of_indexKey? {named : ShardKey} (h : Route.indexKey? ps = some named) :
    IsTarget actor ps key ↔ key = named := by
  unfold Route.indexKey? at h
  split at h
  case h_2 => cases h
  next only honly =>
  split at h
  · cases h
  obtain ⟨operand, hoperand, hkey⟩ := Option.bind_eq_some_iff.1 h
  obtain ⟨heq, hoperands⟩ : only.operator = .eq ∧ only.operands = [operand] := by
    unfold Predicate.equalityOperand? at hoperand
    split at hoperand
    · next heq hoperands => exact ⟨heq, hoperands.trans (congrArg (fun o => [o]) (Option.some.inj hoperand))⟩
    · cases hoperand
  obtain rfl : operand = .shard named := by
    cases operand with
    | shard k => exact congrArg Operand.shard (Option.some.inj hkey)
    | _ => cases hkey
  have hof : ∀ p ∈ ps, p.property = .shard → p = only := fun p hp hproperty =>
    List.mem_singleton.1 (honly ▸ List.mem_filter.2 ⟨hp, Predicate.isTargeting_iff.2 hproperty⟩)
  obtain ⟨hmem, htargeting⟩ := List.mem_filter.1 (honly ▸ List.mem_cons_self : only ∈ ps.filter _)
  have hincludes : only.Includes := ⟨Predicate.isTargeting_iff.1 htargeting, .inl heq⟩
  constructor
  · intro htarget
    have hkey := htarget.included only hmem hincludes
    rw [hoperands, List.mem_singleton] at hkey
    exact Operand.shard.inj hkey
  · rintro rfl
    refine ⟨fun p hp hp' => ?_, fun hnone => absurd hincludes (hnone only hmem), fun p hp hp' => ?_⟩
    · rw [hof p hp hp'.1, hoperands]
      exact List.mem_cons_self
    · have := hp'.2
      rw [hof p hp hp'.1, heq] at this
      simp at this

lemma Route.mem_targets_of : key ∈ (Route.of actor ps).targets ↔ IsTarget actor ps key := by
  unfold Route.of
  split
  · next named hindex => exact SortedSet.mem_single.trans (isTarget_of_indexKey? hindex).symm
  · rw [← mem_targets, SortedSet.mem_def (s := TaskIndex.targets actor ps)]
    dsimp only
    split
    · next hnil =>
      rw [hnil]
      exact Iff.rfl
    · next only honly =>
      rw [honly, List.mem_singleton]
      exact SortedSet.mem_single
    · exact Iff.rfl

lemma Route.indexKey?_perm (hqs : qs.Perm ps) : Route.indexKey? qs = Route.indexKey? ps := by
  have hany : qs.any (·.property.isFilter) = ps.any (·.property.isFilter) := hqs.any_eq
  have hperm : (qs.filter (·.isTargeting)).Perm (ps.filter (·.isTargeting)) := hqs.filter _
  unfold Route.indexKey?
  rw [hany]
  generalize ps.filter (·.isTargeting) = ts at hperm ⊢
  generalize qs.filter (·.isTargeting) = us at hperm ⊢
  match ts, us, hperm with
  | [], us, hperm => rw [List.perm_nil.1 hperm]
  | [only], us, hperm => rw [List.perm_singleton.1 hperm]
  | t :: t' :: ts, [], hperm => exact absurd hperm.length_eq (by simp)
  | t :: t' :: ts, [u], hperm => exact absurd hperm.length_eq (by simp)
  | t :: t' :: ts, u :: u' :: us, hperm => rfl

lemma targets_congr {actor' : Actor}
    (h : ∀ key, IsTarget actor' qs key ↔ IsTarget actor ps key) : targets actor' qs = targets actor ps :=
  SortedSet.eq_of_mem_iff fun key => by rw [mem_targets, mem_targets, h]

lemma Route.of_perm (hqs : qs.Perm ps) : Route.of actor qs = Route.of actor ps := by
  unfold Route.of
  rw [Route.indexKey?_perm hqs, targets_congr fun _ => isTarget_perm hqs]

lemma Route.of_includes (hp : p ∈ ps) (hincludes : p.Includes) (actor' : Actor) :
    Route.of actor' ps = Route.of actor ps := by
  unfold Route.of
  rw [targets_congr fun _ => ⟨fun h => h.of_includes hp hincludes actor,
    fun h => h.of_includes hp hincludes actor'⟩]

end TaskIndex
