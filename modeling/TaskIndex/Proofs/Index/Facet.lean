import Mathlib.Algebra.Group.Nat.Defs
import TaskIndex.Index.Facet
import TaskIndex.Proofs.SortedSet

/-!
Facets of a task.

A task carries a facet exactly when the facet's property is found by such an operand and the task's
field equals it. So looking an equality up among the facets and testing it on the task agree, for
every property and every kind of operand.
-/

namespace TaskIndex

lemma int64_ofNat_eq_iff {k : Nat} (h : k < 2 ^ 63) {n : Int64} :
    Int64.ofNat k = n ↔ (k : Int) = n.toInt := by
  rw [← Int64.toInt_inj, Int64.toInt_ofNat_of_lt h]

lemma uint32_lt (n : UInt32) : n.toNat < 2 ^ 63 := Nat.lt_trans n.toNat_lt (by decide)

lemma Task.temperature_le (t : Task) (today : Date) : t.temperature today ≤ maxTemperature :=
  Nat.min_le_left _ _

lemma Task.temperature_lt (t : Task) (today : Date) : t.temperature today < 2 ^ 63 :=
  Nat.lt_of_le_of_lt (t.temperature_le today) (by decide)

namespace Field

lemma compares_eq_iff {α : Type} [Ord α] [Std.TransOrd α] [Std.LawfulEqOrd α] {a b : α} :
    (some (compare a b) == some Ordering.eq) = true ↔ a = b := by
  simp

@[simp] lemma equals_text {s o : String} : (text s).equals (.text o) = true ↔ s = o :=
  compares_eq_iff

@[simp] lemma equals_number {n : Int} {o : Int64} :
    (number n).equals (.number o) = true ↔ n = o.toInt :=
  compares_eq_iff

@[simp] lemma equals_status {s o : Status} : (status s).equals (.status o) = true ↔ s = o :=
  compares_eq_iff

@[simp] lemma equals_names {s : SortedSet String} {o : String} :
    (names s).equals (.text o) = true ↔ o ∈ s :=
  decide_eq_true_iff

@[simp] lemma equals_ofText? {s : Option String} {o : String} :
    (ofText? s).equals (.text o) = true ↔ s = some o := by
  cases s with
  | none => exact ⟨fun h => (by cases h), fun h => (by cases h)⟩
  | some s => exact compares_eq_iff.trans (Option.some_inj).symm

@[simp] lemma equals_ofNumber? {n : Option UInt32} {o : Int64} :
    (ofNumber? n).equals (.number o) = true ↔ ∃ k, n = some k ∧ Int64.ofNat k.toNat = o := by
  cases n with
  | none => exact ⟨fun h => (by cases h), fun ⟨_, h, _⟩ => (by cases h)⟩
  | some n =>
    rw [show (ofNumber? (some n)) = number n.toNat from rfl, equals_number,
      ← int64_ofNat_eq_iff (uint32_lt n)]
    simp

end Field

namespace Facet

variable {t : Task} {today : Date} {f : Facet}

lemma isIndexed_of_mem (h : f ∈ t.facets today) : f.isIndexed = true := by
  simp only [Task.facets, List.mem_append, List.mem_map, List.mem_cons, List.not_mem_nil,
    or_false, or_assoc] at h
  rcases h with rfl | rfl | rfl | ⟨_, _, rfl⟩ | ⟨_, _, rfl⟩ | ⟨_, _, rfl⟩ | ⟨_, _, rfl⟩ |
    ⟨_, _, rfl⟩ | ⟨_, _, rfl⟩ | ⟨_, _, rfl⟩ | rfl | rfl | rfl | rfl
  all_goals rfl

inductive Family : Facet → Prop where
  | area (s : String) : Family (.area s)
  | version (s : String) : Family (.version s)
  | reporter (s : String) : Family (.reporter s)
  | solver (s : String) : Family (.solver s)
  | participant (s : String) : Family (.participant s)
  | aspirant (s : String) : Family (.aspirant s)
  | watcher (s : String) : Family (.watcher s)
  | predecessor (n : Int64) : Family ⟨.predecessor, .number n⟩
  | origin (n : Int64) : Family ⟨.origin, .number n⟩
  | serial (n : Int64) : Family ⟨.serial, .number n⟩
  | temperature (n : Int64) : Family ⟨.temperature, .number n⟩
  | status (s : Status) : Family (.status s)
  | motive (m : Motive) : Family (.motive m)
  | purpose (p : Purpose) : Family (.purpose p)

lemma family_of_isIndexed (h : f.isIndexed = true) : f.Family := by
  unfold isIndexed at h
  split at h
  case h_15 => cases h
  all_goals constructor

/-- **Found by what it equals**: a task carries exactly the indexed facets that its fields equal. -/
theorem mem_facets :
    f ∈ t.facets today ↔ f.isIndexed = true ∧ (t.field today f.property).equals f.operand = true := by
  by_cases hindexed : f.isIndexed = true
  · simp only [hindexed, true_and]
    cases family_of_isIndexed hindexed
    all_goals simp [Task.facets, Task.field, area, version, reporter, solver, participant,
      aspirant, watcher, predecessor, origin, serial, status, motive, purpose, temperature,
      SortedSet.mem_def]
    all_goals first
      | exact eq_comm
      | exact eq_comm.trans Field.compares_eq_iff.symm
      | rw [eq_comm, int64_ofNat_eq_iff (t.temperature_lt today)]
  · exact ⟨fun h => absurd (isIndexed_of_mem h) hindexed, fun h => absurd h.1 hindexed⟩

/-! ### One family at a time -/

@[simp] lemma area_mem {s : String} : area s ∈ t.facets today ↔ t.area = s := by
  rw [mem_facets]
  exact (and_iff_right rfl).trans Field.equals_text

@[simp] lemma version_mem {s : String} : version s ∈ t.facets today ↔ t.version = s := by
  rw [mem_facets]
  exact (and_iff_right rfl).trans Field.equals_text

@[simp] lemma solver_mem {s : String} : solver s ∈ t.facets today ↔ t.solver = some s := by
  rw [mem_facets]
  exact (and_iff_right rfl).trans Field.equals_ofText?

@[simp] lemma participant_mem {s : String} :
    participant s ∈ t.facets today ↔ s ∈ t.participants := by
  rw [mem_facets]
  exact (and_iff_right rfl).trans Field.equals_names

@[simp] lemma aspirant_mem {s : String} : aspirant s ∈ t.facets today ↔ s ∈ t.aspirants := by
  rw [mem_facets]
  exact (and_iff_right rfl).trans Field.equals_names

@[simp] lemma watcher_mem {s : String} : watcher s ∈ t.facets today ↔ s ∈ t.watchers := by
  rw [mem_facets]
  exact (and_iff_right rfl).trans Field.equals_names

@[simp] lemma status_mem {s : Status} : status s ∈ t.facets today ↔ t.status = s := by
  rw [mem_facets]
  exact (and_iff_right rfl).trans Field.equals_status

/-- Larger numbers may share an operand with a temperature, so facets are compared, not numbers. -/
lemma temperature_mem {n : Int64} :
    ⟨.temperature, .number n⟩ ∈ t.facets today ↔
      temperature (t.temperature today) = ⟨.temperature, .number n⟩ := by
  simp [mem_facets, isIndexed, Task.field, temperature, int64_ofNat_eq_iff (t.temperature_lt today)]

/-! ### No repetition -/

lemma nodup_append_family {l r : List Facet} (p : Property) (hl : l.Nodup)
    (hp : ∀ f ∈ l, f.property = p) (hr : r.Nodup) (hq : ∀ f ∈ r, f.property ≠ p) :
    (l ++ r).Nodup := by
  refine List.nodup_append.2 ⟨hl, hr, ?_⟩
  rintro a ha b hb rfl
  exact hq a hb (hp a ha)

lemma nodup_facets (t : Task) (today : Date) : (t.facets today).Nodup := by
  have names : ∀ (s : SortedSet String) (g : String → Facet), (∀ a b, g a = g b → a = b) →
      (s.toList.map g).Nodup := fun s g hg => s.nodup.map hg
  have optional : ∀ {α : Type} (o : Option α) (g : α → Facet), (o.toList.map g).Nodup := by
    intro α o g
    cases o <;> simp
  have single : ∀ f : Facet, [f].Nodup := List.nodup_singleton
  -- the first three and the last four facets are families of one
  have hsplit : t.facets today = [area t.area] ++ ([version t.version] ++ ([reporter t.reporter] ++
      (t.solver.toList.map solver ++ (t.participants.toList.map participant ++
      (t.aspirants.toList.map aspirant ++ (t.watchers.toList.map watcher ++
      (t.predecessor.toList.map predecessor ++ (t.origin.toList.map origin ++
      (t.serial.toList.map serial ++ ([status t.status] ++ ([motive t.motive] ++
      ([purpose t.purpose] ++ [temperature (t.temperature today)])))))))))))) := by
    simp [Task.facets]
  rw [hsplit]
  refine nodup_append_family .area (single _) ?_ (nodup_append_family .version (single _) ?_
    (nodup_append_family .reporter (single _) ?_ (nodup_append_family .solver (optional _ _) ?_
    (nodup_append_family .participant (names _ _ ?_) ?_
    (nodup_append_family .aspirant (names _ _ ?_) ?_ (nodup_append_family .watcher (names _ _ ?_) ?_
    (nodup_append_family .predecessor (optional _ _) ?_ (nodup_append_family .origin (optional _ _) ?_
    (nodup_append_family .serial (optional _ _) ?_ (nodup_append_family .status (single _) ?_
    (nodup_append_family .motive (single _) ?_ (nodup_append_family .purpose (single _) ?_ (single _)
    ?_) ?_) ?_) ?_) ?_) ?_) ?_) ?_) ?_) ?_) ?_) ?_) ?_
  all_goals simp [or_imp, forall_and, area, version, reporter, solver, participant, aspirant, watcher,
    predecessor, origin, serial, status, motive, purpose, temperature]

end Facet

end TaskIndex
