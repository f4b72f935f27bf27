import Mathlib.Tactic.Lemma
import TaskIndex.Settings.Basic

/-!
What choices make of themselves.

Choices make settings if and only if they fit together, and the settings say what the choices say, or the
default where a choice is left open. A query that does not ask for a length then gets a page of the default
length: the largest length does not cut it, since the default does not exceed it.
-/

namespace TaskIndex

/-- The choices fit together, defaults included. -/
structure Choices.Fits (c : Choices) : Prop where
  level : (c.level.elim (some .info) LogLevel.ofText?).isSome = true
  defaultLength : c.defaultLength.getD 50 ≠ 0
  maxLength : ∀ m, c.maxLength = some m → m ≠ 0 ∧ c.defaultLength.getD 50 ≤ m
  snapshotPath : c.snapshotPath.getD "tasks.toml" ≠ ""

lemma PageSpec.length_requested (limits : PageLimits) {ps : List Predicate}
    (hps : ∀ p ∈ ps, p.property ≠ .length) : (requested limits ps).length = limits.defaultLength := by
  have hstep (spec : PageSpec) (p : Predicate) (hp : p.property ≠ .length) :
      (spec.step p).length = spec.length := by
    unfold step
    split <;> first | rfl | contradiction
  have hfold : ∀ spec : PageSpec, (ps.foldl step spec).length = spec.length := by
    induction ps with
    | nil => exact fun spec => rfl
    | cons p ps ih =>
      obtain ⟨hp, hps⟩ := List.forall_mem_cons.1 hps
      exact fun spec => (ih hps _).trans (hstep spec p hp)
  exact hfold _

namespace Settings

/-- The settings say what the choices say, and the default where a choice is left open. -/
structure Follows (settings : Settings) (c : Choices) : Prop where
  level : c.level.elim (some .info) LogLevel.ofText? = some settings.level
  format : settings.format = if c.json.getD false then .json else .compact
  defaultLength : settings.limits.defaultLength = (c.defaultLength.getD 50).toNat
  maxLength : settings.limits.maxLength = c.maxLength.map UInt64.toNat
  snapshotPath : settings.snapshotPath = c.snapshotPath.getD "tasks.toml"

variable {c : Choices} {settings : Settings} {level : LogLevel} {limits : PageLimits} {path : String}

lemma chosenLevel_eq_ok_iff :
    chosenLevel c = .ok level ↔ c.level.elim (some .info) LogLevel.ofText? = some level := by
  unfold chosenLevel
  cases c.level with
  | none => simp
  | some s =>
    simp only [Option.elim_some]
    cases LogLevel.ofText? s <;> simp

lemma chosenSnapshotPath_eq_ok_iff : chosenSnapshotPath c = .ok path ↔
    path = c.snapshotPath.getD "tasks.toml" ∧ c.snapshotPath.getD "tasks.toml" ≠ "" := by
  simp only [chosenSnapshotPath]
  split <;> grind

lemma chosenLimits_eq_ok_iff : chosenLimits c = .ok limits ↔
    (c.defaultLength.getD 50 ≠ 0 ∧ ∀ m, c.maxLength = some m → m ≠ 0 ∧ c.defaultLength.getD 50 ≤ m) ∧
      limits.defaultLength = (c.defaultLength.getD 50).toNat ∧
      limits.maxLength = c.maxLength.map UInt64.toNat := by
  obtain ⟨defaultLength, maxLength, hpos⟩ := limits
  simp only [chosenLimits]
  split
  · next hzero => simp [hzero]
  · next hnonzero =>
    cases c.maxLength with
    | none =>
      simp only [Except.ok.injEq, PageLimits.mk.injEq, Option.map_none, eq_comm (b := maxLength)]
      grind
    | some m =>
      simp only [Option.some.injEq, forall_eq', Option.map_some]
      split
      · next hm => simp [hm]
      · next hm =>
        split
        · next hlt => simp [UInt64.not_le.2 hlt]
        · next hle =>
          simp only [Except.ok.injEq, PageLimits.mk.injEq]
          grind

lemma ofChoices_eq_ok_iff : ofChoices c = .ok settings ↔
    chosenLevel c = .ok settings.level ∧ settings.format = (if c.json.getD false then .json else .compact) ∧
      chosenLimits c = .ok settings.limits ∧ chosenSnapshotPath c = .ok settings.snapshotPath := by
  obtain ⟨level, format, limits, path⟩ := settings
  unfold ofChoices
  cases chosenLevel c with
  | error e => simp [bind, Except.bind]
  | ok level' =>
    cases chosenLimits c with
    | error e => simp [bind, Except.bind]
    | ok limits' =>
      cases chosenSnapshotPath c with
      | error e => simp [bind, Except.bind]
      | ok path' =>
        simp only [bind, Except.bind, pure, Except.pure, Except.ok.injEq, mk.injEq, eq_comm (a := format)]

/-- **Choices that fit** make settings that follow them, and no other choices make any. -/
theorem ofChoices_eq_ok_iff_follows : ofChoices c = .ok settings ↔ c.Fits ∧ settings.Follows c := by
  rw [ofChoices_eq_ok_iff, chosenLevel_eq_ok_iff, chosenLimits_eq_ok_iff, chosenSnapshotPath_eq_ok_iff]
  constructor
  · rintro ⟨hlevel, hformat, ⟨⟨hdefault, hmax⟩, hdefaultIs, hmaxIs⟩, hpathIs, hpath⟩
    exact ⟨⟨by rw [hlevel]; rfl, hdefault, hmax, hpath⟩, ⟨hlevel, hformat, hdefaultIs, hmaxIs, hpathIs⟩⟩
  · rintro ⟨hfits, hfollows⟩
    exact ⟨hfollows.level, hfollows.format, ⟨⟨hfits.defaultLength, hfits.maxLength⟩, hfollows.defaultLength,
      hfollows.maxLength⟩, hfollows.snapshotPath, hfits.snapshotPath⟩

lemma exists_ofChoices_iff : (∃ settings, ofChoices c = .ok settings) ↔ c.Fits := by
  refine ⟨fun ⟨settings, h⟩ => (ofChoices_eq_ok_iff_follows.1 h).1, fun h => ?_⟩
  obtain ⟨level, hlevel⟩ := Option.isSome_iff_exists.1 h.level
  have hpos : ∀ m ∈ c.maxLength.map UInt64.toNat, 0 < m := by
    intro m hm
    obtain ⟨n, hn, rfl⟩ := Option.map_eq_some_iff.1 hm
    exact Nat.pos_of_ne_zero fun hzero => (h.maxLength n hn).1 (UInt64.toNat_inj.1 hzero)
  let settings : Settings := ⟨level, if c.json.getD false then .json else .compact,
    ⟨(c.defaultLength.getD 50).toNat, c.maxLength.map UInt64.toNat, hpos⟩, c.snapshotPath.getD "tasks.toml"⟩
  exact ⟨settings, ofChoices_eq_ok_iff_follows.2 ⟨h, ⟨hlevel, rfl, rfl, rfl, rfl⟩⟩⟩

lemma Follows.length_eq (hfollows : settings.Follows c) (hfits : c.Fits) {ps : List Predicate}
    (hps : ∀ p ∈ ps, p.property ≠ .length) :
    (PageSpec.ofPredicates settings.limits ps).length = (c.defaultLength.getD 50).toNat := by
  have hrequested := PageSpec.length_requested settings.limits hps
  have hcap : ∀ m, settings.limits.maxLength = some m → settings.limits.defaultLength ≤ m := by
    intro m hm
    rw [hfollows.maxLength] at hm
    obtain ⟨n, hn, rfl⟩ := Option.map_eq_some_iff.1 hm
    rw [hfollows.defaultLength]
    exact UInt64.le_iff_toNat_le.1 (hfits.maxLength n hn).2
  rw [← hfollows.defaultLength, ← hrequested]
  simp only [PageSpec.ofPredicates]
  cases hmax : settings.limits.maxLength with
  | none => rfl
  | some m =>
    rw [Option.elim_some, hrequested]
    exact Nat.min_eq_left (hcap m hmax)

end Settings

end TaskIndex
