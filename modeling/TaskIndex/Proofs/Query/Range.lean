import TaskIndex.Proofs.Query.Scale
import TaskIndex.Query.Matching
import TaskIndex.Query.Order

/-!
Ranges of an order.

The tasks that a range filter lets through stand together in the order by its property: whoever stands before
a task below the operand is below it too, unless it has no value there, and whoever stands behind one above
it is above. An operand that can be compared with a task at all is above it, equal to it or below it, and
the five comparisons say no more than that.
-/

namespace TaskIndex

variable {p : Property} {today : Date} {v : Operand} {operator : Operator} {a b t : Task}

def Property.holdsNames : Property → Bool
  | participant | aspirant | watcher => true
  | _ => false

/-- An operand that the property's values are compared with: one of the property's kind, and for texts also a
shard key. -/
def Property.ComparesWith (p : Property) (v : Operand) : Prop :=
  v.kind = p.kind ∨ p.kind = .text ∧ v.kind = .shard

def Task.Passes (t : Task) (today : Date) (p : Property) (operator : Operator) (v : Operand) : Prop :=
  (Predicate.mk p operator [v]).Matches t today = true

instance (p : Property) (v : Operand) : Decidable (p.ComparesWith v) := inferInstanceAs (Decidable (_ ∨ _))

instance (t : Task) (today : Date) (p : Property) (operator : Operator) (v : Operand) :
    Decidable (t.Passes today p operator v) := inferInstanceAs (Decidable (_ = true))

/-- The operands with a place on the scale are those that the property's values are compared with. -/
lemma Scale.mark_eq_none_iff (hp : p.isFilter = true) (hnames : p.holdsNames = false) :
    (Scale.of today p).mark v = none ↔ ¬p.ComparesWith v := by
  unfold Property.ComparesWith
  cases p with
  | shard | offset | length | order => cases hp
  | participant | aspirant | watcher => cases hnames
  | _ =>
    cases v <;> simp [Operand.kind, Property.kind, Scale.of, Scale.text, Scale.number, Scale.number?, Scale.ofForm,
      Scale.textMark, Operand.number?]

/-! ### The outcome of a comparison -/

/-- How the task stands to the operand, if it can be compared with it. -/
def Task.outcome? (t : Task) (today : Date) (p : Property) (v : Operand) : Option Ordering :=
  (t.field today p).compare? v

lemma Predicate.comparesFirst_single (operator : Operator) (field : Field) (accept : Ordering → Bool) :
    (Predicate.mk p operator [v]).comparesFirst field accept = (field.compare? v).any accept := by
  rw [comparesFirst, List.head?_cons, Option.bind_some]
  cases field.compare? v <;> rfl

/-- The outcomes that an operator lets through, if it is one of comparison. -/
def Operator.accepts : Operator → Ordering → Bool
  | .lt, outcome => outcome == .lt
  | .le, outcome => outcome != .gt
  | .eq, outcome => outcome == .eq
  | .ge, outcome => outcome != .lt
  | .gt, outcome => outcome == .gt
  | _, _ => false

lemma Field.ofText?_ne_names (s : Option String) (l : SortedSet String) : ofText? s ≠ names l := by
  cases s <;> exact nofun

lemma Field.ofNumber?_ne_names (n : Option UInt32) (l : SortedSet String) : ofNumber? n ≠ names l := by
  cases n <;> exact nofun

namespace Task

lemma field_ne_names (hnames : p.holdsNames = false) (t : Task) (l : SortedSet String) :
    t.field today p ≠ .names l := by
  cases p with
  | participant | aspirant | watcher => cases hnames
  | solver => exact Field.ofText?_ne_names _ _
  | predecessor | origin | serial => exact Field.ofNumber?_ne_names _ _
  | _ => exact nofun

lemma passes_range (hp : p.isFilter = true) (h : operator ∈ [.lt, .le, .ge, .gt]) :
    t.Passes today p operator v ↔ (t.outcome? today p v).any operator.accepts = true := by
  simp only [List.mem_cons, List.not_mem_nil, or_false] at h
  rcases h with rfl | rfl | rfl | rfl <;>
    simp only [Passes, Predicate.Matches, hp, if_true, Predicate.comparesFirst_single] <;> rfl

/-- Only a set of names equals anything that it cannot be compared with. -/
lemma passes_eq (hp : p.isFilter = true) (hnames : p.holdsNames = false) :
    t.Passes today p .eq v ↔ (t.outcome? today p v).any Operator.eq.accepts = true := by
  have hequals : (t.field today p).equals v = ((t.field today p).compare? v == some .eq) := by
    unfold Field.equals
    split
    · next heq => exact absurd heq (field_ne_names hnames t _)
    · rfl
  simp only [Passes, Predicate.Matches, hp, if_true, List.any_cons, List.any_nil, Bool.or_false, hequals,
    outcome?]
  cases (t.field today p).compare? v <;> rfl

lemma outcome?_of_absent (h : t.field today p = .absent) : t.outcome? today p v = none := by
  rw [outcome?, h]
  cases v <;> rfl

lemma outcome?_eq_none_iff (hp : p.isFilter = true) (hnames : p.holdsNames = false) :
    t.outcome? today p v = none ↔ t.field today p = .absent ∨ ¬p.ComparesWith v := by
  let scale := Scale.of today p
  have heq : t.outcome? today p v = (scale.value t).bind fun x => (scale.mark v).map (compare x) :=
    scale.compare?_eq t v
  constructor
  · intro hnone
    cases hx : scale.value t with
    | none => exact .inl (scale.absent_of_none t hx)
    | some x =>
      rw [heq, hx, Option.bind_some, Option.map_eq_none_iff] at hnone
      exact .inr ((Scale.mark_eq_none_iff hp hnames).1 hnone)
  · rintro (habsent | hkind)
    · exact outcome?_of_absent habsent
    · rw [heq, (Scale.mark_eq_none_iff hp hnames).2 hkind]
      cases scale.value t <;> rfl

end Task

/-! ### Neighbours -/

/-- Of two tasks in order, the one in front has no value, or neither has an outcome, or the outcome of the one
in front is not the greater one. -/
lemma Task.outcome?_of_compare (h : SortKey.compare ⟨p, .asc⟩ today a b ≠ .gt) :
    a.field today p = .absent ∨
    a.outcome? today p v = none ∧ b.outcome? today p v = none ∨
    ∃ front back, a.outcome? today p v = some front ∧ b.outcome? today p v = some back ∧
      (back = .lt → front = .lt) ∧ (front = .gt → back = .gt) := by
  let scale := Scale.of today p
  have horder : compare (scale.value a) (scale.value b) ≠ .gt := scale.order_eq a b ▸ h
  rw [outcome?, outcome?, scale.compare?_eq, scale.compare?_eq]
  cases hx : scale.value a with
  | none => exact .inl (scale.absent_of_none a hx)
  | some x =>
    cases hy : scale.value b with
    | none =>
      rw [hx, hy] at horder
      exact absurd rfl horder
    | some y =>
      cases hm : scale.mark v with
      | none => exact .inr (.inl ⟨rfl, rfl⟩)
      | some m =>
        rw [hx, hy] at horder
        have hle : (compare x y).isLE = true := Ordering.isLE_iff_ne_gt.2 horder
        refine .inr (.inr ⟨compare x m, compare y m, rfl, rfl, Std.TransCmp.lt_of_isLE_of_lt hle, fun hgt => ?_⟩)
        have hlt : compare m x = .lt := Std.OrientedCmp.lt_of_gt hgt
        exact Std.OrientedCmp.gt_of_lt (Std.TransCmp.lt_of_lt_of_isLE hlt hle)

/-- **Ranges follow the order.** Of two tasks in the order by a filter property, the one in front is below
every operand that the one behind is below, unless it has no value, and the one behind is above every operand
that the one in front is above. Where the property is not a set of names, a task that has a value and an
operand that such values are compared with stand in one of three ways, and every other task passes none of
the five comparisons. -/
theorem Property.ranges_follow_order (p : Property) (hp : p.isFilter = true) (v : Operand) (today : Date) :
    (∀ a b, SortKey.compare ⟨p, .asc⟩ today a b ≠ .gt →
      (b.Passes today p .lt v → a.Passes today p .lt v ∨ a.field today p = .absent) ∧
      (b.Passes today p .le v → a.Passes today p .le v ∨ a.field today p = .absent) ∧
      (a.Passes today p .gt v → b.Passes today p .gt v) ∧
      (a.Passes today p .ge v → b.Passes today p .ge v)) ∧
    (p.holdsNames = false → ∀ t : Task,
      (t.field today p ≠ .absent ∧ p.ComparesWith v ∧
        (t.Passes today p .lt v ∧ ¬t.Passes today p .eq v ∧ ¬t.Passes today p .gt v ∨
          ¬t.Passes today p .lt v ∧ t.Passes today p .eq v ∧ ¬t.Passes today p .gt v ∨
          ¬t.Passes today p .lt v ∧ ¬t.Passes today p .eq v ∧ t.Passes today p .gt v) ∧
        (t.Passes today p .le v ↔ t.Passes today p .lt v ∨ t.Passes today p .eq v) ∧
        (t.Passes today p .ge v ↔ t.Passes today p .gt v ∨ t.Passes today p .eq v)) ∨
      ((t.field today p = .absent ∨ ¬p.ComparesWith v) ∧
        ∀ operator ∈ [.lt, .le, .eq, .ge, .gt], ¬t.Passes today p operator v)) := by
  constructor
  · intro a b hab
    simp (disch := decide) only [Task.passes_range hp]
    rcases Task.outcome?_of_compare (v := v) hab with habsent | ⟨ha, hb⟩ | ⟨front, back, ha, hb, hlt, hgt⟩
    · simp [habsent, Task.outcome?_of_absent habsent]
    · simp [ha, hb]
    · rw [ha, hb]
      cases front <;> cases back <;> simp [Operator.accepts] at hlt hgt ⊢
  · intro hnames t
    simp (disch := decide) only [List.forall_mem_cons, Task.passes_range hp, Task.passes_eq hp hnames]
    have hiff : t.outcome? today p v = none ↔ _ := Task.outcome?_eq_none_iff hp hnames
    cases houtcome : t.outcome? today p v with
    | none =>
      refine .inr ⟨hiff.1 houtcome, ?_⟩
      simp
    | some outcome =>
      rw [houtcome] at hiff
      have hcompared : t.field today p ≠ .absent ∧ p.ComparesWith v := by
        simpa [not_or] using hiff
      refine .inl ⟨hcompared.1, hcompared.2, ?_⟩
      cases outcome <;> simp [Operator.accepts]

/-- Two tasks with serials up to the operand, and one without a serial. -/
theorem Property.ranges_follow_order_serial :
    let today : Date := ⟨2026, 3, 1, by decide⟩
    let cedar : ShardKey := ⟨"cedar", by decide, by decide⟩
    let task (id : TaskId) (serial : Option UInt32) : Task := { Task.fresh cedar id today with serial }
    let v : Operand := .number 4
    SortKey.compare ⟨.serial, .asc⟩ today (task 8 (some 3)) (task 6 (some 4)) ≠ .gt ∧
      (task 6 (some 4)).Passes today .serial .le v ∧ (task 8 (some 3)).Passes today .serial .le v ∧
      ((task 8 (some 3)).Passes today .serial .lt v ∧ ¬(task 8 (some 3)).Passes today .serial .eq v) ∧
      ¬(task 2 none).Passes today .serial .le v := by
  intro today cedar task v
  obtain ⟨hranges, hways⟩ := Property.ranges_follow_order .serial rfl v today
  have horder : SortKey.compare ⟨.serial, .asc⟩ today (task 8 (some 3)) (task 6 (some 4)) ≠ .gt := by decide
  have hfourth : (task 6 (some 4)).Passes today .serial .le v := by decide
  have hthird : (task 8 (some 3)).Passes today .serial .lt v := by decide
  refine ⟨horder, hfourth, ?_, ⟨hthird, ?_⟩, ?_⟩
  · exact ((hranges _ _ horder).2.1 hfourth).resolve_right nofun
  · rcases hways rfl (task 8 (some 3)) with ⟨-, -, hthree, -⟩ | ⟨habsent | hkind, -⟩
    · exact (hthree.resolve_right fun h => h.elim (fun h => h.1 hthird) fun h => h.1 hthird).2.1
    · cases habsent
    · exact absurd (by decide) hkind
  · rcases hways rfl (task 2 none) with ⟨hpresent, -⟩ | ⟨-, hnone⟩
    · exact absurd rfl hpresent
    · exact hnone _ (by decide)

end TaskIndex
