import Mathlib.Data.List.Infix
import TaskIndex.Text.Split

/-!
Where a text is cut.

A token cuts a text where it occurs first, so what stands in front of that place can be put there or taken
away without any effect on the cut. Pieces that do not hold the separator are found again once they are
joined.
-/

namespace TaskIndex.Text

variable {α : Type} [DecidableEq α] {sep : α} {token front text : List α}

/-! ### The first occurrence -/

lemma after?_eq_none_iff : after? token text = none ↔ ¬token <+: text := by
  rw [Option.eq_none_iff_forall_ne_some]
  constructor
  · rintro h ⟨rest, hrest⟩
    exact h rest (after?_eq_some_iff.2 hrest.symm)
  · intro h rest hrest
    exact h ⟨rest, (after?_eq_some_iff.1 hrest).symm⟩

lemma cut?_eq_none_iff : cut? token text = none ↔ ¬token <:+: text := by
  induction text with
  | nil => rw [cut?, Option.map_eq_none_iff, after?_eq_none_iff, List.prefix_nil, List.infix_nil]
  | cons c text ih =>
    rw [List.infix_cons_iff, not_or, ← ih, ← after?_eq_none_iff, cut?]
    cases after? token (c :: text) <;> simp

lemma cut?_append_self (token rest : List α) : cut? token (token ++ rest) = some ([], rest) := by
  have hafter : after? token (token ++ rest) = some rest := after?_eq_some_iff.2 rfl
  cases htext : token ++ rest with
  | nil => rw [htext] at hafter; simp [cut?, hafter]
  | cons c text => rw [htext] at hafter; simp [cut?, hafter]

/-- The token does not begin inside the part that stands in front of the text. -/
def BeginsBehind (token front text : List α) : Prop :=
  ∀ before inside, front = before ++ inside → inside ≠ [] → ¬token <+: inside ++ text

omit [DecidableEq α] in
lemma BeginsBehind.tail {c : α} (h : BeginsBehind token (c :: front) text) :
    BeginsBehind token front text := by
  rintro before inside rfl
  exact h (c :: before) inside rfl

/-- What the token does not begin in is no matter for the cut. -/
lemma cut?_append (h : BeginsBehind token front text) :
    cut? token (front ++ text) = (cut? token text).map fun parts => (front ++ parts.1, parts.2) := by
  induction front with
  | nil => simp
  | cons c front ih =>
    have hnone : after? token (c :: (front ++ text)) = none :=
      after?_eq_none_iff.2 (h [] (c :: front) rfl (List.cons_ne_nil c front))
    rw [List.cons_append, cut?, hnone, ih h.tail, Option.map_map]
    rfl

lemma cut?_singleton_append {c : α} (h : c ∉ front) (rest : List α) :
    cut? [c] (front ++ c :: rest) = some (front, rest) := by
  have hbehind : BeginsBehind [c] front (c :: rest) := by
    rintro before inside rfl hne hbegins
    obtain ⟨d, inside, rfl⟩ := List.exists_cons_of_ne_nil hne
    rw [List.cons_append, List.cons_prefix_cons] at hbegins
    exact h (by simp [hbegins.1])
  have hself := cut?_append_self [c] rest
  rw [List.singleton_append] at hself
  rw [cut?_append hbehind, hself, Option.map_some, List.append_nil]

/-! ### Pieces -/

omit [DecidableEq α] in
lemma join_cons_cons (sep : α) (piece next : List α) (ps : List (List α)) :
    join sep (piece :: next :: ps) = piece ++ sep :: join sep (next :: ps) := rfl

/-- A piece without the separator is found up to the separator behind it. -/
lemma pieces_append {piece : List α} (h : sep ∉ piece) (rest : List α) :
    pieces sep (piece ++ sep :: rest) = piece :: pieces sep rest := by
  induction piece with
  | nil => simp [pieces]
  | cons c piece ih =>
    obtain ⟨hc, hpiece⟩ := not_or.1 fun hor => h (List.mem_cons.2 hor)
    rw [List.cons_append, pieces, if_neg (Ne.symm hc), ih hpiece]

lemma pieces_of_notMem {piece : List α} (h : sep ∉ piece) : pieces sep piece = [piece] := by
  induction piece with
  | nil => rfl
  | cons c piece ih =>
    obtain ⟨hc, hpiece⟩ := not_or.1 fun hor => h (List.mem_cons.2 hor)
    rw [pieces, if_neg (Ne.symm hc), ih hpiece]

lemma pieces_join {ps : List (List α)} (hne : ps ≠ []) (h : ∀ piece ∈ ps, sep ∉ piece) :
    pieces sep (join sep ps) = ps := by
  induction ps with
  | nil => exact absurd rfl hne
  | cons piece ps ih =>
    obtain ⟨hpiece, hps⟩ := List.forall_mem_cons.1 h
    cases ps with
    | nil => exact pieces_of_notMem hpiece
    | cons next ps => rw [join_cons_cons, pieces_append hpiece, ih (List.cons_ne_nil next ps) hps]

omit [DecidableEq α] in
lemma mem_join {ps : List (List α)} {c : α} (h : c ∈ join sep ps) : c = sep ∨ ∃ piece ∈ ps, c ∈ piece := by
  induction ps with
  | nil => cases h
  | cons piece ps ih =>
    cases ps with
    | nil => exact .inr ⟨piece, List.mem_cons_self, h⟩
    | cons next ps =>
      rw [join_cons_cons, List.mem_append, List.mem_cons] at h
      rcases h with h | rfl | h
      · exact .inr ⟨piece, List.mem_cons_self, h⟩
      · exact .inl rfl
      · refine (ih h).imp_right fun ⟨p, hp, hc⟩ => ⟨p, List.mem_cons_of_mem piece hp, hc⟩

end TaskIndex.Text
