/-!
Cutting a text at the first occurrence of a token, and at every occurrence of a character.
-/

namespace TaskIndex.Text

/-- What follows `token` when the text begins with it. -/
def after? {α : Type} [DecidableEq α] : (token text : List α) → Option (List α)
  | [], text => some text
  | _ :: _, [] => none
  | t :: token, c :: text => if t = c then after? token text else none

/-- The parts before and after the first occurrence of `token`. -/
def cut? {α : Type} [DecidableEq α] (token : List α) : List α → Option (List α × List α)
  | [] => (after? token []).map fun rest => ([], rest)
  | c :: text =>
    match after? token (c :: text) with
    | some rest => some ([], rest)
    | none => (cut? token text).map fun (front, rest) => (c :: front, rest)

/-- The text holds `token` somewhere. -/
def holds {α : Type} [DecidableEq α] (token text : List α) : Bool :=
  (cut? token text).isSome

/-- The pieces between the occurrences of `sep`; a text without any is its own single piece. -/
def pieces {α : Type} [DecidableEq α] (sep : α) : List α → List (List α)
  | [] => [[]]
  | c :: text =>
    if c = sep then [] :: pieces sep text
    else
      match pieces sep text with
      | [] => [[c]]
      | piece :: rest => (c :: piece) :: rest

/-- Pieces joined by a separator. -/
def join {α : Type} (sep : α) : List (List α) → List α
  | [] => []
  | [piece] => piece
  | piece :: rest => piece ++ sep :: join sep rest

theorem after?_eq_some_iff {α : Type} [DecidableEq α] {token text rest : List α} :
    after? token text = some rest ↔ text = token ++ rest := by
  induction token generalizing text with
  | nil => simp [after?, eq_comm]
  | cons t token ih =>
    cases text with
    | nil => simp [after?]
    | cons c text =>
      by_cases h : t = c
      · simp [after?, h, ih]
      · simp [after?, h, Ne.symm h]

/-- A cut loses nothing. -/
theorem eq_of_cut? {α : Type} [DecidableEq α] {token text front rest : List α}
    (h : cut? token text = some (front, rest)) : text = front ++ token ++ rest := by
  induction text generalizing front with
  | nil =>
    simp only [cut?, Option.map_eq_some_iff] at h
    obtain ⟨r, hr, he⟩ := h
    rw [after?_eq_some_iff] at hr
    grind
  | cons c text ih =>
    simp only [cut?] at h
    split at h
    next r hr =>
      rw [after?_eq_some_iff] at hr
      grind
    next hr =>
      simp only [Option.map_eq_some_iff] at h
      obtain ⟨⟨f, r⟩, hc, he⟩ := h
      simp only [Prod.mk.injEq] at he
      obtain ⟨rfl, rfl⟩ := he
      rw [ih hc]
      rfl

end TaskIndex.Text
