import TaskIndex.Calendar.DateText
import TaskIndex.Proofs.Text.Numeral

/-!
Days, written and read back.

Every part of a written day has a known width, so the three are found again by counting. A sign stands only
in front of a negative year, and the digit in front of the others is no sign.
-/

namespace TaskIndex

variable {year : Int} {month day : Nat}

namespace IsDay

lemma natAbs_year_lt (h : IsDay year month day) : year.natAbs < 10 ^ 4 := by
  obtain ⟨hlow, hhigh, -⟩ := h
  omega

lemma month_lt (h : IsDay year month day) : month < 10 ^ 2 := by
  obtain ⟨-, -, hpos, hle⟩ := h
  by_contra hbig
  have hnone : daysInMonth year month = 0 := by
    unfold daysInMonth
    split <;> omega
  omega

lemma day_lt (h : IsDay year month day) : day < 10 ^ 2 := by
  obtain ⟨-, -, -, hle⟩ := h
  have hmonth : daysInMonth year month ≤ 31 := by
    unfold daysInMonth
    split
    -- February
    case h_12 => split <;> omega
    all_goals omega
  omega

end IsDay

namespace Date

lemma of?_parts (d : Date) : of? d.year d.month d.day = some d := dif_pos d.isDay

/-- A written day without its sign is read back as the day whose year has that sign. -/
lemma readUnsigned?_padded (d : Date) (negative : Bool) :
    readUnsigned? negative (Text.padded 4 d.year.natAbs ++
        '-' :: Text.padded 2 d.month ++ '-' :: Text.padded 2 d.day) =
      of? (if negative then -(d.year.natAbs : Int) else d.year.natAbs) d.month d.day := by
  have hday := Text.takeDigits?_padded_append 2 (by decide) d.isDay.day_lt []
  rw [List.append_nil] at hday
  simp only [readUnsigned?, List.append_assoc, List.cons_append,
    Text.takeDigits?_padded_append 4 (by decide) d.isDay.natAbs_year_lt,
    Text.takeDigits?_padded_append 2 (by decide) d.isDay.month_lt, hday]

lemma read?_of_isDigit {c : Char} {cs : List Char} (h : c.isDigit) :
    read? (c :: cs) = readUnsigned? false (c :: cs) := by
  obtain ⟨hminus, hplus⟩ := Text.ne_sign_of_isDigit h
  simp [read?, hminus, hplus]

/-- **Days in writing**: a written day is read back as the day it was. -/
theorem ofText?_text (d : Date) : ofText? d.text = some d := by
  rw [ofText?, text, String.toList_ofList, chars]
  by_cases hneg : d.year < 0
  · have habs : -(d.year.natAbs : Int) = d.year := by omega
    rw [if_pos hneg, List.cons_append, List.cons_append, read?, readUnsigned?_padded, if_pos rfl, habs,
      of?_parts]
  · have habs : (d.year.natAbs : Int) = d.year := by omega
    obtain ⟨c, cs, hc⟩ : ∃ c cs, Text.padded 4 d.year.natAbs = c :: cs := by
      refine List.exists_cons_of_ne_nil (List.ne_nil_of_length_pos ?_)
      rw [Text.length_padded (by decide) d.isDay.natAbs_year_lt]
      decide
    have hdigit : c.isDigit := Text.isDigit_of_mem_padded (hc ▸ List.mem_cons_self)
    have hread := readUnsigned?_padded d false
    rw [hc, List.cons_append, List.cons_append, if_neg Bool.false_ne_true, habs, of?_parts] at hread
    rw [if_neg hneg, hc, List.cons_append, List.cons_append, read?_of_isDigit hdigit, hread]

lemma mem_chars {d : Date} {c : Char} (h : c ∈ d.chars) : c.isDigit ∨ c = '-' := by
  have hpadded : ∀ {width n : Nat}, c ∈ Text.padded width n → c.isDigit ∨ c = '-' :=
    fun h => .inl (Text.isDigit_of_mem_padded h)
  rw [chars, List.append_assoc, List.mem_append] at h
  rcases h with h | h
  · split at h
    · exact (List.mem_cons.1 h).elim .inr hpadded
    · exact hpadded h
  · rw [List.cons_append, List.mem_cons, List.mem_append, List.mem_cons] at h
    rcases h with h | h | h | h
    · exact .inr h
    · exact hpadded h
    · exact .inr h
    · exact hpadded h

end Date

end TaskIndex
