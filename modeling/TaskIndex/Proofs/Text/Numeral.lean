import Mathlib.Algebra.Group.Nat.Defs
import Mathlib.Algebra.Ring.Int.Defs
import TaskIndex.Text.Numeral

/-!
Decimal numerals, read back.

A numeral is written by a run of digits, and a reader of digits takes the run for the number it came from,
also with zeros in front. So padded parts of a known width can stand one after the other without a mark
between them.
-/

namespace TaskIndex.Text

variable {c : Char} {cs ds rest : List Char} {n width : Nat}

/-! ### Runs of digits -/

lemma digit?_of_isDigit (h : c.isDigit) : digit? c = some (c.toNat - '0'.toNat) := by
  have hc := Char.isDigit_iff_toNat.1 h
  exact if_pos hc

/-- A run of digits is read as the number it stands for, behind what is read already. -/
lemma readDigits_eq (n : Nat) (h : ∀ c ∈ ds, c.isDigit) :
    readDigits n ds = some (Nat.ofDigitChars 10 ds n) := by
  induction ds generalizing n with
  | nil => rfl
  | cons c ds ih =>
    simp only [readDigits, digit?_of_isDigit (h c List.mem_cons_self), Nat.ofDigitChars_cons]
    exact ih _ fun d hd => h d (List.mem_cons_of_mem c hd)

lemma le_ofDigitChars (n : Nat) (ds : List Char) : n ≤ Nat.ofDigitChars 10 ds n := by
  induction ds generalizing n with
  | nil => exact Nat.le_refl n
  | cons c ds ih =>
    rw [Nat.ofDigitChars_cons]
    exact Nat.le_trans (by omega) (ih _)

lemma isDigit_of_mem_toDigits (h : c ∈ Nat.toDigits 10 n) : c.isDigit :=
  Nat.isDigit_of_mem_toDigits (by decide) (Nat.le_refl 10) h

lemma eq_zero_of_toDigits_eq_zero_cons (h : Nat.toDigits 10 n = '0' :: ds) : n = 0 := by
  induction n using Nat.strongRecOn generalizing ds with
  | _ n ih =>
    rw [Nat.toDigits_eq_if (by decide)] at h
    split at h
    · next hlt =>
      have hzero : n.digitChar = '0' := (List.cons.inj h).1
      exact Nat.digitChar_eq_zero.1 hzero
    · next hle =>
      obtain ⟨d, l, hl⟩ := List.exists_cons_of_ne_nil (Nat.toDigits_ne_nil (n := n / 10) (b := 10))
      rw [hl, List.cons_append] at h
      obtain ⟨rfl, -⟩ := List.cons.inj h
      have hquot := ih (n / 10) (by omega) hl
      omega

/-! ### Padded numerals -/

lemma isDigit_of_mem_padded (h : c ∈ padded width n) : c.isDigit := by
  rcases List.mem_append.1 h with h | h
  · rw [List.eq_of_mem_replicate h]
    rfl
  · exact isDigit_of_mem_toDigits h

@[simp] lemma readDigits_padded (width n : Nat) : readDigits 0 (padded width n) = some n := by
  rw [readDigits_eq 0 fun c => isDigit_of_mem_padded, padded, Nat.ofDigitChars_append,
    Nat.ofDigitChars_replicate_zero, Nat.mul_zero, Nat.ofDigitChars_ten_toDigits]

lemma length_padded (hwidth : 0 < width) (h : n < 10 ^ width) : (padded width n).length = width := by
  have hle : (Nat.toDigits 10 n).length ≤ width := (Nat.length_toDigits_le_iff (by decide) hwidth).2 h
  rw [padded, List.length_append, List.length_replicate]
  omega

lemma takeExactly?_append (ds rest : List Char) :
    takeExactly? ds.length (ds ++ rest) = some (ds, rest) := by
  simp [takeExactly?]

/-- A padded numeral that fits its width is read back, whatever stands behind it. -/
lemma takeDigits?_padded_append (width : Nat) (hwidth : 0 < width) (h : n < 10 ^ width) (rest : List Char) :
    takeDigits? width (padded width n ++ rest) = some (n, rest) := by
  have htake := takeExactly?_append (padded width n) rest
  rw [length_padded hwidth h] at htake
  simp [takeDigits?, htake]

/-! ### Signs -/

lemma ne_sign_of_isDigit (h : c.isDigit) : c ≠ '-' ∧ c ≠ '+' := by
  constructor <;> rintro rfl <;> cases h

lemma natural?_toDigits (n : Nat) : natural? (Nat.toDigits 10 n) = some n := by
  obtain ⟨d, ds, hds⟩ := List.exists_cons_of_ne_nil (Nat.toDigits_ne_nil (n := n) (b := 10))
  have hread := readDigits_eq 0 fun c (hc : c ∈ Nat.toDigits 10 n) => isDigit_of_mem_toDigits hc
  rw [Nat.ofDigitChars_ten_toDigits, hds] at hread
  rw [hds, natural?, hread]

lemma integer?_ofInt (n : Int) : integer? (ofInt n) = some n := by
  unfold ofInt
  split
  · next hneg =>
    have habs : -(n.natAbs : Int) = n := by omega
    rw [integer?, natural?_toDigits]
    exact congrArg some habs
  · next hnonneg =>
    obtain ⟨d, ds, hds⟩ := List.exists_cons_of_ne_nil (Nat.toDigits_ne_nil (n := n.natAbs) (b := 10))
    have hdigit : d.isDigit := isDigit_of_mem_toDigits (hds ▸ List.mem_cons_self)
    obtain ⟨hminus, hplus⟩ := ne_sign_of_isDigit hdigit
    have hread := natural?_toDigits n.natAbs
    rw [hds] at hread
    rw [hds]
    unfold integer?
    split
    · next heq => exact absurd (List.cons.inj heq).1 hminus
    · next heq => exact absurd (List.cons.inj heq).1 hplus
    · rw [hread, Option.map_some]
      exact congrArg some (Int.natAbs_of_nonneg (Int.not_lt.1 hnonneg))

lemma int64?_ofInt (n : Int64) : int64? (String.ofList (ofInt n.toInt)) = some n := by
  rw [int64?, String.toList_ofList, integer?_ofInt]
  exact (if_pos ⟨n.minValue_le_toInt, n.toInt_le⟩).trans (congrArg some n.ofInt_toInt)

lemma mem_ofInt {n : Int} (h : c ∈ ofInt n) : c.isDigit ∨ c = '-' := by
  unfold ofInt at h
  split at h
  · rcases List.mem_cons.1 h with rfl | h
    · exact .inr rfl
    · exact .inl (isDigit_of_mem_toDigits h)
  · exact .inl (isDigit_of_mem_toDigits h)

end TaskIndex.Text
