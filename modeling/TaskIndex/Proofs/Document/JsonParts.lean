import TaskIndex.Document.Json
import TaskIndex.Document.JsonText
import TaskIndex.Proofs.Text.Numeral
import TaskIndex.Text.Blank

/-!
The parts of a JSON text, written and read back: the blanks between the parts, quoted texts and numerals.

A part is read as what it was and the rest of the text is left over. A quoted text ends at its quote, whatever
stands behind it. A numeral does not say where it ends; it is read back whenever the rest does not go on with
it.
-/

namespace TaskIndex.Json

open Document (escaped quoted hexDigit newLine)

variable {c : Char} {cs ds rest blanks : List Char} {fuel level : Nat} {n : Int} {d : Document} {long : Bool}

/-! ### Blanks between the parts -/

def isGap (c : Char) : Bool := c = ' ' || c = '\n' || c = '\t' || c = '\r'

lemma skipBlanks_eq (cs : List Char) : skipBlanks cs = cs.dropWhile isGap := rfl

lemma skipBlanks_cons (hc : isGap c = false) (cs : List Char) : skipBlanks (c :: cs) = c :: cs := by
  simp [skipBlanks_eq, hc]

lemma skipBlanks_append_cons (hblanks : ∀ b ∈ blanks, isGap b) (hc : isGap c = false) (cs : List Char) :
    skipBlanks (blanks ++ c :: cs) = c :: cs := by
  rw [skipBlanks_eq, List.dropWhile_append_of_pos hblanks]
  exact skipBlanks_cons hc cs

lemma isGap_newLine (long : Bool) (level : Nat) : ∀ b ∈ if long then newLine level else [], isGap b := by
  intro b hb
  cases long with
  | false => simp at hb
  | true =>
    rcases List.mem_cons.1 hb with rfl | hb
    · rfl
    · rw [List.eq_of_mem_replicate hb]
      rfl

/-! ### Quoted texts -/

lemma hexDigit?_hexDigit {n : Nat} (h : n < 16) : Text.hexDigit? (hexDigit n) = some n := by
  revert n
  decide

lemma readBase_hexDigit {n : Nat} (h : n < 16) (m : Nat) (cs : List Char) :
    Text.readBase 16 m (hexDigit n :: cs) = Text.readBase 16 (16 * m + n) cs := by
  simp [Text.readBase, hexDigit?_hexDigit h, Option.filter_some, h]

lemma escapedUnit?_hexDigit {n : Nat} (h : n < 0x20) (rest : List Char) :
    escapedUnit? ('0' :: '0' :: hexDigit (n / 16) :: hexDigit (n % 16) :: rest) =
      some (Char.ofNat n, rest) := by
  have hread : Text.readBase 16 0 ['0', '0', hexDigit (n / 16), hexDigit (n % 16)] = some n := by
    rw [show '0' = hexDigit 0 from rfl, readBase_hexDigit (by decide), readBase_hexDigit (by decide),
      readBase_hexDigit (by omega), readBase_hexDigit (by omega), Text.readBase]
    congr 1
    omega
  have hunit : unit? ('0' :: '0' :: hexDigit (n / 16) :: hexDigit (n % 16) :: rest) = some (n, rest) := by
    simp [unit?, Text.takeExactly?, hread]
  rw [escapedUnit?, hunit]
  simp only
  rw [if_neg (by omega), if_neg (by omega)]

/-- One step reads one written character. -/
lemma quotedRest_escaped (acc : List Char) (fuel : Nat) (c : Char) (rest : List Char) :
    quotedRest acc (fuel + 1) (escaped c ++ rest) = quotedRest (c :: acc) fuel rest := by
  unfold escaped
  split
  case h_8 hquote hslash _ _ _ _ _ =>
    split
    · next hlow =>
      simp only [List.cons_append, List.nil_append, quotedRest, escapedUnit?_hexDigit hlow,
        Option.bind_some, Char.ofNat_toNat]
    · next hhigh =>
      rw [List.singleton_append, quotedRest]
      · rw [if_neg hhigh]
      -- neither the quote nor the backslash stands as it is
      all_goals simp_all
  -- the short escapes
  all_goals rfl

lemma quotedRest_flatMap (acc : List Char) (h : cs.length < fuel) (rest : List Char) :
    quotedRest acc fuel (cs.flatMap escaped ++ '"' :: rest) =
      some (String.ofList (acc.reverse ++ cs), rest) := by
  induction cs generalizing acc fuel with
  | nil =>
    obtain ⟨fuel, rfl⟩ := Nat.exists_eq_succ_of_ne_zero (Nat.ne_zero_of_lt h)
    simp [quotedRest]
  | cons c cs ih =>
    obtain ⟨fuel, rfl⟩ := Nat.exists_eq_succ_of_ne_zero (Nat.ne_zero_of_lt h)
    rw [List.flatMap_cons, List.append_assoc, quotedRest_escaped, ih _ (by simpa using h)]
    simp

lemma length_le_flatMap_escaped (cs : List Char) : cs.length ≤ (cs.flatMap escaped).length := by
  induction cs with
  | nil => exact Nat.le_refl 0
  | cons c cs ih =>
    have hpos : 0 < (escaped c).length := by
      unfold escaped
      split
      case h_8 => split <;> exact Nat.succ_pos _
      all_goals exact Nat.succ_pos _
    rw [List.flatMap_cons, List.length_append, List.length_cons]
    omega

lemma quoted_append (s : String) (rest : List Char) :
    quoted s ++ rest = '"' :: (s.toList.flatMap escaped ++ '"' :: rest) := by
  simp [quoted]

lemma quotedRest_toList (s : String) (rest : List Char) :
    quotedRest [] ((s.toList.flatMap escaped ++ '"' :: rest).length + 1)
      (s.toList.flatMap escaped ++ '"' :: rest) = some (s, rest) := by
  have hle := length_le_flatMap_escaped s.toList
  rw [quotedRest_flatMap [] (by rw [List.length_append]; omega)]
  simp

/-! ### Numerals -/

def continuesNumeral (c : Char) : Bool := c.isDigit || c = '.' || c = 'e' || c = 'E'

lemma digits_append (hds : ∀ c ∈ ds, c.isDigit) (hrest : Text.Headless continuesNumeral rest) :
    digits (ds ++ rest) = (ds, rest) := by
  have hnone : Text.Headless Char.isDigit rest := by
    intro c hc
    have hcontinues := hrest c hc
    simp only [continuesNumeral, Bool.or_eq_false_iff] at hcontinues
    exact hcontinues.1.1.1
  have htake : rest.takeWhile Char.isDigit = [] := by
    cases rest with
    | nil => rfl
    | cons c cs => simp [List.takeWhile, hnone c rfl]
  rw [digits, List.takeWhile_append_of_pos hds, List.dropWhile_append_of_pos hds, htake,
    Text.dropWhile_of_headless hnone, List.append_nil]

lemma fraction?_of_headless (h : Text.Headless continuesNumeral rest) :
    fraction? rest = some (none, rest) := by
  unfold fraction?
  split
  · cases h '.' rfl
  · rfl

lemma exponent?_of_headless (h : Text.Headless continuesNumeral rest) :
    exponent? rest = some (none, rest) := by
  unfold exponent?
  split
  · cases h 'e' rfl
  · cases h 'E' rfl
  · rfl

/-- As long as the word holds the number of all digits, every one of them counts. -/
lemma Significand.add_digits (s : Significand) (hds : ∀ c ∈ ds, c.isDigit)
    (hword : Nat.ofDigitChars 10 ds s.word < UInt64.size) :
    s.add ds = ⟨Nat.ofDigitChars 10 ds s.word, s.taken + ds.length, s.dropped⟩ := by
  induction ds generalizing s with
  | nil => rfl
  | cons c ds ih =>
    rw [Nat.ofDigitChars_cons] at hword
    have hfits := Nat.lt_of_le_of_lt (Text.le_ofDigitChars _ ds) hword
    have hrest := ih ⟨10 * s.word + (c.toNat - '0'.toNat), s.taken + 1, s.dropped⟩
      (fun d hd => hds d (List.mem_cons_of_mem c hd)) hword
    simp only [Significand.add, Text.digit?_of_isDigit (hds c List.mem_cons_self), if_pos hfits, hrest,
      Nat.ofDigitChars_cons, List.length_cons]
    congr 1
    omega

lemma Significand.add_toDigits {n : Nat} (h : n < UInt64.size) :
    Significand.add {} (Nat.toDigits 10 n) = ⟨n, (Nat.toDigits 10 n).length, 0⟩ := by
  have hword : Nat.ofDigitChars 10 (Nat.toDigits 10 n) 0 = n := Nat.ofDigitChars_ten_toDigits
  rw [Significand.add_digits {} (fun c => Text.isDigit_of_mem_toDigits) (by rwa [hword]), hword,
    Nat.zero_add]

lemma number?_toDigits {negative : Bool} {m : Nat} (hm : m < UInt64.size) (hword : word? negative m = some d)
    (hrest : Text.Headless continuesNumeral rest) :
    number? ((if negative then ['-'] else []) ++ (Nat.toDigits 10 m ++ rest)) = some (d, rest) := by
  have hdigits := digits_append (fun c => Text.isDigit_of_mem_toDigits (n := m)) hrest
  have hplain := Significand.add_toDigits hm
  obtain ⟨c, l, hl⟩ := List.exists_cons_of_ne_nil (Nat.toDigits_ne_nil (n := m) (b := 10))
  have hminus : c ≠ '-' := (Text.ne_sign_of_isDigit (Text.isDigit_of_mem_toDigits
    (hl ▸ List.mem_cons_self))).1
  have hzero : c = '0' → l = [] := by
    rintro rfl
    rw [Text.eq_zero_of_toDigits_eq_zero_cons hl, Nat.toDigits_zero] at hl
    exact (List.cons.inj hl).2.symm
  rw [hl] at hdigits hplain ⊢
  unfold number?
  split
  next negative' cs hsign =>
    obtain ⟨rfl, rfl⟩ : negative' = negative ∧ cs = c :: l ++ rest := by
      cases negative <;> simp_all
    rw [hdigits]
    split
    · next heq => cases heq
    · next heq =>
      obtain ⟨rfl, rfl⟩ := List.cons.inj (Prod.mk.inj heq).1
      cases hzero rfl
    · next heq =>
      obtain ⟨rfl, rfl⟩ := Prod.mk.inj heq
      simp [fraction?_of_headless hrest, exponent?_of_headless hrest, hplain, hword]

/-- **Numerals**: what a word can hold is read back, unless the rest goes on with it. -/
theorem number?_ofInt (hlow : -2 ^ 63 ≤ n) (hhigh : n < 2 ^ 64)
    (hrest : Text.Headless continuesNumeral rest) :
    number? (Text.ofInt n ++ rest) = some (.integer n, rest) := by
  have hsize : UInt64.size = 2 ^ 64 := rfl
  by_cases hneg : n < 0
  · have hword : word? true n.natAbs = some (.integer n) := by
      have hbound : ¬(n.natAbs = 0 ∨ 1 <<< 63 < n.natAbs) := by
        rw [Nat.one_shiftLeft]
        omega
      rw [word?, if_pos rfl, if_neg hbound]
      congr 2
      omega
    rw [Text.ofInt, if_pos hneg]
    exact number?_toDigits (by omega) hword hrest
  · have hword : word? false n.natAbs = some (.integer n) := by
      rw [word?, if_neg Bool.false_ne_true]
      congr 2
      omega
    rw [Text.ofInt, if_neg hneg]
    exact number?_toDigits (by omega) hword hrest

end TaskIndex.Json
