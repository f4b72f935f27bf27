import Mathlib.Data.List.Forall2
import TaskIndex.Proofs.Calendar.DateText
import TaskIndex.Proofs.Query.FirstOperator
import TaskIndex.Query.Spelling

/-!
Spelled predicates are read back.

Names, numerals, days and sort keys are plain characters throughout, and a text or a shard key can be spelled
as long as it holds no comma and no character of a token but the exclamation mark. So the operator of a
spelled predicate is its first one, nothing that is looked for earlier stands behind it, and the commas
between the operands are all the commas there are. Blanks around the parts do not change any of that.
-/

namespace TaskIndex

variable {o : Operand} {os : List Operand} {p : Property} {piece : List Char} {pieces : List (List Char)}

open scoped AlongList

/-! ### What can be spelled -/

/-- What no text may hold that is to be spelled: the comma, and the characters one of which every token has. -/
def reserved : List Char := [',', '=', '<', '>', '~']

/-- The operand is a trimmed text without reserved characters, a shard key without them, or neither. -/
def Operand.Spellable : Operand → Prop
  | text s => Text.trim s = s ∧ ∀ c ∈ s.toList, c ∉ reserved
  | shard k => ∀ c ∈ k.text.toList, c ∉ reserved
  | _ => True

def Operand.SpelledBy (o : Operand) (piece : List Char) : Prop := Text.Around o.chars piece

namespace Predicate

/-- There are as many operands as the operator goes with: one for an equality or an inequality, several for
membership and its negation, at least one for all others. Several sort keys are an equality too. -/
def Counted (p : Predicate) : Prop :=
  match p.operator with
  | .eq => p.operands.length = 1 ∨ p.property = .order ∧ 1 ≤ p.operands.length
  | .ne => p.operands.length = 1
  | .within => p.property ≠ .order ∧ 2 ≤ p.operands.length
  | .notWithin => 2 ≤ p.operands.length
  | .lt | .le | .gt | .ge | .contains => 1 ≤ p.operands.length

/-- The predicate has a compact form: its operands are of its property's kind, can be spelled, and are as many
as its operator goes with. -/
structure Spellable (p : Predicate) : Prop where
  counted : p.Counted
  kind : ∀ o ∈ p.operands, o.kind = p.property.kind
  operands : ∀ o ∈ p.operands, o.Spellable

end Predicate

/-! ### Plain characters -/

lemma not_reserved_of_isPlain {c : Char} (h : isPlain c = true) : c ∉ reserved := by
  have hall : ∀ c ∈ reserved, isPlain c = false := by decide
  intro hc
  simp [hall c hc] at h

lemma not_reserved_of_isBlank {c : Char} (h : Text.isBlank c = true) : c ∉ reserved := by
  have hall : ∀ c ∈ reserved, Text.isBlank c = false := by decide
  intro hc
  simp [hall c hc] at h

lemma isPlain_of_isDigit {c : Char} (h : c.isDigit = true) : isPlain c = true := by
  obtain ⟨hlow, hhigh⟩ : 48 ≤ c.toNat ∧ c.toNat ≤ 57 := Char.isDigit_iff_toNat.1 h
  have hblank : Text.isBlank c = false := by
    simp [Text.isBlank]
    omega
  have hoperator : isOperatorChar c = false := by
    have hall : ∀ c ∈ ['!', '=', '<', '>', '~'], c.isDigit = false := by decide
    by_contra hoperator
    rw [Bool.not_eq_false] at hoperator
    simp [hall c (mem_of_isOperatorChar hoperator)] at h
  have hcomma : c ≠ ',' := by
    rintro rfl
    cases h
  simp [isPlain, hblank, hoperator, hcomma]

lemma isPlain_of_numeral {c : Char} (h : c.isDigit ∨ c = '-') : isPlain c = true := by
  rcases h with h | rfl
  · exact isPlain_of_isDigit h
  · decide

lemma SortKey.isPlain_of_mem_chars (k : SortKey) : ∀ c ∈ k.chars, isPlain c = true := by
  intro c hc
  rw [chars, List.mem_append, List.mem_cons] at hc
  rcases hc with hc | rfl | hc
  · exact Property.isPlain_of_ofTyped? k.property.ofTyped?_name c hc
  · decide
  · revert c
    cases k.direction <;> decide

namespace Operand

lemma chars_cases (o : Operand) :
    (∃ s, o = text s) ∨ (∃ k, o = shard k) ∨ ∀ c ∈ o.chars, isPlain c = true := by
  cases o with
  | text s => exact .inl ⟨s, rfl⟩
  | shard k => exact .inr (.inl ⟨k, rfl⟩)
  | number n => exact .inr (.inr fun c hc => isPlain_of_numeral (Text.mem_ofInt hc))
  | date d => exact .inr (.inr fun c hc => isPlain_of_numeral (Date.mem_chars hc))
  | sort k => exact .inr (.inr k.isPlain_of_mem_chars)
  | flag b => exact .inr (.inr (by cases b <;> decide))
  | status s => exact .inr (.inr (by cases s <;> decide))
  | motive m => exact .inr (.inr (by cases m <;> decide))
  | purpose p => exact .inr (.inr (by cases p <;> decide))

lemma Spellable.not_reserved (h : o.Spellable) : ∀ c ∈ o.chars, c ∉ reserved := by
  rcases o.chars_cases with ⟨s, rfl⟩ | ⟨k, rfl⟩ | hplain
  · exact h.2
  · exact h
  · exact fun c hc => not_reserved_of_isPlain (hplain c hc)

lemma Spellable.strip_chars (h : o.Spellable) : Text.strip Text.isBlank o.chars = o.chars := by
  have htrimmed : ∀ s, Text.trim s = s → Text.strip Text.isBlank s.toList = s.toList := by
    intro s hs
    rw [← String.toList_ofList (l := Text.strip Text.isBlank s.toList)]
    exact congrArg String.toList hs
  rcases o.chars_cases with ⟨s, rfl⟩ | ⟨k, rfl⟩ | hplain
  · exact htrimmed s h.1
  · exact htrimmed k.text k.trimmed
  · exact Text.strip_eq_self fun c hc => (isPlain_iff.1 (hplain c hc)).1

end Operand

/-! ### One operand -/

lemma SortKey.parse_chars (k : SortKey) : parse (String.ofList k.chars) = .ok k := by
  have hname : ':' ∉ k.property.name.toList := by cases k.property <;> decide
  have hcut := Text.cut?_singleton_append hname k.direction.name.toList
  have htrim : Text.trim k.property.name = k.property.name := by cases k.property <;> rfl
  simp only [parse, String.toList_ofList, chars, hcut, String.ofList_toList, k.direction.ofName?_name, htrim,
    Property.parse, k.property.ofTyped?_name]
  rfl

namespace Operand

lemma parse_of_spelledBy (hkind : o.kind = p.kind) (ho : o.Spellable) (h : o.SpelledBy piece) :
    parse p (String.ofList piece) = .ok o := by
  have htrim : Text.trim (String.ofList piece) = String.ofList o.chars := by
    rw [Text.trim_ofList, Text.Around.strip_eq h, ho.strip_chars]
  unfold parse
  rw [htrim]
  -- Of the properties only those of the operand's kind are left.
  cases o with
  | text s => cases p <;> cases hkind <;> exact congrArg (Except.ok ∘ text) String.ofList_toList
  | number n =>
    have hread : Text.int64? (String.ofList (chars (number n))) = some n := Text.int64?_ofInt n
    cases p <;> cases hkind <;> simp only [hread] <;> rfl
  | flag b => cases p <;> cases hkind; cases b <;> rfl
  | status s => cases p <;> cases hkind; cases s <;> rfl
  | motive m => cases p <;> cases hkind; cases m <;> rfl
  | purpose q => cases p <;> cases hkind; cases q <;> rfl
  | date d =>
    have hread : Date.ofText? (String.ofList (chars (date d))) = some d := d.ofText?_text
    cases p <;> cases hkind
    simp only [hread]
    rfl
  | shard k =>
    have hread : ShardKey.parse (String.ofList (chars (shard k))) = .ok k := by
      rw [chars, String.ofList_toList, ShardKey.parse, ShardKey.of?_text]
    cases p <;> cases hkind
    simp only [hread]
    rfl
  | sort k =>
    have hread : SortKey.parse (String.ofList (chars (sort k))) = .ok k := k.parse_chars
    cases p <;> cases hkind
    simp only [hread]
    rfl

end Operand

/-! ### The whole predicate -/

def Operator.plain : Operator → Operator
  | .within => .eq
  | .notWithin => .ne
  | operator => operator

lemma Operator.token_plain_mem (operator : Operator) : (operator.token, operator.plain) ∈ operatorTokens := by
  cases operator <;> decide

lemma Property.ofTyped?_trim {word : String} {name : List Char} (hword : ofTyped? word = some p)
    (hname : Text.Around word.toList name) : ofTyped? (Text.trim (String.ofList name)) = some p := by
  have hplain : Text.strip Text.isBlank word.toList = word.toList :=
    Text.strip_eq_self fun c hc => (isPlain_iff.1 (isPlain_of_ofTyped? hword c hc)).1
  rw [Text.trim_ofList, hname.strip_eq, hplain, String.ofList_toList, hword]

namespace Predicate

variable {q : Predicate}

/-- The count of the operands brings the operator back. -/
lemma Counted.widen_eq (h : q.Counted) : widen q.property q.operator.plain q.operands = q.operator := by
  obtain ⟨p, operator, operands⟩ := q
  cases operator with
  | eq =>
    rcases h with h | ⟨rfl, -⟩
    · have hone : operands.length = 1 := h
      simp [widen, Operator.plain, hone]
    · simp [widen, Operator.plain]
  | ne =>
    have hone : operands.length = 1 := h
    simp [widen, Operator.plain, hone]
  | within =>
    obtain ⟨horder, hmany⟩ : p ≠ .order ∧ 2 ≤ operands.length := h
    have hmany : 1 < operands.length := hmany
    simp [widen, Operator.plain, horder, hmany]
  | notWithin =>
    have hmany : 1 < operands.length := h
    simp [widen, Operator.plain, hmany]
  | lt | le | gt | ge | contains => simp [widen, Operator.plain]

lemma Counted.operands_ne_nil (h : q.Counted) : q.operands ≠ [] := by
  obtain ⟨p, operator, operands⟩ := q
  rintro rfl
  cases operator <;> simp [Counted] at h

lemma not_reserved_of_mem_pieces (hpieces : List.Forall₂ Operand.SpelledBy os pieces)
    (hos : ∀ o ∈ os, o.Spellable) : ∀ piece ∈ pieces, ∀ c ∈ piece, c ∉ reserved := by
  induction hpieces with
  | nil => exact List.forall_mem_nil _
  | cons haround _ ih =>
    rw [List.forall_mem_cons] at hos ⊢
    refine ⟨fun c hc => ?_, ih hos.2⟩
    exact (Text.Around.mem haround hc).elim (hos.1.not_reserved c) not_reserved_of_isBlank

lemma not_infix_join (hpieces : ∀ piece ∈ pieces, ∀ c ∈ piece, c ∉ reserved) :
    ∀ t ∈ operatorTokens, ¬t.1 <:+: Text.join ',' pieces := by
  have htable : ∀ t ∈ operatorTokens, ∃ c ∈ t.1, c ∈ reserved ∧ c ≠ ',' := by decide
  intro t ht hstands
  obtain ⟨c, hc, hreserved, hcomma⟩ := htable t ht
  rcases Text.mem_join (hstands.subset hc) with rfl | ⟨piece, hpiece, hc⟩
  · exact hcomma rfl
  · exact hpieces piece hpiece c hc hreserved

lemma mapM_parse_pieces (hpieces : List.Forall₂ Operand.SpelledBy os pieces)
    (hkind : ∀ o ∈ os, o.kind = p.kind) (hos : ∀ o ∈ os, o.Spellable) :
    (pieces.mapM fun piece => Operand.parse p (String.ofList piece)) = .ok os := by
  induction hpieces with
  | nil => rfl
  | cons haround _ ih =>
    rw [List.forall_mem_cons] at hkind hos
    rw [List.mapM_cons, Operand.parse_of_spelledBy hkind.1 hos.1 haround, ih hkind.2 hos.2]
    rfl

/-- A spelled predicate is cut at its own operator. -/
lemma Spellable.dissect?_eq (h : q.Spellable) {word : String} {name : List Char}
    (hword : Property.ofTyped? word = some p) (hname : Text.Around word.toList name)
    (hpieces : List.Forall₂ Operand.SpelledBy q.operands pieces) :
    dissect? (name ++ q.operator.token ++ Text.join ',' pieces) =
      some (name, q.operator.plain, Text.join ',' pieces) := by
  have hfree := not_infix_join (not_reserved_of_mem_pieces hpieces h.operands)
  have hfirst : FirstOperator (name ++ q.operator.token ++ Text.join ',' pieces) name q.operator.token
      q.operator.plain (Text.join ',' pieces) := by
    have hplain := Property.not_isOperatorChar_of_ofTyped? (Property.ofTyped?_trim hword hname)
    refine firstOperator_append hplain q.operator.token_plain_mem fun ⟨_, hequals⟩ => ?_
    obtain ⟨more, hmore⟩ := List.head?_eq_some_iff.1 hequals
    have hstands : ['='] <:+: Text.join ',' pieces := hmore ▸ (List.prefix_append ['='] more).isInfix
    exact hfree (['='], .eq) (by decide) hstands
  exact hfirst.dissect?_eq fun t ht => hfree t (mem_of_mem_triedBefore ht)

lemma Spellable.parse_eq (h : q.Spellable) {word : String} {name : List Char}
    (hword : Property.ofTyped? word = some q.property) (hname : Text.Around word.toList name)
    (hpieces : List.Forall₂ Operand.SpelledBy q.operands pieces) :
    parse (String.ofList (name ++ q.operator.token ++ Text.join ',' pieces)) = .ok q := by
  have hpiecesNe : pieces ≠ [] := by
    rintro rfl
    exact h.counted.operands_ne_nil (List.forall₂_nil_right_iff.1 hpieces)
  have hcomma : ∀ piece ∈ pieces, ',' ∉ piece := fun piece hpiece hc =>
    not_reserved_of_mem_pieces hpieces h.operands piece hpiece ',' hc (by decide)
  have hproperty : Property.parse (Text.trim (String.ofList name)) = .ok q.property := by
    rw [Property.parse, Property.ofTyped?_trim hword hname]
  have hoperands : ((Text.pieces ',' (Text.join ',' pieces)).mapM fun piece =>
      Operand.parse q.property (String.ofList piece)) = .ok q.operands := by
    rw [Text.pieces_join hpiecesNe hcomma, mapM_parse_pieces hpieces h.kind h.operands]
  rw [parse_of_dissect? (h.dissect?_eq hword hname hpieces), ofParts_eq hproperty hoperands, h.counted.widen_eq]

/-- **Spelled predicates are read back**: what can be spelled is read as it was from every compact form of it,
which is any word for the property, the token of the operator and the spellings of the operands with commas
between them, each of the parts with any blanks around it. -/
theorem parse_of_spelled (q : Predicate) (h : q.Spellable) :
    parse q.spelling = .ok q ∧
    ∀ word name pieces, Property.ofTyped? word = some q.property → Text.Around word.toList name →
      List.Forall₂ Operand.SpelledBy q.operands pieces →
      parse (String.ofList (name ++ q.operator.token ++ Text.join ',' pieces)) = .ok q := by
  refine ⟨?_, fun word name pieces => h.parse_eq⟩
  refine h.parse_eq q.property.ofTyped?_name (.refl _) ?_
  exact List.forall₂_map_right_iff.2 (List.forall₂_same.2 fun o _ => .refl o.chars)

/-- Titles that are empty or one word with an exclamation mark, with blanks where they do not count. -/
theorem parse_of_spelled_titles :
    let q : Predicate := ⟨.title, .within, [.text "", .text "wow!"]⟩
    q.Spellable ∧ Property.ofTyped? "title" = some .title ∧ Text.Around "title".toList " title ".toList ∧
      List.Forall₂ Operand.SpelledBy q.operands ["".toList, "  wow! ".toList] ∧
      parse " title =,  wow! " = .ok q := by
  intro q
  have hspellable : q.Spellable := by
    refine ⟨⟨by decide, by decide⟩, ?_, ?_⟩
    · simp [q, Operand.kind, Property.kind]
    · simp only [q, List.forall_mem_cons, Operand.Spellable]
      exact ⟨⟨rfl, by decide⟩, ⟨rfl, by decide⟩, List.forall_mem_nil _⟩
  have hname : Text.Around "title".toList " title ".toList := ⟨[' '], [' '], by decide, by decide, rfl⟩
  have hpieces : List.Forall₂ Operand.SpelledBy q.operands ["".toList, "  wow! ".toList] :=
    .cons (.refl _) (.cons ⟨[' ', ' '], [' '], by decide, by decide, rfl⟩ .nil)
  exact ⟨hspellable, rfl, hname, hpieces, (parse_of_spelled q hspellable).2 "title" _ _ rfl hname hpieces⟩

end Predicate

end TaskIndex
