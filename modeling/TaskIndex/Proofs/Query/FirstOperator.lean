import TaskIndex.Proofs.Text.Blank
import TaskIndex.Proofs.Text.Split
import TaskIndex.Query.Compact

/-!
The operator of a compact predicate.

The operator that a reader sees is the one that begins first, written with the longest token that begins
there. It is the one that is taken as long as no token that is looked for earlier stands further on. Where
one does, the text is cut at that token instead; what stands in front of the cut then holds the first
operator and is no property's name, so the text is refused and never read with another operator.
-/

namespace TaskIndex

variable {raw name token rest : List Char} {operator : Operator} {t : List Char × Operator}

namespace AlongList

variable {l : List Char} {P : Char → Prop} [DecidablePred P]

-- What is said of the characters of a list is decided along the list, not by going through all characters.
scoped instance (priority := high) decidableForallMem : Decidable (∀ c ∈ l, P c) := List.decidableBAll P l
scoped instance (priority := high) decidableExistsMem : Decidable (∃ c ∈ l, P c) := List.decidableBEx P l

end AlongList

open scoped AlongList

/-! ### Characters -/

def isOperatorChar (c : Char) : Bool := operatorTokens.any fun t => t.1.contains c

/-- The character neither separates nor surrounds anything in a compact predicate. -/
def isPlain (c : Char) : Bool := !Text.isBlank c && !isOperatorChar c && c != ','

lemma isPlain_iff {c : Char} :
    isPlain c = true ↔ Text.isBlank c = false ∧ isOperatorChar c = false ∧ c ≠ ',' := by
  simp [isPlain, and_assoc]

lemma mem_of_isOperatorChar {c : Char} (h : isOperatorChar c = true) : c ∈ ['!', '=', '<', '>', '~'] := by
  simp [isOperatorChar, operatorTokens] at h
  grind

lemma not_isBlank_of_isOperatorChar {c : Char} (h : isOperatorChar c = true) : Text.isBlank c = false := by
  have hall : ∀ c ∈ ['!', '=', '<', '>', '~'], Text.isBlank c = false := by decide
  exact hall c (mem_of_isOperatorChar h)

lemma Property.isPlain_of_ofTyped? {s : String} {p : Property} (h : ofTyped? s = some p) :
    ∀ c ∈ s.toList, isPlain c = true := by
  unfold ofTyped? at h
  split at h
  iterate 3 decide
  have hname : p.name = s := by simpa using List.find?_some h
  subst hname
  cases p <;> decide

/-- Trimming leaves every operator character where it is, and no property is spelled with one. -/
lemma Property.not_isOperatorChar_of_ofTyped? {p : Property}
    (h : ofTyped? (Text.trim (String.ofList name)) = some p) : ∀ c ∈ name, isOperatorChar c = false := by
  intro c hc
  by_contra hoperator
  rw [Bool.not_eq_false] at hoperator
  have hkept : c ∈ (Text.trim (String.ofList name)).toList := by
    rw [Text.trim_ofList, String.toList_ofList]
    exact Text.mem_strip hc (not_isBlank_of_isOperatorChar hoperator)
  simp [(isPlain_iff.1 (isPlain_of_ofTyped? h c hkept)).2.1] at hoperator

/-! ### The table of tokens -/

/-- The tokens that are looked for before this one. -/
def triedBefore (token : List Char) : List (List Char × Operator) :=
  operatorTokens.takeWhile (·.1 ≠ token)

lemma length_token (ht : t ∈ operatorTokens) : 1 ≤ t.1.length ∧ t.1.length ≤ 2 := by
  revert t
  decide

lemma mem_of_mem_triedBefore (ht : t ∈ triedBefore token) : t ∈ operatorTokens :=
  List.takeWhile_subset _ ht

lemma exists_eq_triedBefore (h : (token, operator) ∈ operatorTokens) :
    ∃ after, operatorTokens = triedBefore token ++ (token, operator) :: after := by
  simp only [operatorTokens, List.mem_cons, Prod.mk.injEq, List.not_mem_nil, or_false] at h
  rcases h with ⟨rfl, rfl⟩ | ⟨rfl, rfl⟩ | ⟨rfl, rfl⟩ | ⟨rfl, rfl⟩ | ⟨rfl, rfl⟩ | ⟨rfl, rfl⟩ | ⟨rfl, rfl⟩ <;>
    exact ⟨_, rfl⟩

/-- A token that is tried before is no beginning of the token. -/
lemma not_prefix_of_triedBefore (h : (token, operator) ∈ operatorTokens) (ht : t ∈ triedBefore token) :
    ¬t.1 <+: token := by
  have htable : ∀ e ∈ operatorTokens, ∀ t ∈ triedBefore e.1, ¬t.1 <+: e.1 := by decide
  exact htable _ h t ht

lemma head?_ne_of_triedBefore (h : (token, operator) ∈ operatorTokens) (ht : t ∈ triedBefore token) :
    ∀ c ∈ token.tail, t.1.head? ≠ some c := by
  have htable : ∀ e ∈ operatorTokens, ∀ t ∈ triedBefore e.1, ∀ c ∈ e.1.tail, t.1.head? ≠ some c := by decide
  exact htable _ h t ht

/-- Only the tokens of one angle can go on, by an equals sign. -/
lemma eq_append_of_prefix (h : (token, operator) ∈ operatorTokens) (ht : t ∈ operatorTokens)
    (hlength : token.length < t.1.length) (hbegins : token <+: t.1) :
    token ∈ [['<'], ['>']] ∧ t.1 = token ++ ['='] := by
  have htable : ∀ e ∈ operatorTokens, ∀ t ∈ operatorTokens, e.1.length < t.1.length → e.1 <+: t.1 →
      e.1 ∈ [['<'], ['>']] ∧ t.1 = e.1 ++ ['='] := by decide
  exact htable _ h t ht hlength hbegins

/-! ### The first operator -/

/-- The text is a name, the token of an operator and the rest, no token begins inside the name, and none that
begins behind the name is longer. -/
structure FirstOperator (raw name token : List Char) (operator : Operator) (rest : List Char) : Prop where
  mem : (token, operator) ∈ operatorTokens
  eq : raw = name ++ token ++ rest
  leftmost : ∀ t ∈ operatorTokens, Text.BeginsBehind t.1 name (token ++ rest)
  longest : ∀ t ∈ operatorTokens, t.1 <+: token ++ rest → t.1.length ≤ token.length

lemma exists_longest (h : ∃ t ∈ operatorTokens, t.1 <+: raw) :
    ∃ t ∈ operatorTokens, t.1 <+: raw ∧ ∀ u ∈ operatorTokens, u.1 <+: raw → u.1.length ≤ t.1.length := by
  by_cases htwo : ∃ t ∈ operatorTokens, t.1 <+: raw ∧ t.1.length = 2
  · obtain ⟨t, ht, hbegins, hlength⟩ := htwo
    exact ⟨t, ht, hbegins, fun u hu _ => hlength ▸ (length_token hu).2⟩
  · obtain ⟨t, ht, hbegins⟩ := h
    refine ⟨t, ht, hbegins, fun u hu hu' => ?_⟩
    have hne : u.1.length ≠ 2 := fun hlength => htwo ⟨u, hu, hu', hlength⟩
    have := length_token hu
    have := length_token ht
    omega

lemma exists_firstOperator (h : ∃ t ∈ operatorTokens, t.1 <:+: raw) :
    ∃ name token operator rest, FirstOperator raw name token operator rest := by
  induction raw with
  | nil =>
    obtain ⟨t, ht, hstands⟩ := h
    have hempty := List.infix_nil.1 hstands
    have := length_token ht
    simp [hempty] at this
  | cons c raw ih =>
    by_cases hhere : ∃ t ∈ operatorTokens, t.1 <+: c :: raw
    · obtain ⟨t, ht, ⟨rest, hrest⟩, hlongest⟩ := exists_longest hhere
      refine ⟨[], t.1, t.2, rest, ht, hrest.symm, fun u _ before inside hnil hne => ?_, hrest ▸ hlongest⟩
      exact absurd (List.append_eq_nil_iff.1 hnil.symm).2 hne
    · have hlater : ∃ t ∈ operatorTokens, t.1 <:+: raw := by
        obtain ⟨t, ht, hstands⟩ := h
        exact ⟨t, ht, (List.infix_cons_iff.1 hstands).resolve_left fun hbegins => hhere ⟨t, ht, hbegins⟩⟩
      obtain ⟨name, token, operator, rest, hfirst⟩ := ih hlater
      refine ⟨c :: name, token, operator, rest, hfirst.mem, congrArg (c :: ·) hfirst.eq, ?_, hfirst.longest⟩
      intro u hu before inside hname hne hbegins
      cases before with
      | nil =>
        rw [List.nil_append] at hname
        rw [← hname, List.cons_append, ← List.append_assoc, ← hfirst.eq] at hbegins
        exact hhere ⟨u, hu, hbegins⟩
      | cons b before =>
        exact hfirst.leftmost u hu before inside (List.cons.inj hname).2 hne hbegins

/-- A name that holds no operator character is followed by the first operator, unless the rest makes the
token longer. -/
lemma firstOperator_append (hname : ∀ c ∈ name, isOperatorChar c = false)
    (hmem : (token, operator) ∈ operatorTokens)
    (hlonger : ¬(token ∈ [['<'], ['>']] ∧ rest.head? = some '=')) :
    FirstOperator (name ++ token ++ rest) name token operator rest := by
  refine ⟨hmem, rfl, ?_, ?_⟩
  · rintro t ht before inside rfl hne hbegins
    obtain ⟨c, inside, rfl⟩ := List.exists_cons_of_ne_nil hne
    obtain ⟨x, xs, hx⟩ := List.exists_cons_of_length_pos (length_token ht).1
    rw [hx, List.cons_append, List.cons_prefix_cons] at hbegins
    have hc : isOperatorChar c = true := by
      refine List.any_eq_true.2 ⟨t, ht, ?_⟩
      simp [hx, hbegins.1]
    simp [hname c (by simp)] at hc
  · intro t ht hbegins
    by_contra! hlength
    have hgoesOn : token <+: t.1 := List.prefix_of_prefix_length_le ⟨rest, rfl⟩ hbegins hlength.le
    obtain ⟨hangle, heq⟩ := eq_append_of_prefix hmem ht hlength hgoesOn
    rw [heq, List.prefix_append_right_inj] at hbegins
    obtain ⟨more, rfl⟩ := hbegins
    exact hlonger ⟨hangle, rfl⟩

/-! ### Where the text is cut -/

def dissectAt? (raw : List Char) (t : List Char × Operator) : Option (List Char × Operator × List Char) :=
  (Text.cut? t.1 raw).map fun parts => (parts.1, t.2, parts.2)

lemma dissectAt?_eq_none_iff : dissectAt? raw t = none ↔ ¬t.1 <:+: raw := by
  rw [dissectAt?, Option.map_eq_none_iff, Text.cut?_eq_none_iff]

lemma Predicate.dissect?_eq_findSome? (raw : List Char) :
    dissect? raw = operatorTokens.findSome? (dissectAt? raw) := rfl

namespace FirstOperator

lemma cut?_eq (h : FirstOperator raw name token operator rest) (ht : t ∈ operatorTokens) :
    Text.cut? t.1 raw = (Text.cut? t.1 (token ++ rest)).map fun parts => (name ++ parts.1, parts.2) := by
  rw [h.eq, List.append_assoc]
  exact Text.cut?_append (h.leftmost t ht)

/-- One that is looked for earlier cuts it behind the first operator. -/
lemma cut?_of_triedBefore (h : FirstOperator raw name token operator rest) (ht : t ∈ triedBefore token) :
    Text.cut? t.1 raw = (Text.cut? t.1 rest).map fun parts => (name ++ token ++ parts.1, parts.2) := by
  have hmem := mem_of_mem_triedBefore ht
  have hbehind : Text.BeginsBehind t.1 token rest := by
    rintro before inside heq hne hbegins
    cases before with
    | nil =>
      rw [List.nil_append] at heq
      subst heq
      have hle := h.longest t hmem hbegins
      exact not_prefix_of_triedBefore h.mem ht (List.prefix_of_prefix_length_le hbegins ⟨rest, rfl⟩ hle)
    | cons b before =>
      obtain ⟨c, inside, rfl⟩ := List.exists_cons_of_ne_nil hne
      obtain ⟨x, xs, hx⟩ := List.exists_cons_of_length_pos (length_token hmem).1
      rw [hx, List.cons_append, List.cons_prefix_cons] at hbegins
      refine head?_ne_of_triedBefore h.mem ht c ?_ ?_
      · simp [heq]
      · simp [hx, hbegins.1]
  rw [h.cut?_eq hmem, Text.cut?_append hbehind, Option.map_map]
  simp only [List.append_assoc]
  rfl

/-- Where nothing that is looked for earlier stands further on, the first operator is taken. -/
lemma dissect?_eq (h : FirstOperator raw name token operator rest)
    (hrest : ∀ t ∈ triedBefore token, ¬t.1 <:+: rest) :
    Predicate.dissect? raw = some (name, operator, rest) := by
  obtain ⟨after, htable⟩ := exists_eq_triedBefore h.mem
  have hbefore : ∀ t ∈ triedBefore token, dissectAt? raw t = none := by
    intro t ht
    rw [dissectAt?, h.cut?_of_triedBefore ht, Text.cut?_eq_none_iff.2 (hrest t ht), Option.map_none,
      Option.map_none]
  have hself : dissectAt? raw (token, operator) = some (name, operator, rest) := by
    rw [dissectAt?, h.cut?_eq h.mem, Text.cut?_append_self, Option.map_some, Option.map_some,
      List.append_nil]
  rw [Predicate.dissect?_eq_findSome?, htable, List.findSome?_append, List.findSome?_eq_none_iff.2 hbefore,
    Option.none_or, List.findSome?_cons, hself]

/-- Where something does, the part in front of the cut holds the first operator. -/
lemma exists_dissect?_eq (h : FirstOperator raw name token operator rest)
    (hrest : ∃ t ∈ triedBefore token, t.1 <:+: rest) :
    ∃ more other operands, more <+: rest ∧
      Predicate.dissect? raw = some (name ++ token ++ more, other, operands) := by
  obtain ⟨after, htable⟩ := exists_eq_triedBefore h.mem
  obtain ⟨u, hu, huinfix⟩ := hrest
  cases hfind : (triedBefore token).findSome? (dissectAt? raw) with
  | none =>
    -- The token that stands further on would have been found.
    have hnone := List.findSome?_eq_none_iff.1 hfind u hu
    rw [dissectAt?, h.cut?_of_triedBefore hu, Option.map_eq_none_iff, Option.map_eq_none_iff,
      Text.cut?_eq_none_iff] at hnone
    exact absurd huinfix hnone
  | some found =>
    obtain ⟨t, ht, hfound⟩ := List.exists_of_findSome?_eq_some hfind
    rw [dissectAt?, h.cut?_of_triedBefore ht, Option.map_map, Option.map_eq_some_iff] at hfound
    obtain ⟨⟨more, operands⟩, hcut, rfl⟩ := hfound
    refine ⟨more, t.2, operands, ?_, ?_⟩
    · rw [Text.eq_of_cut? hcut, List.append_assoc]
      exact List.prefix_append more _
    · rw [Predicate.dissect?_eq_findSome?, htable, List.findSome?_append, hfind]
      rfl

end FirstOperator

/-! ### What is read -/

namespace Predicate

def ofParts (name : List Char) (operator : Operator) (rest : List Char) : Except Problem Predicate := do
  let property ← Property.parse (Text.trim (String.ofList name))
  let operands ← (Text.pieces ',' rest).mapM fun piece => Operand.parse property (String.ofList piece)
  return ⟨property, widen property operator operands, operands⟩

lemma parse_of_dissect? (h : dissect? raw = some (name, operator, rest)) :
    parse (String.ofList raw) = ofParts name operator rest := by
  rw [parse, String.toList_ofList, h]
  rfl

lemma ofParts_eq {p : Property} {os : List Operand}
    (hproperty : Property.parse (Text.trim (String.ofList name)) = .ok p)
    (hoperands : ((Text.pieces ',' rest).mapM fun piece => Operand.parse p (String.ofList piece)) = .ok os) :
    ofParts name operator rest = .ok ⟨p, widen p operator os, os⟩ := by
  simp only [ofParts, hproperty, Except.bind, bind, hoperands]
  rfl

lemma ofParts_of_isOperatorChar {c : Char} (hc : c ∈ name) (hoperator : isOperatorChar c = true) :
    ofParts name operator rest = .error (.unknownProperty (Text.trim (String.ofList name))) := by
  have hnone : Property.ofTyped? (Text.trim (String.ofList name)) = none := by
    rw [Option.eq_none_iff_forall_ne_some]
    intro p hp
    simp [Property.not_isOperatorChar_of_ofTyped? hp c hc] at hoperator
  rw [ofParts, Property.parse, hnone]
  rfl

/-- **The first operator decides or the text is refused.** A text without any token misses its operator. Every
other text has a first operator, which is the one in front of its operand whenever the name in front of it is
a property's and the operand does not make the token longer. With the first operator a text is read, unless
a token that is looked for before that operator's stands in the rest: then it is refused, because of a name
that goes on from the first operator into the rest. -/
theorem parse_by_first_operator (raw : String) :
    ((∀ t ∈ operatorTokens, ¬t.1 <:+: raw.toList) → parse raw = .error (.missingOperator raw)) ∧
    ((∃ t ∈ operatorTokens, t.1 <:+: raw.toList) →
      ∃ name token operator rest, FirstOperator raw.toList name token operator rest) ∧
    (∀ p name token operator rest, Property.ofTyped? (Text.trim (String.ofList name)) = some p →
      (token, operator) ∈ operatorTokens → ¬(token ∈ [['<'], ['>']] ∧ rest.head? = some '=') →
      raw.toList = name ++ token ++ rest → FirstOperator raw.toList name token operator rest) ∧
    ∀ name token operator rest, FirstOperator raw.toList name token operator rest →
      ((∀ t ∈ triedBefore token, ¬t.1 <:+: rest) → parse raw = ofParts name operator rest) ∧
      ((∃ t ∈ triedBefore token, t.1 <:+: rest) →
        ∃ more, more <+: rest ∧
          parse raw = .error (.unknownProperty (Text.trim (String.ofList (name ++ token ++ more))))) := by
  have hraw : String.ofList raw.toList = raw := String.ofList_toList
  refine ⟨fun hnone => ?_, exists_firstOperator, ?_, fun name token operator rest h => ⟨fun hrest => ?_, ?_⟩⟩
  · have hdissect : dissect? raw.toList = none := by
      rw [dissect?_eq_findSome?, List.findSome?_eq_none_iff]
      exact fun t ht => dissectAt?_eq_none_iff.2 (hnone t ht)
    rw [parse, hdissect]
  · intro p name token operator rest hp hmem hlonger hparts
    rw [hparts]
    exact firstOperator_append (Property.not_isOperatorChar_of_ofTyped? hp) hmem hlonger
  · rw [← parse_of_dissect? (h.dissect?_eq hrest), hraw]
  · intro hrest
    obtain ⟨more, other, operands, hmore, hdissect⟩ := h.exists_dissect?_eq hrest
    obtain ⟨c, token, rfl⟩ := List.exists_cons_of_length_pos (length_token h.mem).1
    have hoperator : isOperatorChar c = true := List.any_eq_true.2 ⟨_, h.mem, by simp⟩
    refine ⟨more, hmore, ?_⟩
    rw [← ofParts_of_isOperatorChar (by simp) hoperator, ← parse_of_dissect? hdissect, hraw]

/-- A title may hold a tilde and an angle. -/
theorem parse_by_first_operator_tilde :
    let raw := " title = a~b < c"
    Property.ofTyped? (Text.trim (String.ofList " title ".toList)) = some .title ∧
      FirstOperator raw.toList " title ".toList ['='] .eq " a~b < c".toList ∧
      (∀ t ∈ triedBefore ['='], ¬t.1 <:+: " a~b < c".toList) ∧
      parse raw = .ok ⟨.title, .eq, [.text "a~b < c"]⟩ := by
  intro raw
  obtain ⟨-, -, hspelled, hread⟩ := parse_by_first_operator raw
  have hfirst : FirstOperator raw.toList " title ".toList ['='] .eq " a~b < c".toList :=
    hspelled .title " title ".toList ['='] .eq " a~b < c".toList rfl (by decide) (by decide) (by decide)
  have hfree : ∀ t ∈ triedBefore ['='], ¬t.1 <:+: " a~b < c".toList := by decide
  exact ⟨rfl, hfirst, hfree, ((hread _ _ _ _ hfirst).1 hfree).trans rfl⟩

/-- Not every text is read with its first operator: a title that holds a token with two characters is
refused. -/
theorem not_forall_read_by_first_operator :
    ¬∀ (raw : String) (name token rest : List Char) (operator : Operator),
      FirstOperator raw.toList name token operator rest → parse raw = ofParts name operator rest := by
  intro hall
  have hparts : "title=a<=b".toList = "title".toList ++ ['='] ++ "a<=b".toList := by decide
  have hfirst : FirstOperator "title=a<=b".toList "title".toList ['='] .eq "a<=b".toList := by
    rw [hparts]
    exact firstOperator_append (by decide) (by decide) (by decide)
  have hread : ofParts "title".toList .eq "a<=b".toList = .ok ⟨.title, .eq, [.text "a<=b"]⟩ := rfl
  have hrefused : parse "title=a<=b" = .error (.unknownProperty "title=a") := rfl
  have heq := hall "title=a<=b" _ _ _ _ hfirst
  rw [hread, hrefused] at heq
  cases heq

end Predicate

end TaskIndex
