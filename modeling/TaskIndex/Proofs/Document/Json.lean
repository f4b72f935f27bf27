import TaskIndex.Proofs.Document.JsonParts

/-!
JSON documents, written and read back.

A written document is read off the head of a text and the rest is left over, so lists and tables are read
back piece by piece, in the short form and in the long one. Reading is bounded by a count of steps; the length
of the written document pays for it, because every list and table has a bracket for its own step and every
piece a mark in front of it.
-/

namespace TaskIndex.Json

open Document (quoted newLine jsonChars jsonItems jsonEntries bracketed putEntry)

variable {c : Char} {rest opening closing : List Char} {fuel depth level : Nat} {n : Int} {d : Document}
  {long : Bool}

/-- What JSON holds without a loss, with at most `depth` lists and tables open at one place: integers are
those of the 64-bit words, and no table has a key twice. -/
inductive Writable : Nat → Document → Prop where
  | null {depth : Nat} : Writable depth .null
  | flag {depth : Nat} (b : Bool) : Writable depth (.flag b)
  | integer {depth : Nat} {n : Int} (low : -2 ^ 63 ≤ n) (high : n < 2 ^ 64) : Writable depth (.integer n)
  | text {depth : Nat} (s : String) : Writable depth (.text s)
  | list {depth : Nat} {items : List Document} (each : ∀ item ∈ items, Writable depth item) :
      Writable (depth + 1) (.list items)
  | table {depth : Nat} {entries : List (String × Document)} (keys : (entries.map Prod.fst).Nodup)
      (each : ∀ entry ∈ entries, Writable depth entry.2) : Writable (depth + 1) (.table entries)

/-- The written document is read off the head of a text, unless it ends in a numeral that the rest goes on
with. -/
structure ReadsBack (long : Bool) (depth : Nat) (d : Document) : Prop where
  /-- It begins neither with a blank nor with the end of a list. -/
  head (level : Nat) : ∃ c cs, jsonChars long level d = c :: cs ∧ isGap c = false ∧ c ≠ ']'
  /-- Its length pays for reading it. -/
  value (level fuel : Nat) (rest : List Char) (hfuel : (jsonChars long level d).length ≤ fuel)
    (hrest : Text.Headless continuesNumeral rest) :
    value? depth fuel (jsonChars long level d ++ rest) = some (d, rest)

/-! ### What stands behind a piece -/

def laterPieces (opening : List Char) (pieces : List (List Char)) : List Char :=
  pieces.flatMap fun piece => ',' :: opening ++ piece

@[simp] lemma laterPieces_nil (opening : List Char) : laterPieces opening [] = [] := rfl

@[simp] lemma laterPieces_cons (opening piece : List Char) (pieces : List (List Char)) :
    laterPieces opening (piece :: pieces) = ',' :: (opening ++ (piece ++ laterPieces opening pieces)) := by
  simp [laterPieces]

lemma bracketed_cons (left right : Char) (opening closing piece : List Char) (pieces : List (List Char)) :
    bracketed left right opening closing (piece :: pieces) =
      left :: (opening ++ (piece ++ (laterPieces opening pieces ++ (closing ++ [right])))) := by
  simp [bracketed, laterPieces]

lemma continuesNumeral_of_isGap (h : isGap c) : continuesNumeral c = false := by
  simp only [isGap, Bool.or_eq_true, decide_eq_true_eq] at h
  rcases h with ((rfl | rfl) | rfl) | rfl <;> rfl

lemma headless_comma (cs : List Char) : Text.Headless continuesNumeral (',' :: cs) := by
  intro b hb
  exact Option.some.inj hb ▸ rfl

lemma headless_append_cons {blanks : List Char} (hblanks : ∀ b ∈ blanks, isGap b)
    (hc : continuesNumeral c = false) (cs : List Char) :
    Text.Headless continuesNumeral (blanks ++ c :: cs) := by
  intro b hb
  cases blanks with
  | nil => exact Option.some.inj hb ▸ hc
  | cons b' blanks =>
    obtain rfl : b' = b := Option.some.inj hb
    exact continuesNumeral_of_isGap (hblanks b' List.mem_cons_self)

/-! ### Single values -/

lemma value?_eq_number? (hc : c = '-' ∨ c.isDigit) (depth fuel : Nat) (cs : List Char) :
    value? depth (fuel + 1) (c :: cs) = number? (c :: cs) := by
  unfold value?
  split
  case h_7 => rfl
  all_goals
    next heq =>
      obtain ⟨rfl, -⟩ := List.cons.inj heq
      rcases hc with hc | hc <;> cases hc

lemma readsBack_null (long : Bool) (depth : Nat) : ReadsBack long depth .null where
  head _ := ⟨'n', _, rfl, rfl, by decide⟩
  value level fuel rest hfuel _ := by
    obtain ⟨fuel, rfl⟩ := Nat.exists_eq_succ_of_ne_zero (Nat.ne_zero_of_lt hfuel)
    rfl

lemma readsBack_flag (long : Bool) (depth : Nat) (b : Bool) : ReadsBack long depth (.flag b) where
  head _ := by cases b <;> exact ⟨_, _, rfl, rfl, by decide⟩
  value level fuel rest hfuel _ := by
    have hpos : 0 < fuel := by
      refine Nat.lt_of_lt_of_le ?_ hfuel
      cases b <;> exact Nat.succ_pos _
    obtain ⟨fuel, rfl⟩ := Nat.exists_eq_succ_of_ne_zero (Nat.ne_zero_of_lt hpos)
    cases b <;> rfl

lemma readsBack_text (long : Bool) (depth : Nat) (s : String) : ReadsBack long depth (.text s) where
  head _ := ⟨'"', _, rfl, rfl, by decide⟩
  value level fuel rest hfuel _ := by
    obtain ⟨fuel, rfl⟩ := Nat.exists_eq_succ_of_ne_zero (Nat.ne_zero_of_lt hfuel)
    rw [jsonChars, quoted_append, value?, quotedRest_toList]
    rfl

lemma exists_ofInt_eq_cons (n : Int) : ∃ c cs, Text.ofInt n = c :: cs ∧ (c = '-' ∨ c.isDigit) := by
  unfold Text.ofInt
  split
  · exact ⟨_, _, rfl, .inl rfl⟩
  · obtain ⟨c, cs, hcs⟩ := List.exists_cons_of_ne_nil (Nat.toDigits_ne_nil (n := n.natAbs) (b := 10))
    exact ⟨c, cs, hcs, .inr (Text.isDigit_of_mem_toDigits (hcs ▸ List.mem_cons_self))⟩

lemma readsBack_integer (long : Bool) (depth : Nat) (hlow : -2 ^ 63 ≤ n) (hhigh : n < 2 ^ 64) :
    ReadsBack long depth (.integer n) where
  head _ := by
    obtain ⟨c, cs, hcs, hc⟩ := exists_ofInt_eq_cons n
    rcases hc with rfl | hc
    · exact ⟨'-', cs, hcs, rfl, by decide⟩
    · refine ⟨c, cs, hcs, Bool.eq_false_iff.2 fun hgap => ?_, ?_⟩
      · have hends := continuesNumeral_of_isGap hgap
        simp [continuesNumeral, hc] at hends
      · rintro rfl
        cases hc
  value level fuel rest hfuel hrest := by
    obtain ⟨c, cs, hcs, hc⟩ := exists_ofInt_eq_cons n
    have hnumber := number?_ofInt hlow hhigh hrest
    rw [jsonChars] at hfuel ⊢
    rw [hcs] at hfuel hnumber ⊢
    obtain ⟨fuel, rfl⟩ := Nat.exists_eq_succ_of_ne_zero (Nat.ne_zero_of_lt hfuel)
    exact (value?_eq_number? hc depth fuel _).trans hnumber

/-! ### Lists -/

lemma value?_list {cs cs' : List Char} (hskip : skipBlanks cs = c :: cs') (hc : c ≠ ']')
    (depth fuel : Nat) :
    value? (depth + 1) (fuel + 1) ('[' :: cs) =
      (items? depth fuel (c :: cs')).map fun (items, rest) => (.list items, rest) := by
  rw [value?.eq_def]
  simp only [hskip]
  split
  · next hdepth => cases hdepth
  · next hend _ => exact absurd (List.cons.inj hend).1 hc
  · next hdepth _ =>
    cases hdepth
    rfl

lemma items?_jsonItems {item : Document} {items : List Document} (hopening : ∀ b ∈ opening, isGap b)
    (hclosing : ∀ b ∈ closing, isGap b) (hreads : ∀ d ∈ item :: items, ReadsBack long depth d)
    (hfuel : (jsonChars long level item).length +
      (laterPieces opening (jsonItems long level items)).length < fuel) (rest : List Char) :
    items? depth fuel (jsonChars long level item ++
        (laterPieces opening (jsonItems long level items) ++ (closing ++ ']' :: rest))) =
      some (item :: items, rest) := by
  induction items generalizing item fuel with
  | nil =>
    obtain ⟨fuel, rfl⟩ := Nat.exists_eq_succ_of_ne_zero (Nat.ne_zero_of_lt hfuel)
    have hitem := (hreads item List.mem_cons_self).value level fuel _ (by omega)
      (headless_append_cons hclosing (c := ']') rfl rest)
    simp only [jsonItems, laterPieces_nil, List.nil_append, items?, hitem,
      skipBlanks_append_cons hclosing (c := ']') rfl]
  | cons next items ih =>
    obtain ⟨fuel, rfl⟩ := Nat.exists_eq_succ_of_ne_zero (Nat.ne_zero_of_lt hfuel)
    rw [jsonItems, laterPieces_cons] at hfuel ⊢
    simp only [List.length_cons, List.length_append] at hfuel
    obtain ⟨c, cs, hcs, hgap, -⟩ := (hreads next (by simp)).head level
    have hlength : (jsonChars long level next).length +
        (laterPieces opening (jsonItems long level items)).length < fuel := by omega
    have hlater := ih (fun d hd => hreads d (List.mem_cons_of_mem item hd)) hlength
    have hitem := (hreads item List.mem_cons_self).value level fuel
      (',' :: (opening ++ (jsonChars long level next ++
        (laterPieces opening (jsonItems long level items) ++ (closing ++ ']' :: rest)))))
      (by omega) (headless_comma _)
    simp only [List.cons_append, List.append_assoc, items?, hitem, skipBlanks_cons (c := ',') rfl]
    rw [hcs] at hlater ⊢
    rw [List.cons_append, skipBlanks_append_cons hopening hgap]
    rw [List.cons_append] at hlater
    rw [hlater]
    rfl

lemma readsBack_list {items : List Document} (h : ∀ item ∈ items, ReadsBack long depth item) :
    ReadsBack long (depth + 1) (.list items) where
  head level := by
    rw [jsonChars]
    cases items with
    | nil => exact ⟨'[', _, rfl, rfl, by decide⟩
    | cons item items => exact ⟨'[', _, bracketed_cons .., rfl, by decide⟩
  value level fuel rest hfuel _ := by
    rw [jsonChars] at hfuel ⊢
    cases items with
    | nil =>
      obtain ⟨fuel, rfl⟩ := Nat.exists_eq_succ_of_ne_zero (Nat.ne_zero_of_lt hfuel)
      simp [jsonItems, bracketed, value?, skipBlanks_cons (c := ']') rfl]
    | cons item items =>
      rw [jsonItems, bracketed_cons] at hfuel ⊢
      obtain ⟨fuel, rfl⟩ := Nat.exists_eq_succ_of_ne_zero (Nat.ne_zero_of_lt hfuel)
      simp only [List.length_cons, List.length_append] at hfuel
      obtain ⟨c, cs, hcs, hgap, hlast⟩ := (h item List.mem_cons_self).head (level + 1)
      have hlength : (jsonChars long (level + 1) item).length +
          (laterPieces (if long then newLine (level + 1) else [])
            (jsonItems long (level + 1) items)).length < fuel := by omega
      have hitems := items?_jsonItems (isGap_newLine long (level + 1)) (isGap_newLine long level) h hlength
        rest
      simp only [List.cons_append, List.append_assoc, List.nil_append]
      rw [hcs] at hitems ⊢
      rw [List.cons_append] at hitems ⊢
      rw [value?_list (skipBlanks_append_cons (isGap_newLine long (level + 1)) hgap _) hlast, hitems]
      rfl

/-! ### Tables -/

lemma value?_table {cs cs' : List Char} (hskip : skipBlanks cs = c :: cs') (hc : c ≠ '\x7d')
    (depth fuel : Nat) :
    value? (depth + 1) (fuel + 1) ('\x7b' :: cs) =
      (entries? depth [] fuel (c :: cs')).map fun (entries, rest) => (.table entries, rest) := by
  rw [value?.eq_def]
  simp only [hskip]
  split
  · next hdepth => cases hdepth
  · next hend _ => exact absurd (List.cons.inj hend).1 hc
  · next hdepth _ =>
    cases hdepth
    rfl

lemma putEntry_of_not_mem {key : String} {entries : List (String × Document)}
    (h : key ∉ entries.map Prod.fst) (value : Document) :
    putEntry key value entries = entries ++ [(key, value)] := by
  induction entries with
  | nil => rfl
  | cons entry entries ih =>
    rw [List.map_cons, List.mem_cons, not_or] at h
    rw [putEntry, if_neg (Ne.symm h.1), ih h.2, List.cons_append]

lemma key_not_mem {entry : String × Document} {entries acc : List (String × Document)}
    (h : ((acc ++ entry :: entries).map Prod.fst).Nodup) : entry.1 ∉ acc.map Prod.fst := by
  intro hmem
  rw [List.map_append, List.nodup_append] at h
  exact h.2.2 entry.1 hmem entry.1 List.mem_cons_self rfl

def entryChars (long : Bool) (level : Nat) (entry : String × Document) : List Char :=
  quoted entry.1 ++ ':' :: (if long then [' '] else []) ++ jsonChars long level entry.2

lemma jsonEntries_cons (long : Bool) (level : Nat) (entry : String × Document)
    (entries : List (String × Document)) :
    jsonEntries long level (entry :: entries) =
      entryChars long level entry :: jsonEntries long level entries := rfl

lemma length_jsonChars_le_entryChars (entry : String × Document) :
    (jsonChars long level entry.2).length ≤ (entryChars long level entry).length := by
  rw [entryChars, List.length_append]
  exact Nat.le_add_left _ _

lemma exists_entryChars_eq_cons (long : Bool) (level : Nat) (entry : String × Document) :
    ∃ cs, entryChars long level entry = '"' :: cs := ⟨_, rfl⟩

/-- One step reads one entry and looks at the mark behind it. -/
lemma entries?_cons {entry : String × Document} {acc : List (String × Document)} {mark : Char}
    {tail cs : List Char} (hreads : ReadsBack long depth entry.2) (hkey : entry.1 ∉ acc.map Prod.fst)
    (hfuel : (entryChars long level entry).length ≤ fuel) (htail : Text.Headless continuesNumeral tail)
    (hmark : skipBlanks tail = mark :: cs) :
    entries? depth acc (fuel + 1) (entryChars long level entry ++ tail) =
      if mark = ',' then entries? depth (acc ++ [entry]) fuel (skipBlanks cs)
      else if mark = '\x7d' then some (acc ++ [entry], cs)
      else none := by
  obtain ⟨key, value⟩ := entry
  obtain ⟨c, piece, hpiece, hgap, -⟩ := hreads.head level
  have hspace : ∀ b ∈ (if long then [' '] else []), isGap b := by
    cases long <;> simp [isGap]
  have hvalue := hreads.value level fuel tail (Nat.le_trans (length_jsonChars_le_entryChars _) hfuel) htail
  have hskip : skipBlanks ((if long then [' '] else []) ++ (jsonChars long level value ++ tail)) =
      jsonChars long level value ++ tail := by
    rw [hpiece]
    exact skipBlanks_append_cons hspace hgap _
  simp only [entryChars, List.append_assoc, List.cons_append, quoted_append]
  rw [entries?.eq_def]
  simp only [quotedRest_toList, skipBlanks_cons (c := ':') rfl, hskip, hvalue, putEntry_of_not_mem hkey,
    hmark]
  split
  · next heq =>
    obtain ⟨rfl, rfl⟩ := List.cons.inj heq
    rw [if_pos rfl]
  · next heq =>
    obtain ⟨rfl, rfl⟩ := List.cons.inj heq
    rw [if_neg (by decide), if_pos rfl]
  · next hcomma hlast =>
    rw [if_neg fun h => hcomma cs (congrArg (· :: cs) h), if_neg fun h => hlast cs (congrArg (· :: cs) h)]

/-- The entries of a table are read up to its end, behind the ones there are. -/
lemma entries?_jsonEntries {entry : String × Document} {entries : List (String × Document)}
    (acc : List (String × Document)) (hopening : ∀ b ∈ opening, isGap b)
    (hclosing : ∀ b ∈ closing, isGap b) (hreads : ∀ e ∈ entry :: entries, ReadsBack long depth e.2)
    (hkeys : ((acc ++ entry :: entries).map Prod.fst).Nodup)
    (hfuel : (entryChars long level entry).length +
      (laterPieces opening (jsonEntries long level entries)).length < fuel) (rest : List Char) :
    entries? depth acc fuel (entryChars long level entry ++
        (laterPieces opening (jsonEntries long level entries) ++ (closing ++ '\x7d' :: rest))) =
      some (acc ++ entry :: entries, rest) := by
  induction entries generalizing entry acc fuel with
  | nil =>
    obtain ⟨fuel, rfl⟩ := Nat.exists_eq_succ_of_ne_zero (Nat.ne_zero_of_lt hfuel)
    rw [jsonEntries, laterPieces_nil, List.nil_append,
      entries?_cons (hreads entry List.mem_cons_self) (key_not_mem hkeys) (by omega)
        (headless_append_cons hclosing (c := '\x7d') rfl rest)
        (skipBlanks_append_cons hclosing (c := '\x7d') rfl rest),
      if_neg (by decide), if_pos rfl]
  | cons next entries ih =>
    obtain ⟨fuel, rfl⟩ := Nat.exists_eq_succ_of_ne_zero (Nat.ne_zero_of_lt hfuel)
    rw [jsonEntries_cons, laterPieces_cons] at hfuel ⊢
    simp only [List.length_cons, List.length_append] at hfuel
    obtain ⟨cs, hcs⟩ := exists_entryChars_eq_cons long level next
    have hkeys' : ((acc ++ [entry] ++ next :: entries).map Prod.fst).Nodup := by
      rwa [List.append_assoc, List.singleton_append]
    have hlength : (entryChars long level next).length +
        (laterPieces opening (jsonEntries long level entries)).length < fuel := by omega
    have hlater := ih (acc ++ [entry]) (fun e he => hreads e (List.mem_cons_of_mem entry he)) hkeys' hlength
    rw [List.cons_append, entries?_cons (hreads entry List.mem_cons_self) (key_not_mem hkeys) (by omega)
      (headless_comma _) (skipBlanks_cons (c := ',') rfl _), if_pos rfl]
    simp only [List.append_assoc]
    rw [hcs] at hlater ⊢
    rw [List.cons_append, skipBlanks_append_cons hopening (c := '"') rfl]
    simpa using hlater

lemma readsBack_table {entries : List (String × Document)} (hkeys : (entries.map Prod.fst).Nodup)
    (h : ∀ entry ∈ entries, ReadsBack long depth entry.2) :
    ReadsBack long (depth + 1) (.table entries) where
  head level := by
    rw [jsonChars]
    cases entries with
    | nil => exact ⟨'\x7b', _, rfl, rfl, by decide⟩
    | cons entry entries => exact ⟨'\x7b', _, bracketed_cons .., rfl, by decide⟩
  value level fuel rest hfuel _ := by
    rw [jsonChars] at hfuel ⊢
    cases entries with
    | nil =>
      obtain ⟨fuel, rfl⟩ := Nat.exists_eq_succ_of_ne_zero (Nat.ne_zero_of_lt hfuel)
      simp [jsonEntries, bracketed, value?, skipBlanks_cons (c := '\x7d') rfl]
    | cons entry entries =>
      rw [jsonEntries_cons, bracketed_cons] at hfuel ⊢
      obtain ⟨fuel, rfl⟩ := Nat.exists_eq_succ_of_ne_zero (Nat.ne_zero_of_lt hfuel)
      simp only [List.length_cons, List.length_append] at hfuel
      obtain ⟨cs, hcs⟩ := exists_entryChars_eq_cons long (level + 1) entry
      have hlength : (entryChars long (level + 1) entry).length +
          (laterPieces (if long then newLine (level + 1) else [])
            (jsonEntries long (level + 1) entries)).length < fuel := by omega
      have hentries := entries?_jsonEntries [] (isGap_newLine long (level + 1)) (isGap_newLine long level)
        h hkeys hlength rest
      simp only [List.cons_append, List.append_assoc, List.nil_append]
      rw [hcs] at hentries ⊢
      rw [List.cons_append] at hentries ⊢
      rw [value?_table (skipBlanks_append_cons (isGap_newLine long (level + 1)) (c := '"') rfl _)
        (by decide), hentries]
      rfl

/-! ### Documents -/

/-- What JSON holds is read off the head of a text. -/
lemma Writable.readsBack (h : Writable depth d) (long : Bool) : ReadsBack long depth d := by
  induction h with
  | null => exact readsBack_null long _
  | flag b => exact readsBack_flag long _ b
  | integer low high => exact readsBack_integer long _ low high
  | text s => exact readsBack_text long _ s
  | list _ ih => exact readsBack_list ih
  | table keys _ ih => exact readsBack_table keys ih

lemma read?_jsonChars (h : Writable maxDepth d) (long : Bool) :
    read? (String.ofList (jsonChars long 0 d)) = some d := by
  obtain ⟨c, cs, hcs, hgap, -⟩ := (h.readsBack long).head 0
  have hskip : skipBlanks (jsonChars long 0 d) = jsonChars long 0 d := by
    rw [hcs, skipBlanks_cons hgap]
  have hvalue := (h.readsBack long).value 0 (2 * (jsonChars long 0 d).length + 2) [] (by omega)
    (by simp [Text.Headless])
  rw [List.append_nil] at hvalue
  rw [read?]
  simp only [String.toList_ofList, hskip, hvalue]
  rfl

/-- **The short form**: what JSON holds is read back as it was. -/
theorem read?_json (h : Writable maxDepth d) : read? d.json = some d := read?_jsonChars h false

/-- **The long form**: the same with every piece on its own line. -/
theorem read?_longJson (h : Writable maxDepth d) : read? d.longJson = some d := read?_jsonChars h true

end TaskIndex.Json
