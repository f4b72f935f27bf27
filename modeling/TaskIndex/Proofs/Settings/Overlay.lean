import Mathlib.Tactic.Lemma
import TaskIndex.Settings.Overlay

/-!
What merging does at one place of a document.

A setting stands in a section, under its key. An entry of a layer writes a value there or it does not, and this is
read off the entry alone. Laid over a document, an entry that writes nothing there leaves what the document has,
and one that does puts its value there, except that tables and lists may go on in what they lie on; and nothing
is read from those. So of many entries the last that writes at a place decides what is read there.
-/

namespace TaskIndex

/-- Where a setting stands: its section, and its key there. -/
structure Setting where
  part : String
  key : String
deriving DecidableEq

namespace Document

def isTable : Document → Bool
  | table _ => true
  | _ => false

def isNull : Document → Bool
  | null => true
  | _ => false

def isBranch : Document → Bool
  | table _ | list _ => true
  | _ => false

def valueAt? (d : Document) (s : Setting) : Option Document := (d.get? s.part).bind (·.get? s.key)

/-- The same value, or two of which nothing is read. -/
inductive Akin : Option Document → Option Document → Prop where
  | refl (x : Option Document) : Akin x x
  | branches {d e : Document} (hd : d.isBranch = true) (he : e.isBranch = true) : Akin (some d) (some e)

variable {x y z : Option Document} {d e value : Document} {key : String} {s : Setting}

lemma Akin.trans (hxy : Akin x y) (hyz : Akin y z) : Akin x z := by
  cases hxy with
  | refl => exact hyz
  | branches hd he =>
    cases hyz with
    | refl => exact .branches hd he
    | branches _ he' => exact .branches hd he'

lemma Akin.or (w : Option Document) (h : Akin x y) : Akin (w.or x) (w.or y) := by
  cases w with
  | none => exact h
  | some d => exact .refl _

lemma Akin.eq_none (h : Akin x none) : x = none := by
  cases h
  rfl

lemma isNull_of_isBranch (h : d.isBranch = true) : d.isNull = false := by
  cases d <;> first | rfl | cases h

lemma Akin.exists_read {α : Type} {read : Document → Option α}
    (hread : ∀ d, d.isBranch = true → read d = none) (h : Akin x (some e)) (he : e.isNull = false) :
    ∃ d, x = some d ∧ d.isNull = false ∧ read d = read e := by
  cases h with
  | refl => exact ⟨e, rfl, he, rfl⟩
  | branches hd he => exact ⟨_, rfl, isNull_of_isBranch hd, by rw [hread _ hd, hread _ he]⟩

/-- When each step writes a value or leaves what there is, the last value that is written stands after all
steps. -/
lemma akin_foldl {α γ : Type} (look : α → Option Document) (step : α → γ → α)
    (written? : γ → Option Document) {items : List γ}
    (h : ∀ c ∈ items, ∀ a, Akin (look (step a c)) ((written? c).or (look a))) (a : α) :
    Akin (look (items.foldl step a)) ((items.reverse.findSome? written?).or (look a)) := by
  induction items generalizing a with
  | nil => exact .refl _
  | cons c items ih =>
    obtain ⟨hc, hitems⟩ := List.forall_mem_cons.1 h
    have hlast : (c :: items).reverse.findSome? written? =
        (items.reverse.findSome? written?).or (written? c) := by
      rw [List.reverse_cons, List.findSome?_append, List.findSome?_singleton]
    rw [hlast, Option.or_assoc]
    exact (ih hitems (step a c)).trans ((hc a).or _)

/-! ### Entries and steps -/

lemma get?_eq (key : String) (d : Document) : d.get? key = valueOf? key d.entries := by
  cases d <;> rfl

lemma valueOf?_cons (key : String) (entry : String × Document) (rest : List (String × Document)) :
    valueOf? key (entry :: rest) = if entry.1 = key then some entry.2 else valueOf? key rest := by
  rw [valueOf?, valueOf?, List.lookup_cons]
  by_cases h : entry.1 = key
  · simp [h]
  · simp [h, beq_false_of_ne (Ne.symm h)]

lemma valueOf?_putEntry (key k : String) (value : Document) (entries : List (String × Document)) :
    valueOf? key (putEntry k value entries) = if k = key then some value else valueOf? key entries := by
  induction entries with
  | nil => exact valueOf?_cons ..
  | cons entry rest ih =>
    rw [putEntry]
    split
    · next hk =>
      rw [valueOf?_cons, valueOf?_cons, hk]
      split <;> rfl
    · next hk =>
      rw [valueOf?_cons, valueOf?_cons, ih]
      grind

lemma get?_alterAt (change : Document → Document) (k : String) (path : List Step) (d : Document)
    (key : String) : (d.alterAt change (.key k :: path)).get? key =
      if k = key then some (((d.get? k).getD null).alterAt change path) else d.get? key := by
  rw [alterAt, get?, valueOf?_putEntry, get?_eq k, get?_eq key]

lemma isBranch_alterAt (change : Document → Document) (step : Step) (path : List Step) (d : Document) :
    (d.alterAt change (step :: path)).isBranch = true := by
  cases step <;> rfl

lemma akin_overlay (d value : Document) : Akin (some (d.overlay value)) (some value) := by
  cases value with
  | table entries => exact .branches rfl rfl
  | _ => exact .refl _

/-- The last entry of a key, with a table laid over other entries. -/
lemma akin_overlayEntries (below entries : List (String × Document)) (key : String) :
    Akin (valueOf? key (overlayEntries below entries))
      ((valueOf? key entries.reverse).or (valueOf? key below)) := by
  induction entries generalizing below with
  | nil => exact .refl _
  | cons entry rest ih =>
    obtain ⟨k, value⟩ := entry
    have hlast : valueOf? key ((k, value) :: rest).reverse =
        (valueOf? key rest.reverse).or (if k = key then some value else valueOf? key []) := by
      rw [← valueOf?_cons key (k, value) [], List.reverse_cons]
      exact List.lookup_append
    rw [hlast, Option.or_assoc]
    refine (ih _).trans (Akin.or _ ?_)
    rw [valueOf?_putEntry]
    split
    · exact akin_overlay ..
    · exact .refl _

/-! ### What an entry writes -/

def under : List Step → Document → Document
  | [], value => value
  | .key k :: path, value => table [(k, under path value)]
  | .position _ :: path, value => list [under path value]

/-- What a value that is written along a path in a section gives to a key of the section: if it is written to
the section itself, its own last entry of the key. -/
def writtenIn? (key : String) : List Step → Document → Option Document
  | [], value => valueOf? key value.entries.reverse
  | .key k :: path, value => if k = key then some (value.under path) else none
  | .position _ :: _, _ => none

def keepsTable : List Step → Document → Bool
  | [], value => value.isTable
  | .key _ :: _, _ => true
  | .position _ :: _, _ => false

def hasNoNull (value : Document) : Bool := !value.isNull && value.entries.all (!·.2.isNull)

variable {path : List Step}

lemma akin_alterAt (d value : Document) (path : List Step) :
    Akin (some (d.alterAt (·.overlay value) path)) (some (value.under path)) := by
  cases path with
  | nil => exact akin_overlay ..
  | cons step path =>
    refine .branches (isBranch_alterAt ..) ?_
    cases step <;> rfl

lemma akin_get?_alterAt (h : value.keepsTable path = true) (d : Document) (key : String) :
    Akin ((d.alterAt (·.overlay value) path).get? key) ((value.writtenIn? key path).or (d.get? key)) := by
  match path with
  | [] =>
    cases value with
    | table entries =>
      rw [get?_eq key d]
      exact akin_overlayEntries d.entries entries key
    | _ => cases h
  | .key k :: path =>
    rw [get?_alterAt, writtenIn?]
    split
    · exact akin_alterAt ..
    · exact .refl _
  | .position n :: path => cases h

lemma isTable_alterAt (h : value.keepsTable path = true) (d : Document) :
    (d.alterAt (·.overlay value) path).isTable = true := by
  match path with
  | [] =>
    cases value with
    | table entries => rfl
    | _ => cases h
  | .key k :: path => rfl
  | .position n :: path => cases h

lemma isNull_writtenIn? (h : value.hasNoNull = true) (hd : value.writtenIn? key path = some d) :
    d.isNull = false := by
  obtain ⟨hvalue, hentries⟩ : value.isNull = false ∧ ∀ entry ∈ value.entries, entry.2.isNull = false := by
    simpa [hasNoNull] using h
  match path with
  | [] =>
    obtain ⟨before, after, hsplit, -⟩ := List.lookup_eq_some_iff.1 hd
    have hmem : (key, d) ∈ value.entries.reverse := by simp [hsplit]
    exact hentries _ (List.mem_reverse.1 hmem)
  | .key k :: path =>
    obtain ⟨-, rfl⟩ : k = key ∧ value.under path = d := by simpa [writtenIn?] using hd
    match path with
    | [] => exact hvalue
    | .key _ :: _ | .position _ :: _ => rfl
  | .position n :: path => cases hd

end Document

end TaskIndex
