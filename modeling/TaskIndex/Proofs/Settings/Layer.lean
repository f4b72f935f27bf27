import TaskIndex.Proofs.Settings.Choices
import TaskIndex.Proofs.Settings.Overlay
import TaskIndex.Settings.Layer

/-!
Layers decide key by key.

A layer names a setting when one of its entries writes a value at the setting's place. As long as layers write
sections as tables and nothing as null, the document that all of them make has at the place of a setting the
value of the highest layer that names it, if any does, and what the layers have elsewhere makes no difference
to it.
-/

namespace TaskIndex

namespace Setting

def level : Setting := ⟨"logging", "level"⟩
def json : Setting := ⟨"logging", "json"⟩
def defaultLength : Setting := ⟨"cache", "default_page_length"⟩
def maxLength : Setting := ⟨"cache", "max_page_length"⟩
def snapshotPath : Setting := ⟨"snapshot", "path"⟩

def parts : List String := ["logging", "cache", "snapshot"]

end Setting

open Document (Akin Step)

namespace Overlay

def pathOf (key : String) : List Step := (steps? key).getD [.key key]

/-- What an entry of a layer writes at the place of a setting. -/
def written? (s : Setting) (entry : String × Document) : Option Document :=
  match pathOf entry.1 with
  | .key part :: path => if part = s.part then entry.2.writtenIn? s.key path else none
  | _ => none

/-- The value that a layer names for a setting: what the last of its entries that write there writes. -/
def named? (s : Setting) (layer : List (String × Document)) : Option Document :=
  layer.reverse.findSome? (written? s)

/-- What the highest of the layers that name a setting names. -/
def highest? (s : Setting) (layers : List (List (String × Document))) : Option Document :=
  layers.reverse.findSome? (named? s)

def keepsTables (entry : String × Document) : Bool :=
  match pathOf entry.1 with
  | .key part :: path => !Setting.parts.contains part || entry.2.keepsTable path
  | _ => true

/-- In a plain layer every section is a table and no value is null. -/
def IsPlain (layer : List (String × Document)) : Prop :=
  ∀ entry ∈ layer, keepsTables entry = true ∧ entry.2.hasNoNull = true

instance (layer : List (String × Document)) : Decidable (IsPlain layer) :=
  inferInstanceAs (Decidable (∀ entry ∈ layer, _))

variable {d v : Document} {entry : String × Document} {layer : List (String × Document)}
  {layers : List (List (String × Document))} {s : Setting}

lemma exists_pathOf (key : String) : ∃ part path, pathOf key = .key part :: path := by
  unfold pathOf steps?
  cases name? key.toList with
  | none => exact ⟨key, [], rfl⟩
  | some named =>
    obtain ⟨name, rest⟩ := named
    cases hpath : furtherSteps? rest.length rest with
    | none => exact ⟨key, [], by simp [hpath]⟩
    | some path => exact ⟨name, path, by simp [hpath]⟩

/-- An entry changes one section, along the rest of its path. -/
lemma exists_put (entry : String × Document) : ∃ part path, pathOf entry.1 = .key part :: path ∧
    ∀ d part', (put d entry).get? part' =
      if part = part' then some (((d.get? part).getD .null).alterAt (·.overlay entry.2) path)
      else d.get? part' := by
  obtain ⟨part, path, hpath⟩ := exists_pathOf entry.1
  refine ⟨part, path, hpath, fun d part' => ?_⟩
  rw [← Document.get?_alterAt, ← hpath]
  rfl

lemma akin_put (h : keepsTables entry = true) (hs : s.part ∈ Setting.parts) (d : Document) :
    Akin ((put d entry).valueAt? s) ((written? s entry).or (d.valueAt? s)) := by
  obtain ⟨part, path, hpath, hput⟩ := exists_put entry
  simp only [keepsTables, hpath] at h
  simp only [written?, hpath, Document.valueAt?, hput]
  split
  · next hpart =>
    subst hpart
    have hkeeps : entry.2.keepsTable path = true := by simpa [hs] using h
    have hakin := Document.akin_get?_alterAt hkeeps ((d.get? s.part).getD .null) s.key
    cases hget : d.get? s.part <;> rw [hget] at hakin <;> exact hakin
  · exact .refl _

lemma akin_lay (h : IsPlain layer) (hs : s.part ∈ Setting.parts) (d : Document) :
    Akin ((lay d layer).valueAt? s) ((named? s layer).or (d.valueAt? s)) :=
  Document.akin_foldl (·.valueAt? s) put (written? s) (fun entry hentry => akin_put (h entry hentry).1 hs) d

/-- The highest layer that names a setting decides it. -/
lemma akin_merge (h : ∀ layer ∈ layers, IsPlain layer) (hs : s.part ∈ Setting.parts) :
    Akin ((merge layers).valueAt? s) (highest? s layers) := by
  have hakin := Document.akin_foldl (·.valueAt? s) lay (named? s)
    (fun layer hlayer => akin_lay (h layer hlayer) hs) (.table [])
  have hnone : (Document.table []).valueAt? s = none := rfl
  rw [hnone, Option.or_none] at hakin
  exact hakin

lemma isNull_highest? (h : ∀ layer ∈ layers, IsPlain layer) (hv : highest? s layers = some v) :
    v.isNull = false := by
  obtain ⟨layer, hlayer, hnamed⟩ := List.exists_of_findSome?_eq_some hv
  obtain ⟨entry, hentry, hwritten⟩ := List.exists_of_findSome?_eq_some hnamed
  obtain ⟨part, path, hpath⟩ := exists_pathOf entry.1
  have hnull := (h layer (List.mem_reverse.1 hlayer) entry (List.mem_reverse.1 hentry)).2
  simp only [written?, hpath] at hwritten
  split at hwritten
  · exact Document.isNull_writtenIn? hnull hwritten
  · cases hwritten

/-! ### Sections stay tables -/

def HasTables (d : Document) : Prop :=
  ∀ part ∈ Setting.parts, ∀ v, d.get? part = some v → v.isTable = true

lemma HasTables.put (hd : HasTables d) (h : keepsTables entry = true) : HasTables (put d entry) := by
  intro part' hpart' v hv
  obtain ⟨part, path, hpath, hput⟩ := exists_put entry
  simp only [keepsTables, hpath] at h
  rw [hput] at hv
  split at hv
  · next hpart =>
    subst hpart
    obtain rfl := Option.some.inj hv
    exact Document.isTable_alterAt (by simpa [hpart'] using h) _
  · exact hd part' hpart' v hv

lemma hasTables_merge (h : ∀ layer ∈ layers, IsPlain layer) : HasTables (merge layers) := by
  refine List.foldlRecOn layers lay (fun part _ v hv => by cases hv) fun d hd layer hlayer => ?_
  exact List.foldlRecOn layer put hd fun d hd entry hentry => hd.put (h layer hlayer entry hentry).1

end Overlay

/-! ### Reading the choices -/

namespace Choices

open Overlay (IsPlain merge highest?)

/-- Choices that are made key by key. A key that no layer names is left open, and otherwise the value of the
highest layer that names it is read. -/
structure KeyByKey (layers : List (List (String × Document))) (c : Choices) : Prop where
  level : (highest? .level layers).mapM text? = some c.level
  json : (highest? .json layers).mapM flag? = some c.json
  defaultLength : (highest? .defaultLength layers).mapM count? = some c.defaultLength
  maxLength : (highest? .maxLength layers).mapM count? = some c.maxLength
  snapshotPath : (highest? .snapshotPath layers).mapM text? = some c.snapshotPath

variable {layers : List (List (String × Document))} {s : Setting} {c : Choices}

lemma section?_merge (h : ∀ layer ∈ layers, IsPlain layer) (part : String) (hpart : part ∈ Setting.parts) :
    ∃ entries, section? (merge layers) part = some (.table entries) ∧
      ∀ key, Document.valueOf? key entries = (merge layers).valueAt? ⟨part, key⟩ := by
  have htables := Overlay.hasTables_merge h part hpart
  simp only [section?, Document.valueAt?]
  cases hget : (merge layers).get? part with
  | none => exact ⟨[], rfl, fun key => rfl⟩
  | some d =>
    have htable := htables d hget
    cases d with
    | table entries => exact ⟨entries, rfl, fun key => rfl⟩
    | _ => cases htable

lemma choice?_eq {α : Type} {read : Document → Option α} (hread : ∀ d, d.isBranch = true → read d = none)
    (h : ∀ layer ∈ layers, IsPlain layer) (hs : s.part ∈ Setting.parts) {place : Place}
    {entries : List (String × Document)}
    (hvalue : Document.valueOf? place.key entries = (merge layers).valueAt? s) :
    choice? read place (.table entries) = (highest? s layers).mapM read := by
  have hakin := Overlay.akin_merge h hs
  rw [← hvalue] at hakin
  cases hhighest : highest? s layers with
  | none =>
    rw [hhighest] at hakin
    simp only [choice?, hakin.eq_none]
    rfl
  | some e =>
    rw [hhighest] at hakin
    obtain ⟨d, hd, hnull, hsame⟩ := hakin.exists_read hread (Overlay.isNull_highest? h hhighest)
    have hchoice : choice? read place (.table entries) = (read d).map some := by
      simp only [choice?, hd]
      cases d <;> first | rfl | cases hnull
    rw [hchoice, hsame, Option.mapM_some]
    cases read e <;> rfl

lemma read_of_isBranch {d : Document} (h : d.isBranch = true) :
    text? d = none ∧ flag? d = none ∧ count? d = none := by
  cases d <;> first | exact ⟨rfl, rfl, rfl⟩ | cases h

/-- **Key by key**: what is read of the document that plain layers make is made key by key. -/
theorem keyByKey_of_ofDocument? (h : ∀ layer ∈ layers, IsPlain layer)
    (hc : ofDocument? (merge layers) = some c) : c.KeyByKey layers := by
  obtain ⟨logging, hlogging, hinLogging⟩ := section?_merge h "logging" (by decide)
  obtain ⟨cache, hcache, hinCache⟩ := section?_merge h "cache" (by decide)
  obtain ⟨snapshot, hsnapshot, hinSnapshot⟩ := section?_merge h "snapshot" (by decide)
  simp only [ofDocument?, hlogging, hcache, hsnapshot, Option.bind_eq_bind, Option.bind_some,
    Option.bind_eq_some_iff] at hc
  obtain ⟨level, hlevel, json, hjson, defaultLength, hdefault, maxLength, hmax, path, hpath, hc⟩ := hc
  obtain rfl := Option.some.inj hc
  have htext : ∀ d : Document, d.isBranch = true → text? d = none := fun _ h => (read_of_isBranch h).1
  have hflag : ∀ d : Document, d.isBranch = true → flag? d = none := fun _ h => (read_of_isBranch h).2.1
  have hcount : ∀ d : Document, d.isBranch = true → count? d = none := fun _ h => (read_of_isBranch h).2.2
  exact {
    level := (choice?_eq htext h (by decide) (hinLogging "level")).symm.trans hlevel
    json := (choice?_eq hflag h (by decide) (hinLogging "json")).symm.trans hjson
    defaultLength := (choice?_eq hcount h (by decide) (hinCache "default_page_length")).symm.trans hdefault
    maxLength := (choice?_eq hcount h (by decide) (hinCache "max_page_length")).symm.trans hmax
    snapshotPath := (choice?_eq htext h (by decide) (hinSnapshot "path")).symm.trans hpath }

end Choices

namespace Settings

/-- The layers below the command line, the lowest first: a shared file, the local one, the one that is named if
there is one, and the environment. -/
def stack (shared here : List (String × Document)) (chosen : Option (List (String × Document)))
    (environment : Environment) : List (List (String × Document)) :=
  [shared, here] ++ chosen.toList ++ [Layer.ofEnvironment environment]

variable {read : Reader} {named : Option String} {shared here : List (String × Document)}
  {chosen : Option (List (String × Document))}

lemma choices?_eq (environment : Environment)
    (hshared : Layer.ofFile? read "config/default" = some shared)
    (hhere : Layer.ofFile? read "tracker-cache" = some here)
    (hchosen : named.mapM (Layer.ofNamedFile? read) = some chosen) :
    choices? read environment named =
      Choices.ofDocument? (Overlay.merge (stack shared here chosen environment)) := by
  have husual : usualFiles.mapM (Layer.ofFile? read) = some [shared, here] := by
    simp [usualFiles, hshared, hhere]
  have hnamed : named.toList.mapM (Layer.ofNamedFile? read) = some chosen.toList := by
    cases named with
    | none =>
      obtain rfl : none = chosen := Option.some.inj hchosen
      rfl
    | some path =>
      obtain ⟨layer, hlayer, rfl⟩ :
          ∃ layer, Layer.ofNamedFile? read path = some layer ∧ some layer = chosen := by
        simpa [Option.mapM_some] using hchosen
      simp [hlayer]
  simp only [choices?, layers?, husual, hnamed, Option.bind_eq_bind, Option.bind_some, Option.pure_def, stack]

/-- A file with a length that would not do, one above it with a level that would not, and one to be named. -/
def doubtfulFiles : Files := fun path => List.lookup path [
  ("config/default.toml", "cache.default_page_length=0"),
  ("tracker-cache.toml", "logging.level='loud'"),
  ("site.toml", "logging.level='warn'")]

end Settings

end TaskIndex
