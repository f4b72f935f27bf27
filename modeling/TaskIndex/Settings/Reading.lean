import TaskIndex.Document.Basic
import TaskIndex.Settings.Basic
import TaskIndex.Text.Lowercase

/-!
Reading choices out of a document of settings.

There is one section for logging, one for the cache and one for the snapshot, and each may be missing. A
value is bent into the kind that its setting needs: a number or a truth value can be a text, and a text
that spells a number or a truth value can be one. A null leaves the choice open.
-/

namespace TaskIndex

namespace Choices

/-- A text, or how another scalar is written. -/
def text? : Document → Option String
  | .text s => some s
  | .moment s => some s
  | .flag b => some (if b then "true" else "false")
  | .integer n => some (.ofList (Text.ofInt n))
  | .real x => some (.ofList x.chars)
  | _ => none

/-- A word for yes or no, in any case. -/
def yesNo? (s : String) : Option Bool :=
  match String.ofList (Text.lowercase s) with
  | "true" | "on" | "yes" => some true
  | "false" | "off" | "no" => some false
  | _ => none

/-- A word for yes or no or one of their digits. -/
def yesNoDigit? (s : String) : Option Bool :=
  match s with
  | "1" => some true
  | "0" => some false
  | s => yesNo? s

/-- A truth value. A number means yes unless it is zero. -/
def flag? : Document → Option Bool
  | .flag b => some b
  | .integer n => some (n != 0)
  | .real x => some (!x.isZero)
  | .text s => yesNoDigit? s
  | .moment s => yesNoDigit? s
  | _ => none

/-- A text as a count: a word for yes or no, or a numeral. -/
def countOfText? (s : String) : Option UInt64 :=
  match yesNo? s with
  | some b => some (if b then 1 else 0)
  | none => Text.uint64? s

/-- A count. A number with a fraction is rounded and brought into the range. -/
def count? : Document → Option UInt64
  | .integer n => if 0 ≤ n ∧ n < UInt64.size then some (.ofNat n.toNat) else none
  | .flag b => some (if b then 1 else 0)
  | .real x => some (.ofNat (x.toNatWithin (UInt64.size - 1)))
  | .text s => countOfText? s
  | .moment s => countOfText? s
  | _ => none

/-- Where a setting stands: its key in a table, its position in a list. -/
structure Place where
  key : String
  position : Nat

def choice? {α : Type} (read : Document → Option α) (place : Place) (part : Document) :
    Option (Option α) :=
  let value := match part with
    | .table entries => Document.valueOf? place.key entries
    | .list items => items[place.position]?
    | _ => none
  match value with
  | none | some .null => some none
  | some d => (read d).map some

/-- A section: a table or a list; a missing one is empty. -/
def section? (d : Document) (key : String) : Option Document :=
  match d.get? key with
  | none => some (.table [])
  | some (.table entries) => some (.table entries)
  | some (.list items) => some (.list items)
  | some _ => none

def ofDocument? (d : Document) : Option Choices := do
  let logging ← section? d "logging"
  let cache ← section? d "cache"
  let snapshot ← section? d "snapshot"
  return {
    level := ← choice? text? ⟨"level", 0⟩ logging
    json := ← choice? flag? ⟨"json", 1⟩ logging
    defaultLength := ← choice? count? ⟨"default_page_length", 0⟩ cache
    maxLength := ← choice? count? ⟨"max_page_length", 1⟩ cache
    snapshotPath := ← choice? text? ⟨"path", 0⟩ snapshot }

end Choices

end TaskIndex
