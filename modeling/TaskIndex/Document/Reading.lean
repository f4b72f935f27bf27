import TaskIndex.Document.Basic

/-!
Reading values of other types out of a document.

Nothing is bent into shape: a number has to be an integer in the range of the word that is asked for,
a text has to be a text, and null is taken only where a value may be missing.
-/

namespace TaskIndex.Document

def text? : Document → Option String
  | text s => some s
  | _ => none

def flag? : Document → Option Bool
  | flag b => some b
  | _ => none

/-- An integer from zero up to, and without, `bound`. -/
def below? (bound : Nat) : Document → Option Nat
  | integer n => if 0 ≤ n ∧ n < bound then some n.toNat else none
  | _ => none

def uint16? (d : Document) : Option UInt16 := (d.below? UInt16.size).map .ofNat

def uint32? (d : Document) : Option UInt32 := (d.below? UInt32.size).map .ofNat

def uint64? (d : Document) : Option UInt64 := (d.below? UInt64.size).map .ofNat

def int64? : Document → Option Int64
  | integer n =>
    if Int64.minValue.toInt ≤ n ∧ n ≤ Int64.maxValue.toInt then some (.ofInt n) else none
  | _ => none

/-- A text that a table of names knows. -/
def named? {α : Type} (ofName? : String → Option α) (d : Document) : Option α :=
  d.text?.bind ofName?

/-- A list of which every item can be read. -/
def list? {α : Type} (read : Document → Option α) : Document → Option (List α)
  | list items => items.mapM read
  | _ => none

/-- A value or null. -/
def orNull {α : Type} (read : Document → Option α) : Document → Option (Option α)
  | null => some none
  | d => (read d).map some

/-- The value of a key that has to be there. -/
def field {α : Type} (d : Document) (key : String) (read : Document → Option α) : Option α :=
  (d.get? key).bind read

/-- The value of a key, or another value when the key is missing. -/
def fieldOr {α : Type} (d : Document) (key : String) (other : α) (read : Document → Option α) :
    Option α :=
  match d.get? key with
  | none => some other
  | some value => read value

/-- A value that may be missing, as a document. -/
def ofOption {α : Type} (write : α → Document) : Option α → Document
  | none => null
  | some a => write a

def ofTexts (texts : List String) : Document := list (texts.map text)

def ofNat (n : Nat) : Document := integer n

end TaskIndex.Document
