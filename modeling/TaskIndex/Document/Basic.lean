import TaskIndex.Number.Binary64

/-!
Documents: the trees of values that the two document formats, JSON and TOML, are read into.
-/

namespace TaskIndex

/-- A value of a document. -/
inductive Document where
  | null
  | flag (b : Bool)
  | integer (n : Int)
  | real (x : Binary64)
  /-- A date, a time of day or both, in its normal written form. -/
  | moment (s : String)
  | text (s : String)
  | list (items : List Document)
  | table (entries : List (String × Document))

namespace Document

instance : Inhabited Document := ⟨null⟩

/-- The entries with a value for a key: in the place of the one there was, or at the end. -/
def putEntry (key : String) (value : Document) :
    List (String × Document) → List (String × Document)
  | [] => [(key, value)]
  | entry :: rest => if entry.1 = key then (key, value) :: rest else entry :: putEntry key value rest

def valueOf? (key : String) (entries : List (String × Document)) : Option Document :=
  entries.lookup key

/-- The value of a key, if the document is a table that has one. -/
def get? (key : String) : Document → Option Document
  | table entries => valueOf? key entries
  | _ => none

end Document

end TaskIndex
