/-!
The words a task is described with: where it stands, why it exists and what its outcome is for.

Each word is written by one name and read back from that name alone. Words are ordered as they are
listed here.
-/

namespace TaskIndex

/-- Where a task stands. -/
inductive Status where
  | unsolved
  | resolved
  | absolved
  | dissolved
deriving DecidableEq, Hashable

/-- Why a task exists. -/
inductive Motive where
  | defect
  | request
  | idea
  | question
deriving DecidableEq, Hashable

/-- What the outcome of a task is for. -/
inductive Purpose where
  | feature
  | fix
  | refactor
  | documentation
  | support
deriving DecidableEq, Hashable

namespace Status

def all : List Status := [unsolved, resolved, absolved, dissolved]

def name : Status → String
  | unsolved => "unsolved"
  | resolved => "resolved"
  | absolved => "absolved"
  | dissolved => "dissolved"

def ofName? (s : String) : Option Status := all.find? (·.name = s)

/-- The task has left the unsolved state. -/
def isClosed (s : Status) : Bool := s != unsolved

instance : Ord Status := ⟨compareOn Status.ctorIdx⟩

instance : Std.TransOrd Status := inferInstanceAs (Std.TransCmp (compareOn Status.ctorIdx))

instance : Std.LawfulEqOrd Status where
  eq_of_compare {a b} h := by cases a <;> cases b <;> first | rfl | cases h

theorem ofName?_name (s : Status) : ofName? s.name = some s := by cases s <;> rfl

end Status

namespace Motive

def all : List Motive := [defect, request, idea, question]

def name : Motive → String
  | defect => "defect"
  | request => "request"
  | idea => "idea"
  | question => "question"

def ofName? (s : String) : Option Motive := all.find? (·.name = s)

instance : Ord Motive := ⟨compareOn Motive.ctorIdx⟩

instance : Std.TransOrd Motive := inferInstanceAs (Std.TransCmp (compareOn Motive.ctorIdx))

instance : Std.LawfulEqOrd Motive where
  eq_of_compare {a b} h := by cases a <;> cases b <;> first | rfl | cases h

theorem ofName?_name (m : Motive) : ofName? m.name = some m := by cases m <;> rfl

end Motive

namespace Purpose

def all : List Purpose := [feature, fix, refactor, documentation, support]

def name : Purpose → String
  | feature => "feature"
  | fix => "fix"
  | refactor => "refactor"
  | documentation => "documentation"
  | support => "support"

def ofName? (s : String) : Option Purpose := all.find? (·.name = s)

instance : Ord Purpose := ⟨compareOn Purpose.ctorIdx⟩

instance : Std.TransOrd Purpose := inferInstanceAs (Std.TransCmp (compareOn Purpose.ctorIdx))

instance : Std.LawfulEqOrd Purpose where
  eq_of_compare {a b} h := by cases a <;> cases b <;> first | rfl | cases h

theorem ofName?_name (p : Purpose) : ofName? p.name = some p := by cases p <;> rfl

end Purpose

end TaskIndex
