import TaskIndex.Text.Blank

/-!
The tags that tell what a change has done.

A tag is one of nine, some of which have other spellings, or a text that is none of them and is kept
as it is, so that a newer sender does not disturb an older cache. Reading a written tag gives the
same tag back.
-/

namespace TaskIndex

/-- A tag whose meaning is known. -/
inductive Tag where
  | created
  | temperature
  | resolved
  | absolved
  | dissolved
  | area
  | version
  | membership
  | archived
deriving DecidableEq

namespace Tag

def name : Tag → String
  | created => "created"
  | temperature => "temperature"
  | resolved => "resolved"
  | absolved => "absolved"
  | dissolved => "dissolved"
  | area => "area"
  | version => "version"
  | membership => "membership"
  | archived => "archived"

/-- The tag that a trimmed text spells. -/
def ofText? : String → Option Tag
  | "created" => some created
  | "temperature" | "emphasis" => some temperature
  | "resolved" => some resolved
  | "absolved" => some absolved
  | "dissolved" => some dissolved
  | "area" => some area
  | "version" => some version
  | "membership" | "participants" | "aspirants" | "watchers" => some membership
  | "archived" => some archived
  | _ => none

theorem ofText?_name (t : Tag) : ofText? t.name = some t := by cases t <;> rfl

end Tag

/-- What a change has done. -/
inductive Operation where
  | known (tag : Tag)
  /-- A trimmed text that spells no known tag. -/
  | unrecognized (text : String) (trimmed : Text.trim text = text) (foreign : Tag.ofText? text = none)
deriving DecidableEq

namespace Operation

/-- The operation that a tag in writing stands for, blanks aside. -/
def ofText (s : String) : Operation :=
  match h : Tag.ofText? (Text.trim s) with
  | some tag => known tag
  | none => unrecognized (Text.trim s) (Text.trim_trim s) h

def text : Operation → String
  | known tag => tag.name
  | unrecognized s _ _ => s

def isUnrecognized : Operation → Bool
  | known _ => false
  | unrecognized .. => true

end Operation

end TaskIndex
