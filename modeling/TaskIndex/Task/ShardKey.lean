import TaskIndex.Text.Blank

/-!
Shard keys: the project names that tasks are filed under.

A key is a text that is not empty and has no blank at either end, so making a key of a key's own
text gives the key back.
-/

namespace TaskIndex

/-- The name of one shard. -/
structure ShardKey where
  text : String
  trimmed : Text.trim text = text
  ne_empty : text ≠ ""

namespace ShardKey

/-- The key a text names once its outer blanks are gone; a blank text names none. -/
def of? (s : String) : Option ShardKey :=
  if h : Text.trim s = "" then none else some ⟨Text.trim s, Text.trim_trim s, h⟩

theorem of?_text (k : ShardKey) : of? k.text = some k := by
  obtain ⟨text, trimmed, ne_empty⟩ := k
  simp [of?, trimmed, ne_empty]

theorem ext {j k : ShardKey} (h : j.text = k.text) : j = k := by
  cases j; cases k; simp_all

instance : DecidableEq ShardKey := fun j k => decidable_of_iff (j.text = k.text) ⟨ext, congrArg text⟩

/-- Keys are ordered as their texts are, by code point. -/
instance : Ord ShardKey := ⟨compareOn ShardKey.text⟩

instance : Std.TransOrd ShardKey := inferInstanceAs (Std.TransCmp (compareOn ShardKey.text))

instance : Std.LawfulEqOrd ShardKey where
  eq_of_compare h := ext (Std.LawfulEqOrd.eq_of_compare (α := String) h)

instance : Hashable ShardKey := ⟨fun k => hash k.text⟩

end ShardKey

end TaskIndex
