import TaskIndex.Text.Case.Cased
import TaskIndex.Text.Case.Ignorable
import TaskIndex.Text.Case.Lower
import TaskIndex.Text.Split

/-!
The lower case of a text.

Character by character, with two exceptions: the capital I with a dot becomes an i and a combining
dot, and a capital sigma becomes the final form at the end of a word. A sigma ends a word when, past
the characters that case ignores, a cased one comes before it and none comes after it.
-/

namespace TaskIndex.Text

/-- The first character that case does not ignore is cased. -/
def meetsCased (cs : List Char) : Bool :=
  match cs.dropWhile isCaseIgnorable with
  | c :: _ => isCased c
  | [] => false

/-- The lower case of `c`, where `before` is the text to its left from near to far and `rest` the
text to its right. -/
def lowerAt (before : List Char) (c : Char) (rest : List Char) : List Char :=
  if c = 'Σ' then [if meetsCased before && !meetsCased rest then 'ς' else 'σ']
  else if c = 'İ' then ['i', '\u0307']
  else [lowerChar c]

/-- The lower case of a text that continues `before`. -/
def lowerAfter (before : List Char) : List Char → List Char
  | [] => []
  | c :: rest => lowerAt before c rest ++ lowerAfter (c :: before) rest

def lowercase (s : String) : List Char :=
  lowerAfter [] s.toList

/-- The text holds the other one, whatever the case of the two. -/
def holdsIgnoringCase (needle text : String) : Bool :=
  holds (lowercase needle) (lowercase text)

end TaskIndex.Text
