import TaskIndex.Document.Basic

/-!
Writing documents as JSON.

A table's entries are written in their order. Inside a text only the quote, the backslash and the
control characters below the blank are escaped, with a short escape where there is one. The long form
gives every item and entry a line of its own, two blanks deeper than its surroundings.
-/

namespace TaskIndex.Document

/-- A hexadecimal digit in lower case. -/
def hexDigit (n : Nat) : Char := Char.ofNat (if n < 10 then 48 + n else 87 + n)

/-- A character inside a quoted text. -/
def escaped (c : Char) : List Char :=
  match c with
  | '"' => ['\\', '"']
  | '\\' => ['\\', '\\']
  | '\n' => ['\\', 'n']
  | '\r' => ['\\', 'r']
  | '\t' => ['\\', 't']
  | '\x08' => ['\\', 'b']
  | '\x0c' => ['\\', 'f']
  | c =>
    if c.toNat < 0x20 then
      ['\\', 'u', '0', '0', hexDigit (c.toNat / 16), hexDigit (c.toNat % 16)]
    else [c]

def quoted (s : String) : List Char := '"' :: s.toList.flatMap escaped ++ ['"']

/-- Pieces between two brackets, with commas between them. Without pieces the brackets meet;
otherwise every piece begins with `opening`, and `closing` comes before the last bracket. -/
def bracketed (left right : Char) (opening closing : List Char) : List (List Char) → List Char
  | [] => [left, right]
  | piece :: rest =>
    left :: opening ++ piece ++ rest.flatMap (fun piece => ',' :: opening ++ piece) ++ closing ++ [right]

/-- What begins a line at a depth, in the long form. -/
def newLine (depth : Nat) : List Char := '\n' :: List.replicate (2 * depth) ' '

mutual

/-- A document in JSON, in the long form when `long`, where `depth` brackets are open. -/
def jsonChars (long : Bool) (depth : Nat) : Document → List Char
  | null => ['n', 'u', 'l', 'l']
  | flag b => if b then ['t', 'r', 'u', 'e'] else ['f', 'a', 'l', 's', 'e']
  | integer n => Text.ofInt n
  | real x => x.chars
  | moment s => quoted s
  | text s => quoted s
  | list items =>
    bracketed '[' ']' (if long then newLine (depth + 1) else []) (if long then newLine depth else [])
      (jsonItems long (depth + 1) items)
  | table entries =>
    bracketed '\x7b' '\x7d' (if long then newLine (depth + 1) else [])
      (if long then newLine depth else []) (jsonEntries long (depth + 1) entries)

/-- The items of a list, each in JSON. -/
def jsonItems (long : Bool) (depth : Nat) : List Document → List (List Char)
  | [] => []
  | item :: rest => jsonChars long depth item :: jsonItems long depth rest

/-- The entries of a table, each with its key in JSON. -/
def jsonEntries (long : Bool) (depth : Nat) : List (String × Document) → List (List Char)
  | [] => []
  | (key, value) :: rest =>
    (quoted key ++ ':' :: (if long then [' '] else []) ++ jsonChars long depth value) ::
      jsonEntries long depth rest

end

/-- A document in JSON, on one line. -/
def json (d : Document) : String := String.ofList (jsonChars false 0 d)

/-- A document in JSON, in the long form. -/
def longJson (d : Document) : String := String.ofList (jsonChars true 0 d)

end TaskIndex.Document
