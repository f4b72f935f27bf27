import TaskIndex.Text.Numeral

/-!
Quoted texts in TOML.

There are four kinds. Double quotes allow escapes and single quotes do not; one quote keeps the text on
a line, three let it run over several. A line break right after three opening quotes does not count, and
up to two quotes may stand before the three closing ones. In a text with three double quotes, a backslash
at the end of a line swallows all blanks and line breaks after it.
-/

namespace TaskIndex.Toml

/-- A character that may stand in a comment and in a text on one line. -/
def isPlain (c : Char) : Bool := c = '\t' || (0x20 ≤ c.toNat && c.toNat != 0x7F)

def isSpace (c : Char) : Bool := c = ' ' || c = '\t'

/-- The character whose number is written with `width` hexadecimal digits. -/
def numbered? (width : Nat) (cs : List Char) : Option (Char × List Char) :=
  match Text.takeExactly? width cs with
  | some (ds, rest) =>
    match Text.readBase 16 0 ds with
    | some n => if n.isValidChar then some (.ofNat n, rest) else none
    | none => none
  | none => none

/-- The character of an escape, after its backslash. -/
def escape? : List Char → Option (Char × List Char)
  | 'b' :: rest => some ('\x08', rest)
  | 't' :: rest => some ('\t', rest)
  | 'n' :: rest => some ('\n', rest)
  | 'f' :: rest => some ('\x0c', rest)
  | 'r' :: rest => some ('\r', rest)
  | 'e' :: rest => some ('\x1b', rest)
  | '"' :: rest => some ('"', rest)
  | '\\' :: rest => some ('\\', rest)
  | 'x' :: rest => numbered? 2 rest
  | 'u' :: rest => numbered? 4 rest
  | 'U' :: rest => numbered? 8 rest
  | _ => none

/-- The rest of a text in single quotes, after the first. -/
def literal? (acc : List Char) : List Char → Option (String × List Char)
  | '\'' :: rest => some (.ofList acc.reverse, rest)
  | c :: rest => if isPlain c then literal? (c :: acc) rest else none
  | [] => none

/-- The rest of a text in double quotes, after the first. -/
def basic? (acc : List Char) : (fuel : Nat) → List Char → Option (String × List Char)
  | 0, _ => none
  | fuel + 1, cs =>
    match cs with
    | '"' :: rest => some (.ofList acc.reverse, rest)
    | '\\' :: rest => (escape? rest).bind fun (c, rest) => basic? (c :: acc) fuel rest
    | c :: rest => if isPlain c then basic? (c :: acc) fuel rest else none
    | [] => none

/-- Without the line break at the head, if there is one. -/
def dropLineBreak : List Char → List Char
  | '\n' :: rest => rest
  | '\r' :: '\n' :: rest => rest
  | cs => cs

/-- Without the blanks and line breaks at the head. -/
def dropLayout : List Char → List Char
  | '\r' :: '\n' :: rest => dropLayout rest
  | c :: rest => if isSpace c || c = '\n' then dropLayout rest else c :: rest
  | [] => []

/-- The end of a text over several lines, which stands at the head: of three to five quotes all but
three belong to the text. -/
def closing? (quote : Char) (acc cs : List Char) : Option (String × List Char) :=
  let quotes := ((cs.takeWhile (· = quote)).take 5).length
  if 3 ≤ quotes then
    some (.ofList (acc.reverse ++ List.replicate (quotes - 3) quote), cs.drop quotes)
  else none

/-- The rest of a text in three quotes, after the first three. -/
def longText? (quote : Char) (acc : List Char) :
    (fuel : Nat) → List Char → Option (String × List Char)
  | 0, _ => none
  | fuel + 1, cs =>
    match cs with
    | [] => none
    | '\n' :: rest => longText? quote ('\n' :: acc) fuel rest
    | '\r' :: '\n' :: rest => longText? quote ('\n' :: '\r' :: acc) fuel rest
    | c :: rest =>
      if c = quote then
        match closing? quote acc cs with
        | some result => some result
        | none => longText? quote (c :: acc) fuel rest
      else if c = '\\' ∧ quote = '"' then
        match rest.dropWhile isSpace with
        | '\n' :: rest => longText? quote acc fuel (dropLayout rest)
        | '\r' :: '\n' :: rest => longText? quote acc fuel (dropLayout rest)
        | _ => (escape? rest).bind fun (c, rest) => longText? quote (c :: acc) fuel rest
      else if isPlain c then longText? quote (c :: acc) fuel rest
      else none

/-- A text in quotes of any kind at the head, if one begins there. -/
def quoted? (cs : List Char) : Option (Option (String × List Char)) :=
  match cs with
  | '"' :: '"' :: '"' :: rest => some (longText? '"' [] (rest.length + 1) (dropLineBreak rest))
  | '\'' :: '\'' :: '\'' :: rest => some (longText? '\'' [] (rest.length + 1) (dropLineBreak rest))
  | '"' :: rest => some (basic? [] (rest.length + 1) rest)
  | '\'' :: rest => some (literal? [] rest)
  | _ => none

end TaskIndex.Toml
