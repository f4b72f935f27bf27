import TaskIndex.Document.Toml.Quoted
import TaskIndex.Document.Toml.Scalar
import TaskIndex.Document.Toml.Tree

/-!
Reading TOML.

A document is read line by line: a header opens a table, and a key with a value adds to the table that
was opened last. A value may run over several lines; lists and tables inside a value may hold line breaks
and comments between their parts and end with a comma.

The recursion is bounded by a count of steps that the length of the text pays for.
-/

namespace TaskIndex.Toml

/-- How many lists and tables can be open at one place inside a value, and how many parts a key can
have. -/
def maxDepth : Nat := 80

/-- Drops blanks, line breaks and comments. -/
def skipLayout (inComment : Bool) : List Char → Option (List Char)
  | [] => some []
  | '\n' :: rest => skipLayout false rest
  | '\r' :: '\n' :: rest => skipLayout false rest
  | c :: rest =>
    if inComment then (if isPlain c then skipLayout true rest else none)
    else if isSpace c then skipLayout false rest
    else if c = '#' then skipLayout true rest
    else some (c :: rest)

/-- What follows the end of a line, where only blanks and a comment may stand before it. -/
def lineEnd? (cs : List Char) : Option (List Char) :=
  let afterBreak : List Char → Option (List Char)
    | [] => some []
    | '\n' :: rest => some rest
    | '\r' :: '\n' :: rest => some rest
    | _ => none
  match cs.dropWhile isSpace with
  | '#' :: rest => afterBreak (rest.dropWhile isPlain)
  | rest => afterBreak rest

/-! ### Keys -/

/-- A character of a key without quotes. -/
def isBare (c : Char) : Bool := c.isAlphanum || c = '_' || c = '-'

/-- One part of a key. -/
def keyPart? (cs : List Char) : Option (String × List Char) :=
  match cs with
  | '"' :: rest => basic? [] (rest.length + 1) rest
  | '\'' :: rest => literal? [] rest
  | _ =>
    let part := cs.takeWhile isBare
    if part.isEmpty then none else some (.ofList part, cs.drop part.length)

/-- A key of at most `parts` parts: the ones in front of its dots and the last one. -/
def keyWithin? : (parts : Nat) → List Char → Option ((List String × String) × List Char)
  | 0, _ => none
  | parts + 1, cs => do
    let (part, rest) ← keyPart? (cs.dropWhile isSpace)
    match rest.dropWhile isSpace with
    | '.' :: rest =>
      let ((path, last), rest) ← keyWithin? parts rest
      return ((part :: path, last), rest)
    | rest => return (([], part), rest)

/-- A key. -/
def key? (cs : List Char) : Option ((List String × String) × List Char) := keyWithin? maxDepth cs

/-! ### Values -/

/-- What follows the equals sign of an entry in a table inside a value. Line breaks and comments may stand
on both sides of the sign. -/
def equalsSign? (cs : List Char) : Option (List Char) :=
  match skipLayout false cs with
  | some ('=' :: rest) => skipLayout false rest
  | _ => none

mutual

/-- A value at the head of a text. -/
def value? (depth : Nat) : (fuel : Nat) → List Char → Option (Document × List Char)
  | 0, _ => none
  | fuel + 1, cs =>
    match quoted? cs with
    | some text => text.map fun (s, rest) => (.text s, rest)
    | none =>
      match depth, cs with
      | 0, '[' :: _ => none
      | 0, '\x7b' :: _ => none
      | depth + 1, '[' :: rest =>
        (items? depth fuel rest).map fun (items, rest) => (.list items, rest)
      | depth + 1, '\x7b' :: rest =>
        (entries? depth [] fuel rest).map fun (entries, rest) =>
          (.table (documentEntries entries), rest)
      | _, _ =>
        let (front, rest) := run cs
        (scalar? front).map fun d => (d, rest)

/-- The items of a list up to its end. -/
def items? (depth : Nat) : (fuel : Nat) → List Char → Option (List Document × List Char)
  | 0, _ => none
  | fuel + 1, cs =>
    match skipLayout false cs with
    | none => none
    | some (']' :: rest) => some ([], rest)
    | some cs =>
      match value? depth fuel cs with
      | none => none
      | some (item, rest) =>
        match skipLayout false rest with
        | some (',' :: rest) =>
          (items? depth fuel rest).map fun (items, rest) => (item :: items, rest)
        | some (']' :: rest) => some ([item], rest)
        | _ => none

/-- The entries of a table inside a value up to its end, added to the ones there are. -/
def entries? (depth : Nat) (acc : Entries) : (fuel : Nat) → List Char → Option (Entries × List Char)
  | 0, _ => none
  | fuel + 1, cs =>
    match skipLayout false cs with
    | none => none
    | some ('\x7d' :: rest) => some (acc, rest)
    | some cs =>
      match key? cs with
      | none => none
      | some ((path, key), rest) =>
        match (equalsSign? rest).bind (value? depth fuel) with
        | none => none
        | some (value, rest) =>
          match acc.add? path key value with
          | none => none
          | some acc =>
            match skipLayout false rest with
            | some (',' :: rest) => entries? depth acc fuel rest
            | some ('\x7d' :: rest) => some (acc, rest)
            | _ => none

end

/-! ### Lines -/

/-- What has been read of a document: its tables, and the path of the one that was opened last. -/
structure Reading where
  root : Entries := []
  here : List String := []

/-- Reads a header, after its first bracket. -/
def header? (r : Reading) (cs : List Char) : Option (Reading × List Char) :=
  match cs with
  | '[' :: rest =>
    match key? rest with
    | some ((path, key), ']' :: ']' :: rest) =>
      (r.root.openNext? path key).map fun root => (⟨root, path ++ [key]⟩, rest)
    | _ => none
  | _ =>
    match key? cs with
    | some ((path, key), ']' :: rest) =>
      (r.root.open? path key).map fun root => (⟨root, path ++ [key]⟩, rest)
    | _ => none

def assignment? (r : Reading) (cs : List Char) : Option (Reading × List Char) :=
  match key? cs with
  | some ((path, key), '=' :: rest) => do
    let (value, rest) ← value? maxDepth (2 * rest.length + 2) (rest.dropWhile isSpace)
    let root ← r.root.addAt? r.here path key value
    return ({ r with root }, rest)
  | _ => none

def lines? (r : Reading) : (fuel : Nat) → List Char → Option Reading
  | 0, _ => none
  | fuel + 1, cs =>
    match skipLayout false cs with
    | none => none
    | some [] => some r
    | some ('[' :: rest) => do
      let (r, rest) ← header? r rest
      lines? r fuel (← lineEnd? rest)
    | some cs => do
      let (r, rest) ← assignment? r cs
      lines? r fuel (← lineEnd? rest)

/-- Reads a document; a byte order mark may stand in front of it. -/
def read? (s : String) : Option Document :=
  let cs := match s.toList with
    | '\ufeff' :: rest => rest
    | cs => cs
  (lines? {} (cs.length + 1) cs).map fun r => .table (documentEntries r.root)

end TaskIndex.Toml
