import TaskIndex.Document.Basic
import TaskIndex.Number.Stepwise

/-!
Reading JSON.

The reader takes the characters from left to right and gives back what it has not used. Numbers without
a point and without an exponent are integers when a 64-bit word can hold them; the others are binary64
numbers, which are made in steps of as many digits as an unsigned word holds. A number beyond all of these
is refused. Of several entries with one key the last one counts. Nesting is limited, and nothing but blanks
may follow the document.

The recursion is bounded by a count of steps that the length of the text pays for.
-/

namespace TaskIndex.Json

/-- How many lists and tables can be open at one place. -/
def maxDepth : Nat := 127

/-- Drops the blanks that may stand between the parts. -/
def skipBlanks (cs : List Char) : List Char :=
  cs.dropWhile fun c => c = ' ' || c = '\n' || c = '\t' || c = '\r'

/-- Four hexadecimal digits. -/
def unit? (cs : List Char) : Option (Nat × List Char) :=
  (Text.takeExactly? 4 cs).bind fun (ds, rest) => (Text.readBase 16 0 ds).map fun n => (n, rest)

/-- The character of an escape by number, which may take two units. -/
def escapedUnit? (cs : List Char) : Option (Char × List Char) :=
  match unit? cs with
  | none => none
  | some (n, rest) =>
    if 0xD800 ≤ n ∧ n < 0xDC00 then
      match rest with
      | '\\' :: 'u' :: rest =>
        match unit? rest with
        | some (m, rest) =>
          if 0xDC00 ≤ m ∧ m < 0xE000 then
            some (Char.ofNat (0x10000 + (n - 0xD800) * 0x400 + (m - 0xDC00)), rest)
          else none
        | none => none
      | _ => none
    else if 0xDC00 ≤ n ∧ n < 0xE000 then none
    else some (Char.ofNat n, rest)

/-- The rest of a quoted text, after its first quote. -/
def quotedRest (acc : List Char) : (fuel : Nat) → List Char → Option (String × List Char)
  | 0, _ => none
  | fuel + 1, cs =>
    match cs with
    | '"' :: rest => some (String.ofList acc.reverse, rest)
    | '\\' :: 'u' :: rest =>
      (escapedUnit? rest).bind fun (c, rest) => quotedRest (c :: acc) fuel rest
    | '\\' :: c :: rest =>
      let plain (c : Char) := quotedRest (c :: acc) fuel rest
      match c with
      | '"' => plain '"'
      | '\\' => plain '\\'
      | '/' => plain '/'
      | 'b' => plain '\x08'
      | 'f' => plain '\x0c'
      | 'n' => plain '\n'
      | 'r' => plain '\r'
      | 't' => plain '\t'
      | _ => none
    | c :: rest => if c.toNat < 0x20 then none else quotedRest (c :: acc) fuel rest
    | [] => none

/-- The digits at the head of a text and the rest. -/
def digits (cs : List Char) : List Char × List Char :=
  (cs.takeWhile Char.isDigit, cs.dropWhile Char.isDigit)

/-- What the digits of a number make. -/
structure Significand where
  /-- The digits that count, as an unsigned 64-bit word. -/
  word : Nat := 0
  /-- How many digits count. -/
  taken : Nat := 0
  /-- How many digits after them do not count. -/
  dropped : Nat := 0

/-- Adds digits for as long as the word can hold them; from the first one that it cannot hold on, none
counts. -/
def Significand.add (s : Significand) : List Char → Significand
  | [] => s
  | c :: cs =>
    match Text.digit? c with
    | some d =>
      if 10 * s.word + d < UInt64.size then
        Significand.add ⟨10 * s.word + d, s.taken + 1, s.dropped⟩ cs
      else { s with dropped := s.dropped + (c :: cs).length }
    | none => s

/-- The exponent at the head of a text, if there is one; refused if it has no digits. -/
def exponent? (cs : List Char) : Option (Option Int × List Char) :=
  match cs with
  | 'e' :: rest | 'E' :: rest =>
    let (negative, rest) :=
      match rest with
      | '-' :: rest => (true, rest)
      | '+' :: rest => (false, rest)
      | rest => (false, rest)
    match digits rest with
    | ([], _) => none
    | (ds, rest) =>
      (Text.readDigits 0 ds).map fun n => (some (if negative then -(n : Int) else n), rest)
  | _ => some (none, cs)

/-- The fraction at the head of a text, as its digits; refused if it has none. -/
def fraction? (cs : List Char) : Option (Option (List Char) × List Char) :=
  match cs with
  | '.' :: rest =>
    match digits rest with
    | ([], _) => none
    | (ds, rest) => some (some ds, rest)
  | _ => some (none, cs)

/-- An integer, if it is a word: an unsigned one, or a signed one below zero. -/
def word? (negative : Bool) (n : Nat) : Option Document :=
  if negative then (if n = 0 ∨ 1 <<< 63 < n then none else some (.integer (-n)))
  else some (.integer n)

/-- A number. A minus in front of zero makes it a binary64 number. -/
def number? (cs : List Char) : Option (Document × List Char) :=
  let (negative, cs) :=
    match cs with
    | '-' :: rest => (true, rest)
    | cs => (false, cs)
  match digits cs with
  | ([], _) => none
  | ('0' :: _ :: _, _) => none
  | (whole, rest) => do
    let (fraction, rest) ← fraction? rest
    let (exponent, rest) ← exponent? rest
    let w := Significand.add {} whole
    let plain := fraction.isNone && exponent.isNone && w.dropped == 0
    match (if plain then word? negative w.word else none) with
    | some d => return (d, rest)
    | none =>
      let f := Significand.add { word := w.word } (fraction.getD [])
      let x ← Binary64.ofSteps? negative f.word (exponent.getD 0 + w.dropped - f.taken)
      return (.real x, rest)

mutual

/-- A value at the head of a text that begins with no blank. -/
def value? (depth : Nat) : (fuel : Nat) → List Char → Option (Document × List Char)
  | 0, _ => none
  | fuel + 1, cs =>
    match cs with
    | '"' :: rest => (quotedRest [] (rest.length + 1) rest).map fun (s, rest) => (.text s, rest)
    | '[' :: rest =>
      match depth, skipBlanks rest with
      | 0, _ => none
      | _, ']' :: rest => some (.list [], rest)
      | depth + 1, rest => (items? depth fuel rest).map fun (items, rest) => (.list items, rest)
    | '\x7b' :: rest =>
      match depth, skipBlanks rest with
      | 0, _ => none
      | _, '\x7d' :: rest => some (.table [], rest)
      | depth + 1, rest =>
        (entries? depth [] fuel rest).map fun (entries, rest) => (.table entries, rest)
    | 'n' :: 'u' :: 'l' :: 'l' :: rest => some (.null, rest)
    | 't' :: 'r' :: 'u' :: 'e' :: rest => some (.flag true, rest)
    | 'f' :: 'a' :: 'l' :: 's' :: 'e' :: rest => some (.flag false, rest)
    | cs => number? cs

/-- The items of a list up to its end. -/
def items? (depth : Nat) : (fuel : Nat) → List Char → Option (List Document × List Char)
  | 0, _ => none
  | fuel + 1, cs =>
    match value? depth fuel cs with
    | none => none
    | some (item, rest) =>
      match skipBlanks rest with
      | ',' :: rest => (items? depth fuel (skipBlanks rest)).map fun (items, rest) => (item :: items, rest)
      | ']' :: rest => some ([item], rest)
      | _ => none

/-- The entries of a table up to its end, put to the ones there are. -/
def entries? (depth : Nat) (acc : List (String × Document)) :
    (fuel : Nat) → List Char → Option (List (String × Document) × List Char)
  | 0, _ => none
  | fuel + 1, cs =>
    match cs with
    | '"' :: rest =>
      match quotedRest [] (rest.length + 1) rest with
      | none => none
      | some (key, rest) =>
        match skipBlanks rest with
        | ':' :: rest =>
          match value? depth fuel (skipBlanks rest) with
          | none => none
          | some (value, rest) =>
            let acc := Document.putEntry key value acc
            match skipBlanks rest with
            | ',' :: rest => entries? depth acc fuel (skipBlanks rest)
            | '\x7d' :: rest => some (acc, rest)
            | _ => none
        | _ => none
    | _ => none

end

def read? (s : String) : Option Document :=
  let cs := s.toList
  match value? maxDepth (2 * cs.length + 2) (skipBlanks cs) with
  | some (d, rest) => if (skipBlanks rest).isEmpty then some d else none
  | none => none

end TaskIndex.Json
