import TaskIndex.Calendar.Date
import TaskIndex.Text.Numeral

/-!
The written form of a day: `YYYY-MM-DD`, every part padded with zeros, with a sign in front of a
negative year. Reading also takes a plus, or a minus in front of year zero.
-/

namespace TaskIndex.Date

def chars (d : Date) : List Char :=
  let year := Text.padded 4 d.year.natAbs
  (if d.year < 0 then '-' :: year else year) ++
    '-' :: Text.padded 2 d.month ++ '-' :: Text.padded 2 d.day

def text (d : Date) : String := String.ofList d.chars

/-- A day with an unsigned year. -/
def readUnsigned? (negative : Bool) (cs : List Char) : Option Date :=
  match Text.takeDigits? 4 cs with
  | some (year, '-' :: cs) =>
    match Text.takeDigits? 2 cs with
    | some (month, '-' :: cs) =>
      match Text.takeDigits? 2 cs with
      | some (day, []) => of? (if negative then -(year : Int) else year) month day
      | _ => none
    | _ => none
  | _ => none

/-- Reads a written day. -/
def read? : List Char → Option Date
  | '-' :: cs => readUnsigned? true cs
  | '+' :: cs => readUnsigned? false cs
  | cs => readUnsigned? false cs

/-- Reads a written day. -/
def ofText? (s : String) : Option Date := read? s.toList

end TaskIndex.Date
