import TaskIndex.Calendar.DateText
import TaskIndex.Document.Basic

/-!
Scalars in TOML that stand without quotes: truth values, numbers, days and times.

A scalar is a whole run of characters up to the next separator, so what it means depends on nothing
around it. Integers have to be signed 64-bit words, and a decimal beyond the binary64 numbers is refused.
Days and times are kept in their normal written form.
-/

namespace TaskIndex.Toml

/-- The digits of a run in which single underscores may stand between two digits. -/
def grouped? (isDigit : Char → Bool) : List Char → Option (List Char)
  | [] => none
  | [c] => if isDigit c then some [c] else none
  | c :: '_' :: rest => if isDigit c then (grouped? isDigit rest).map (c :: ·) else none
  | c :: rest => if isDigit c then (grouped? isDigit rest).map (c :: ·) else none

def decimalDigits? (cs : List Char) : Option (List Char) := grouped? Char.isDigit cs

/-- A run of decimal digits without a needless zero in front. -/
def wholeDigits? (cs : List Char) : Option (List Char) :=
  match decimalDigits? cs with
  | some ('0' :: _ :: _) => none
  | ds => ds

/-- The sign at the head, if there is one: whether it is a minus, and the rest. -/
def sign : List Char → Bool × List Char
  | '-' :: rest => (true, rest)
  | '+' :: rest => (false, rest)
  | cs => (false, cs)

/-- An integer within the signed 64-bit words. -/
def word? (n : Int) : Option Document :=
  if Int64.minValue.toInt ≤ n ∧ n ≤ Int64.maxValue.toInt then some (.integer n) else none

/-- An integer in a base other than ten. -/
def based? (base : Nat) (cs : List Char) : Option Document :=
  ((grouped? (fun c => (Text.hexDigit? c).isSome) cs).bind (Text.readBase base 0)).bind
    fun n => word? n

def integer? (cs : List Char) : Option Document :=
  let (negative, cs) := sign cs
  ((wholeDigits? cs).bind (Text.readDigits 0)).bind fun n => word? (if negative then -(n : Int) else n)

/-- The exponent of a decimal, after its letter. -/
def exponent? (cs : List Char) : Option Int :=
  let (negative, cs) := sign cs
  ((decimalDigits? cs).bind (Text.readDigits 0)).map fun n => if negative then -(n : Int) else n

/-- A number with a fraction, an exponent or both. -/
def decimal? (cs : List Char) : Option Document :=
  let (negative, cs) := sign cs
  let mantissa := cs.takeWhile fun c => c != 'e' && c != 'E'
  let exponent := cs.drop mantissa.length
  let whole := mantissa.takeWhile (· != '.')
  let fraction := mantissa.drop whole.length
  if exponent.isEmpty && fraction.isEmpty then none
  else do
    let exponent ← match exponent with
      | [] => some 0
      | _ :: rest => exponent? rest
    let fraction ← match fraction with
      | [] => some []
      | _ :: rest => decimalDigits? rest
    let digits ← Text.readDigits 0 ((← wholeDigits? whole) ++ fraction)
    let x := Binary64.ofDecimal negative digits (exponent - fraction.length)
    if x.isInfinite then none else return .real x

/-- The numbers that are written as words. -/
def wordNumber? (cs : List Char) : Option Document :=
  let (negative, cs) := sign cs
  match cs with
  | ['i', 'n', 'f'] => some (.real (.infinite negative))
  | ['n', 'a', 'n'] => some (.real .nan)
  | _ => none

def number? (cs : List Char) : Option Document :=
  match cs with
  | '0' :: 'x' :: rest => based? 16 rest
  | '0' :: 'o' :: rest => based? 8 rest
  | '0' :: 'b' :: rest => based? 2 rest
  | _ => integer? cs <|> decimal? cs <|> wordNumber? cs

/-! ### Days and times -/

/-- A day at the head of a text, in its written form. -/
def day? (cs : List Char) : Option (List Char × List Char) :=
  match Text.takeExactly? 10 cs with
  | some (front, rest) =>
    if front.head?.any Char.isDigit then (Date.read? front).map fun d => (d.chars, rest) else none
  | none => none

/-- Two digits that stand for a number up to `largest`. -/
def clockPart? (largest : Nat) (cs : List Char) : Option (List Char × List Char) :=
  (Text.takeDigits? 2 cs).bind fun (n, rest) =>
    if n ≤ largest then some (Text.padded 2 n, rest) else none

/-- The fraction of a second: nine digits count, and zeros at the end are not written. -/
def secondFraction (ds : List Char) : List Char :=
  match ((ds.take 9).reverse.dropWhile (· = '0')).reverse with
  | [] => ['.', '0']
  | ds => '.' :: ds

/-- A time of day at the head of a text, in its written form. Seconds may be missing. -/
def time? (cs : List Char) : Option (List Char × List Char) :=
  match clockPart? 23 cs with
  | some (hour, ':' :: rest) =>
    match clockPart? 59 rest with
    | some (minute, ':' :: rest) =>
      match clockPart? 60 rest with
      | some (second, '.' :: rest) =>
        let ds := rest.takeWhile Char.isDigit
        if ds.isEmpty then none
        else
          some (hour ++ ':' :: minute ++ ':' :: second ++ secondFraction ds, rest.drop ds.length)
      | some (second, rest) => some (hour ++ ':' :: minute ++ ':' :: second, rest)
      | none => none
    | some (minute, rest) => some (hour ++ ':' :: minute, rest)
    | none => none
  | _ => none

/-- The offset of a time zone as a whole text, in its written form. An offset of zero in digits is
written with a plus. -/
def offset? : List Char → Option (List Char)
  | [] => some []
  | ['Z'] | ['z'] => some ['Z']
  | c :: rest =>
    if c = '+' ∨ c = '-' then
      match clockPart? 23 rest with
      | some (hour, ':' :: rest) =>
        match clockPart? 59 rest with
        | some (minute, []) =>
          let isZero := (hour ++ minute).all (· = '0')
          some ((if isZero then '+' else c) :: hour ++ ':' :: minute)
        | _ => none
      | _ => none
    else none

/-- A day, a time of day, or a day with a time of day, as a whole text. -/
def moment? (cs : List Char) : Option Document :=
  match day? cs with
  | some (day, []) => some (.moment (.ofList day))
  | some (day, c :: rest) =>
    if c = 'T' ∨ c = 't' ∨ c = ' ' then do
      let (time, rest) ← time? rest
      let offset ← offset? rest
      return .moment (.ofList (day ++ 'T' :: time ++ offset))
    else none
  | none =>
    match time? cs with
    | some (time, []) => some (.moment (.ofList time))
    | _ => none

/-- What a run of characters stands for. -/
def scalar? (cs : List Char) : Option Document :=
  match cs with
  | ['t', 'r', 'u', 'e'] => some (.flag true)
  | ['f', 'a', 'l', 's', 'e'] => some (.flag false)
  | _ => moment? cs <|> number? cs

/-- A character that ends a run. -/
def isSeparator (c : Char) : Bool :=
  isSpaceLike c || c = ',' || c = ']' || c = '\x7d' || c = '#'
where
  isSpaceLike (c : Char) : Bool := c = ' ' || c = '\t' || c = '\n' || c = '\r'

/-- The run at the head of a text and the rest. One blank may stand between a day and its time. -/
def run (cs : List Char) : List Char × List Char :=
  let front := cs.takeWhile (!isSeparator ·)
  let rest := cs.drop front.length
  match rest with
  | ' ' :: c :: _ =>
    if c.isDigit ∧ (day? front).any (·.2.isEmpty) then
      let time := (rest.drop 1).takeWhile (!isSeparator ·)
      (front ++ ' ' :: time, rest.drop (time.length + 1))
    else (front, rest)
  | _ => (front, rest)

end TaskIndex.Toml
