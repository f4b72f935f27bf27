/-!
Decimal numerals.

A numeral is a run of ASCII digits; a signed numeral may carry one sign in front. Reading refuses
everything else, also an empty run, and a number outside the word that is asked for.
-/

namespace TaskIndex.Text

/-- The value of an ASCII digit. -/
def digit? (c : Char) : Option Nat :=
  if '0' ≤ c ∧ c ≤ '9' then some (c.toNat - '0'.toNat) else none

/-- The value of a run of digits, read on from `n`. -/
def readDigits (n : Nat) : List Char → Option Nat
  | [] => some n
  | c :: cs =>
    match digit? c with
    | some d => readDigits (10 * n + d) cs
    | none => none

/-- The value of a hexadecimal digit of either case. -/
def hexDigit? (c : Char) : Option Nat :=
  if '0' ≤ c ∧ c ≤ '9' then some (c.toNat - '0'.toNat)
  else if 'a' ≤ c ∧ c ≤ 'f' then some (c.toNat - 'a'.toNat + 10)
  else if 'A' ≤ c ∧ c ≤ 'F' then some (c.toNat - 'A'.toNat + 10)
  else none

/-- The value of a run of digits in a base up to sixteen, read on from `n`. -/
def readBase (base n : Nat) : List Char → Option Nat
  | [] => some n
  | c :: cs =>
    match (hexDigit? c).filter (· < base) with
    | some d => readBase base (base * n + d) cs
    | none => none

/-- Exactly `width` characters at the head of a text, and the rest of it. -/
def takeExactly? (width : Nat) (cs : List Char) : Option (List Char × List Char) :=
  if (cs.take width).length = width then some (cs.take width, cs.drop width) else none

/-- The number that exactly `width` digits at the head of a text are, and the rest of it. -/
def takeDigits? (width : Nat) (cs : List Char) : Option (Nat × List Char) :=
  (takeExactly? width cs).bind fun (ds, rest) => (readDigits 0 ds).map fun n => (n, rest)

/-- A non-empty run of digits. -/
def natural? : List Char → Option Nat
  | [] => none
  | c :: cs => readDigits 0 (c :: cs)

/-- A run of digits with at most one leading sign. -/
def integer? : List Char → Option Int
  | '-' :: cs => (natural? cs).map fun n => -(n : Int)
  | '+' :: cs => (natural? cs).map Int.ofNat
  | cs => (natural? cs).map Int.ofNat

/-- A run of digits with at most a leading plus. -/
def unsigned? : List Char → Option Nat
  | '+' :: cs => natural? cs
  | cs => natural? cs

/-- A signed numeral within the signed 64-bit words. -/
def int64? (s : String) : Option Int64 :=
  match integer? s.toList with
  | some n => if Int64.minValue.toInt ≤ n ∧ n ≤ Int64.maxValue.toInt then some (Int64.ofInt n) else none
  | none => none

/-- An unsigned numeral within the 64-bit words. -/
def uint64? (s : String) : Option UInt64 :=
  match unsigned? s.toList with
  | some n => if n < UInt64.size then some (UInt64.ofNat n) else none
  | none => none

/-- The digits of a number, at least `width` of them. -/
def padded (width n : Nat) : List Char :=
  let digits := Nat.toDigits 10 n
  List.replicate (width - digits.length) '0' ++ digits

/-- The numeral of an integer: a minus for the negative ones, no sign for the others. -/
def ofInt (n : Int) : List Char :=
  if n < 0 then '-' :: Nat.toDigits 10 n.natAbs else Nat.toDigits 10 n.natAbs

end TaskIndex.Text
