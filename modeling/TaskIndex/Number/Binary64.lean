import TaskIndex.Text.Numeral

/-!
Numbers of the binary64 format.

A finite number is a mantissa of at most 53 bits times a power of two. A decimal numeral stands for
the nearest of them, and a tie goes to the even mantissa. A number is written with the fewest decimal
digits that stand for it again, the upper of two equally near ones, and always in positional
notation.
-/

namespace TaskIndex

/-- A number, an infinity, or what is no number. -/
inductive Binary64 where
  /-- `mantissa * 2 ^ exponent`, with the sign kept apart. -/
  | finite (negative : Bool) (mantissa : Nat) (exponent : Int)
  | infinite (negative : Bool)
  | nan
deriving DecidableEq

namespace Binary64

def minExponent : Int := -1074

/-- The largest exponent of a mantissa with 53 bits. -/
def maxExponent : Int := 971

/-- The integer nearest to `num / den`, the even one of two. -/
def roundEven (num den : Nat) : Nat :=
  let q := num / den
  let r := num % den
  if 2 * r < den then q
  else if den < 2 * r then q + 1
  else if q % 2 = 0 then q else q + 1

/-- `num / den / 2 ^ e` as a fraction. -/
def scaled (num den : Nat) (e : Int) : Nat × Nat :=
  if 0 ≤ e then (num, den <<< e.toNat) else (num <<< (-e).toNat, den)

/-- The number nearest to the fraction `num / den` with a sign. -/
def ofFraction (negative : Bool) (num den : Nat) : Binary64 :=
  if num = 0 then finite negative 0 minExponent
  else
    -- The first guess of the exponent is right or one too large.
    let guess := max minExponent ((num.log2 : Int) - den.log2 - 52)
    let (n, d) := scaled num den guess
    let e := if n / d < 1 <<< 52 then max minExponent (guess - 1) else guess
    let (n, d) := scaled num den e
    let m := roundEven n d
    let (m, e) := if m = 1 <<< 53 then (1 <<< 52, e + 1) else (m, e)
    if maxExponent < e then infinite negative else finite negative m e

/-- The number nearest to `digits * 10 ^ exponent` with a sign. Numerals far beyond the format are
settled by how many places they have. -/
def ofDecimal (negative : Bool) (digits : Nat) (exponent : Int) : Binary64 :=
  let places := (Nat.toDigits 10 digits).length + exponent
  if digits = 0 then finite negative 0 minExponent
  else if places < -400 then finite negative 0 minExponent
  else if 400 < places then infinite negative
  else if 0 ≤ exponent then ofFraction negative (digits * Nat.pow 10 exponent.toNat) 1
  else ofFraction negative digits (Nat.pow 10 (-exponent).toNat)

def isInfinite : Binary64 → Bool
  | infinite _ => true
  | _ => false

def isZero : Binary64 → Bool
  | finite _ m _ => m == 0
  | _ => false

/-! ### As a natural number -/

/-- The nearest natural number, with halves rounded up and the rest of the line brought into the
range from zero to `largest`. What is no number becomes zero. -/
def toNatWithin (largest : Nat) : Binary64 → Nat
  | finite true _ _ => 0
  | finite false m e =>
    if 0 ≤ e then min largest (m <<< e.toNat)
    else min largest ((2 * m + 1 <<< (-e).toNat) / 2 <<< (-e).toNat)
  | infinite negative => if negative then 0 else largest
  | nan => 0

/-! ### As a decimal -/

/-- The decimal with `places` digits after the point that lies nearest from below, for a number
without its sign. A negative count of places asks for multiples of ten. -/
def floorAt (m : Nat) (e places : Int) : Nat :=
  let (num, den) := scaled m 1 (-e)
  if 0 ≤ places then num * Nat.pow 10 places.toNat / den else num / (den * Nat.pow 10 (-places).toNat)

/-- How many places before the point a number has. -/
def leading (m : Nat) (e : Int) : Int :=
  let (num, den) := scaled m 1 (-e)
  if den ≤ num then (Nat.toDigits 10 (num / den)).length
  else
    -- Below one: count the zeros behind the point.
    let scale := (Nat.toDigits 10 (den / num)).length
    if den ≤ num * Nat.pow 10 (scale - 1) then -((scale : Int) - 1) + 1 else -(scale : Int) + 1

/-- The first of the digit counts from `count` on for which a neighbour on the decimal grid stands
for the number again, as the digits and the place of the last one. -/
def shortestFrom (m : Nat) (e : Int) : (fuel count : Nat) → Nat × Int
  | 0, count => (floorAt m e ((count : Int) - leading m e), (count : Int) - leading m e)
  | fuel + 1, count =>
    let places := (count : Int) - leading m e
    let below := floorAt m e places
    let standsFor (digits : Nat) : Bool := ofDecimal false digits (-places) == finite false m e
    let (num, den) := scaled m 1 (-e)
    -- The upper neighbour is at least as near as the lower one.
    let nearerAbove : Bool :=
      if 0 ≤ places then (2 * below + 1) * den ≤ 2 * num * Nat.pow 10 places.toNat
      else (2 * below + 1) * den * Nat.pow 10 (-places).toNat ≤ 2 * num
    let near := if nearerAbove then below + 1 else below
    let far := if nearerAbove then below else below + 1
    if standsFor near then (near, places)
    else if standsFor far then (far, places)
    else shortestFrom m e fuel (count + 1)

/-- Digits in positional notation, with `places` of them after the point when that is positive. -/
def positional (digits : Nat) (places : Int) : List Char :=
  if places ≤ 0 then Nat.toDigits 10 (digits * Nat.pow 10 (-places).toNat)
  else
    let all := Text.padded (places.toNat + 1) digits
    let cut := all.length - places.toNat
    all.take cut ++ '.' :: all.drop cut

def chars : Binary64 → List Char
  | finite negative m e =>
    let unsigned :=
      if m = 0 then ['0'] else
        let (digits, places) := shortestFrom m e 17 1
        -- A neighbour can be the next power of ten, with one zero too many.
        if digits % 10 = 0 ∧ 0 < places then positional (digits / 10) (places - 1)
        else positional digits places
    if negative then '-' :: unsigned else unsigned
  | infinite negative => if negative then ['-', 'i', 'n', 'f'] else ['i', 'n', 'f']
  | nan => ['N', 'a', 'N']

end Binary64

end TaskIndex
