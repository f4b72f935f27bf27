import TaskIndex.Number.Binary64

/-!
Decimals that become binary64 numbers in steps.

A run of digits is rounded first, and one multiplication or division by a power of ten follows, which is
rounded again; the power is itself a rounded number. What comes out is therefore not always the number
nearest to the decimal. A division by more than the format's largest power of ten is done piece by piece.
-/

namespace TaskIndex.Binary64

def neg : Binary64 → Binary64
  | finite negative m e => finite (!negative) m e
  | infinite negative => infinite (!negative)
  | nan => nan

def isNegative : Binary64 → Bool
  | finite negative _ _ => negative
  | infinite negative => negative
  | nan => false

/-- The number nearest to a product. -/
def mul : Binary64 → Binary64 → Binary64
  | finite s m e, finite t n f =>
    let (num, den) := scaled (m * n) 1 (-(e + f))
    ofFraction (s != t) num den
  | nan, _ => nan
  | _, nan => nan
  | x, y => if x.isZero || y.isZero then nan else infinite (x.isNegative != y.isNegative)

/-- The number nearest to a quotient. -/
def div : Binary64 → Binary64 → Binary64
  | finite s m e, finite t n f =>
    if n = 0 then (if m = 0 then nan else infinite (s != t))
    else
      let (num, den) := scaled m n (f - e)
      ofFraction (s != t) num den
  | nan, _ => nan
  | _, nan => nan
  | infinite _, infinite _ => nan
  | infinite s, finite t _ _ => infinite (s != t)
  | finite s _ _, infinite t => finite (s != t) 0 minExponent

/-- The exponent of the largest power of ten in the format. -/
def maxPower : Nat := 308

/-- The number nearest to a power of ten. -/
def powerOfTen (k : Nat) : Binary64 := ofFraction false (Nat.pow 10 k) 1

/-- A number times a power of ten, refused when it grows beyond the format. -/
def timesPower? (x : Binary64) (k : Nat) : Option Binary64 :=
  if k ≤ maxPower then
    let y := x.mul (powerOfTen k)
    if y.isInfinite then none else some y
  else if x.isZero then some x
  else none

/-- A number divided by a power of ten, by one that is in the format at a time. -/
def overPower (x : Binary64) (k : Nat) : Binary64 :=
  if k ≤ maxPower then x.div (powerOfTen k)
  else if x.isZero then x
  else overPower (x.div (powerOfTen maxPower)) (k - maxPower)
termination_by k
decreasing_by
  simp only [maxPower] at *
  omega

/-- `digits * 10 ^ exponent` with a sign, in steps. -/
def ofSteps? (negative : Bool) (digits : Nat) (exponent : Int) : Option Binary64 :=
  let x := ofFraction false digits 1
  let y :=
    if 0 ≤ exponent then timesPower? x exponent.toNat
    else some (overPower x (-exponent).toNat)
  y.map fun y => if negative then y.neg else y

end TaskIndex.Binary64
