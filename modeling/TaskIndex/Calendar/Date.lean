/-!
Days of the calendar.

A day has a year from -9999 to 9999, a month and a day of that month; the leap years follow the
Gregorian rule in both directions and there is a year zero. Days are numbered from the first of
March of year zero, so that a leap day is the last day of its counted year.
-/

namespace TaskIndex

/-- Every fourth year, but of the centuries only every fourth. -/
def isLeapYear (year : Int) : Bool :=
  year % 4 == 0 && (year % 100 != 0 || year % 400 == 0)

/-- How many days a month has; none when there is no such month. -/
def daysInMonth (year : Int) : Nat → Nat
  | 1 | 3 | 5 | 7 | 8 | 10 | 12 => 31
  | 4 | 6 | 9 | 11 => 30
  | 2 => if isLeapYear year then 29 else 28
  | _ => 0

/-- The three numbers name a day. -/
def IsDay (year : Int) (month day : Nat) : Prop :=
  -9999 ≤ year ∧ year ≤ 9999 ∧ 1 ≤ day ∧ day ≤ daysInMonth year month

instance (year : Int) (month day : Nat) : Decidable (IsDay year month day) :=
  inferInstanceAs (Decidable (_ ∧ _))

structure Date where
  year : Int
  month : Nat
  day : Nat
  isDay : IsDay year month day
deriving DecidableEq

namespace Date

/-- The day that three numbers name. -/
def of? (year : Int) (month day : Nat) : Option Date :=
  if h : IsDay year month day then some ⟨year, month, day, h⟩ else none

def first : Date := ⟨-9999, 1, 1, by decide⟩

def last : Date := ⟨9999, 12, 31, by decide⟩

instance : Inhabited Date := ⟨first⟩

/-- An earlier day is the smaller one. -/
instance : Ord Date :=
  ⟨compareLex (compareOn Date.year) (compareLex (compareOn Date.month) (compareOn Date.day))⟩

instance : Std.TransOrd Date :=
  inferInstanceAs (Std.TransCmp (compareLex (compareOn Date.year)
    (compareLex (compareOn Date.month) (compareOn Date.day))))

/-- The number of a day, counted from the first of March of year zero. Years are counted from March,
and the months of such a year begin at `(153 * m + 2) / 5` for `m` from 0. -/
def number (d : Date) : Int :=
  let year := if d.month ≤ 2 then d.year - 1 else d.year
  let month : Int := if d.month ≤ 2 then d.month + 9 else d.month - 3
  365 * year + year / 4 - year / 100 + year / 400 + (153 * month + 2) / 5 + (d.day - 1)

/-- The day with a number, if the calendar reaches it. A period of 400 years has 146097 days. -/
def ofNumber? (n : Int) : Option Date :=
  let period := n / 146097
  let inPeriod := n % 146097
  let yearOfPeriod :=
    (inPeriod - inPeriod / 1460 + inPeriod / 36524 - inPeriod / 146096) / 365
  let dayOfYear := inPeriod - (365 * yearOfPeriod + yearOfPeriod / 4 - yearOfPeriod / 100)
  let month := (5 * dayOfYear + 2) / 153
  let day := dayOfYear - (153 * month + 2) / 5 + 1
  let year := 400 * period + yearOfPeriod
  if month < 10 then of? year (month + 3).toNat day.toNat
  else of? (year + 1) (month - 9).toNat day.toNat

/-- The day `n` days later, or earlier when `n` is negative; the calendar ends at its first and
last day. -/
def addDays (d : Date) (n : Int) : Date :=
  match ofNumber? (d.number + n) with
  | some d => d
  | none => if n < 0 then first else last

/-- How many days lie between a day and a later one; negative when it is an earlier one. -/
def daysUntil (d later : Date) : Int := later.number - d.number

end Date

end TaskIndex
