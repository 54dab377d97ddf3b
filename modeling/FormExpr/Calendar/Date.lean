/-!
# The proleptic Gregorian calendar

Days are numbered from 1 January 1970. A date has a number through the days before its year and its
month; a day number gives its date back through an estimate of the year that is off by one at most.
-/

namespace FormExpr

structure Date where
  year : Int
  month : Nat
  day : Nat
deriving DecidableEq, Repr

namespace Date

def isLeapYear (year : Int) : Bool :=
  year % 4 == 0 && (year % 100 != 0 || year % 400 == 0)

def monthLengths (year : Int) : List Nat :=
  [31, if isLeapYear year then 29 else 28, 31, 30, 31, 30, 31, 31, 30, 31, 30, 31]

def daysInMonth (year : Int) (month : Nat) : Nat :=
  (monthLengths year)[month - 1]?.getD 0

def Exists (d : Date) : Prop :=
  1 ≤ d.month ∧ d.month ≤ 12 ∧ 1 ≤ d.day ∧ d.day ≤ daysInMonth d.year d.month

instance (d : Date) : Decidable d.Exists :=
  inferInstanceAs (Decidable (_ ∧ _))

def daysBeforeYear (year : Int) : Int :=
  let past := year - 1
  365 * past + past / 4 - past / 100 + past / 400

def daysBeforeMonth (year : Int) (month : Nat) : Nat :=
  ((monthLengths year).take (month - 1)).foldr (· + ·) 0

def epochDay : Int := 719162

def toDayNumber (d : Date) : Int :=
  daysBeforeYear d.year + daysBeforeMonth d.year d.month + d.day - 1 - epochDay

def yearOf (days : Int) : Int :=
  let estimate := days * 400 / 146097 + 1
  if days < daysBeforeYear estimate then estimate - 1
  else if daysBeforeYear (estimate + 1) ≤ days then estimate + 1
  else estimate

def monthOf : List Nat → Nat → Nat → Nat × Nat
  | [], month, days => (month, days + 1)
  | length :: rest, month, days =>
    if days < length then (month, days + 1) else monthOf rest (month + 1) (days - length)

def ofDayNumber (number : Int) : Date :=
  let days := number + epochDay
  let year := yearOf days
  let (month, day) := monthOf (monthLengths year) 1 (days - daysBeforeYear year).toNat
  ⟨year, month, day⟩

/-- Days since Sunday; 1 January 1970 is a Thursday. -/
def weekday (number : Int) : Nat :=
  ((number + 4) % 7).toNat

/-- The number of the last Sunday of a month that has 31 days. -/
def lastSunday (year : Int) (month : Nat) : Int :=
  let last := toDayNumber ⟨year, month, 31⟩
  last - weekday last

def InRange (d : Date) : Prop :=
  -262143 ≤ d.year ∧ d.year ≤ 262142

instance (d : Date) : Decidable d.InRange :=
  inferInstanceAs (Decidable (_ ∧ _))

end Date

end FormExpr
