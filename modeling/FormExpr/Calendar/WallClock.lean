import FormExpr.Calendar.Date

/-!
# Wall-clock times

What clock and calendar on the wall show, counted in seconds from the midnight that starts
1 January 1970 on that wall. In a leap second the nanoseconds run on beyond a whole second.
-/

namespace FormExpr

/-- The reading of a clock; the second 60 is a leap second. -/
structure TimeOfDay where
  hour : Nat
  minute : Nat
  second : Nat
  nanos : Nat
deriving DecidableEq, Repr

namespace TimeOfDay

def midnight : TimeOfDay := ⟨0, 0, 0, 0⟩

def Exists (t : TimeOfDay) : Prop :=
  t.hour ≤ 23 ∧ t.minute ≤ 59 ∧ t.second ≤ 59

def ExistsWithLeap (t : TimeOfDay) : Prop :=
  t.hour ≤ 23 ∧ t.minute ≤ 59 ∧ t.second ≤ 60

instance (t : TimeOfDay) : Decidable t.Exists :=
  inferInstanceAs (Decidable (_ ∧ _))

instance (t : TimeOfDay) : Decidable t.ExistsWithLeap :=
  inferInstanceAs (Decidable (_ ∧ _))

end TimeOfDay

structure WallClock where
  seconds : Int
  nanos : Nat
deriving DecidableEq, Repr

namespace WallClock

/-- A leap second belongs to the second before it. -/
def of (d : Date) (t : TimeOfDay) : WallClock :=
  let leap := t.second = 60
  { seconds := d.toDayNumber * 86400 +
      (t.hour * 3600 + t.minute * 60 + (if leap then 59 else t.second) : Nat)
    nanos := if leap then t.nanos + 1000000000 else t.nanos }

def dayNumber (w : WallClock) : Int :=
  w.seconds / 86400

def date (w : WallClock) : Date :=
  Date.ofDayNumber w.dayNumber

def secondOfDay (w : WallClock) : Nat :=
  (w.seconds % 86400).toNat

def hour (w : WallClock) : Nat :=
  w.secondOfDay / 3600

def minute (w : WallClock) : Nat :=
  w.secondOfDay / 60 % 60

def second (w : WallClock) : Nat :=
  w.secondOfDay % 60

def milli (w : WallClock) : Nat :=
  w.nanos / 1000000

def millis (w : WallClock) : Int :=
  w.seconds * 1000 + w.milli

def isMidnight (w : WallClock) : Bool :=
  w.secondOfDay == 0 && w.nanos == 0

def ofMillis (millis : Int) : WallClock :=
  { seconds := millis / 1000, nanos := (millis % 1000).toNat * 1000000 }

def minSeconds : Int := Date.toDayNumber ⟨-262143, 1, 1⟩ * 86400

def maxSeconds : Int := Date.toDayNumber ⟨262142, 12, 31⟩ * 86400 + 86399

def InRange (seconds : Int) : Prop :=
  minSeconds ≤ seconds ∧ seconds ≤ maxSeconds

instance (seconds : Int) : Decidable (InRange seconds) :=
  inferInstanceAs (Decidable (_ ∧ _))

end WallClock

end FormExpr
