import FormExpr.Calendar.WallClock

/-!
# Local zones

A zone either keeps one offset from UTC or follows the summer-time rule: one hour ahead of UTC, two
hours from 01:00 UTC on the last Sunday of March to 01:00 UTC on the last Sunday of October. There
are two directions: the offset in effect at an instant, and the instant that a wall clock means. On
the wall the hour from two to three is skipped in March and repeated in October.
-/

namespace FormExpr

/-- An instant with an offset from UTC, both in seconds; in a leap second the nanoseconds run on. -/
structure ZonedTime where
  seconds : Int
  nanos : Nat
  offset : Int
deriving DecidableEq, Repr

def ZonedTime.wall (t : ZonedTime) : WallClock :=
  { seconds := t.seconds + t.offset, nanos := t.nanos }

/-- The wall shows a day that dates are kept for. At an offset it need not: the instant alone has to
be in range. -/
def ZonedTime.OnCalendar (t : ZonedTime) : Prop :=
  WallClock.InRange t.wall.seconds

instance (t : ZonedTime) : Decidable t.OnCalendar :=
  inferInstanceAs (Decidable (WallClock.InRange _))

def WallClock.withOffset? (w : WallClock) (offset : Int) : Option ZonedTime :=
  if WallClock.InRange (w.seconds - offset) then
    some { seconds := w.seconds - offset, nanos := w.nanos, offset }
  else none

def WallClock.hourLater (w : WallClock) : WallClock :=
  { seconds := w.seconds + 3600, nanos := w.nanos % 1000000000 }

inductive Zone where
  | fixed (offset : Int)
  | summerTime
deriving DecidableEq, Repr

namespace Zone

/-- The zone a given number of minutes from UTC; a day or more away it is the summer-time zone. -/
def ofMinutes (minutes : Int) : Zone :=
  if (minutes * 60).natAbs < 86400 then fixed (minutes * 60) else summerTime

def standardOffset : Int := 3600

def summerOffset : Int := 7200

def springDay (year : Int) : Int :=
  Date.lastSunday year 3 * 86400

def autumnDay (year : Int) : Int :=
  Date.lastSunday year 10 * 86400

def isSummer (seconds : Int) : Bool :=
  let year := (Date.ofDayNumber (seconds / 86400)).year
  springDay year + 3600 ≤ seconds && seconds < autumnDay year + 3600

def offsetAt : Zone → Int → Int
  | fixed offset, _ => offset
  | summerTime, seconds => if isSummer seconds then summerOffset else standardOffset

def toLocal (z : Zone) (t : ZonedTime) : ZonedTime :=
  { t with offset := z.offsetAt t.seconds }

inductive Reading where
  | standard
  | summer
  | skipped
deriving DecidableEq, Repr

/-- The skipped hour has neither of its ends; the repeated hour is read as standard time. -/
def reading (seconds : Int) : Reading :=
  let year := (Date.ofDayNumber (seconds / 86400)).year
  if springDay year + 7200 < seconds ∧ seconds < springDay year + 10800 then .skipped
  else if springDay year + 10800 ≤ seconds ∧ seconds < autumnDay year + 7200 then .summer
  else .standard

def shown? (w : WallClock) : Option ZonedTime :=
  match reading w.seconds with
  | .standard => w.withOffset? standardOffset
  | .summer => w.withOffset? summerOffset
  | .skipped => none

/-- The time that a wall clock means. By the summer-time rule a clock that shows none is moved one
hour forward. -/
def ofWall? : Zone → WallClock → Option ZonedTime
  | fixed offset, w => w.withOffset? offset
  | summerTime, w => (shown? w).or (shown? w.hourLater)

end Zone

end FormExpr
