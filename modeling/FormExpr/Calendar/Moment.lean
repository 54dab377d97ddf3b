import FormExpr.Calendar.Zone
import FormExpr.Number.Binary64

/-!
# Moments

A moment is a point in time with its local offset, or one of two values that are no point in time:
blank, for an empty text, and invalid. Its day count is the number of days since 1 January 1970 on
the local wall clock, the time of day as a fraction.
-/

namespace FormExpr

inductive Moment where
  | blank
  | invalid
  | valid (time : ZonedTime)
deriving DecidableEq, Repr

namespace Moment

def isValid : Moment → Bool
  | valid _ => true
  | _ => false

def ofWall (z : Zone) (w : WallClock) : Moment :=
  match z.ofWall? w with
  | some t => valid t
  | none => invalid

def same : Moment → Moment → Bool
  | blank, blank => true
  | invalid, invalid => true
  | valid a, valid b => a.seconds == b.seconds && a.nanos == b.nanos
  | _, _ => false

def millisPerDay : Float := 86400000.0

def toDays : Moment → Float
  | valid t => Float.ofInt t.wall.millis / millisPerDay
  | _ => Binary64.nan

/-- The moment of a day count, to the nearest millisecond. -/
def ofDays (z : Zone) (days : Float) : Moment :=
  let millis := days * millisPerDay
  if !millis.isFinite then invalid
  else
    let w := WallClock.ofMillis (Binary64.roundHalfAwayInt millis)
    if WallClock.InRange w.seconds then ofWall z w else invalid

def startOfDay (z : Zone) (now : ZonedTime) : Moment :=
  ofWall z { seconds := now.wall.dayNumber * 86400, nanos := 0 }

end Moment

end FormExpr
