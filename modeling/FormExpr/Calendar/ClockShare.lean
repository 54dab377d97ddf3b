import FormExpr.Calendar.DateText

/-!
# The share of the day that a clock time is

A clock text `hh:mm:ss`, with at most three decimals and an offset `+hh:mm`, is placed on a given
day and moved to the local wall clock; the result is the fraction of the day that has passed there.
-/

namespace FormExpr

open Text

structure OffsetClockText where
  hour : List Char
  minute : List Char
  second : List Char
  fraction : List Char
  negative : Bool
  offsetHour : List Char
  offsetMinute : List Char
deriving DecidableEq, Repr

namespace OffsetClockText

def fraction? : List Char → Option (List Char × List Char)
  | '.' :: rest => run? isDecimalDigit 1 3 rest
  | rest => some ([], rest)

def sign? : List Char → Option (Bool × List Char)
  | '+' :: rest => some (false, rest)
  | '-' :: rest => some (true, rest)
  | _ => none

def ofText? (s : List Char) : Option OffsetClockText := do
  let (hour, s) ← run? isDecimalDigit 2 2 s
  let s ← char? ':' s
  let (minute, s) ← run? isDecimalDigit 2 2 s
  let s ← char? ':' s
  let (second, s) ← run? isDecimalDigit 2 2 s
  let (fraction, s) ← fraction? s
  let (negative, s) ← sign? s
  let (offsetHour, s) ← run? isDecimalDigit 2 2 s
  let s ← char? ':' s
  let (offsetMinute, s) ← run? isDecimalDigit 2 2 s
  if s.isEmpty then
    some { hour, minute, second, fraction, negative, offsetHour, offsetMinute }
  else none

/-- A fraction with a digit outside ASCII counts as zero; the other fields then have no value. -/
def timeOfDay? (t : OffsetClockText) : Option TimeOfDay := do
  let time : TimeOfDay :=
    { hour := ← natural? t.hour
      minute := ← natural? t.minute
      second := ← natural? t.second
      nanos := (natural? (ClockText.milliDigits t.fraction)).getD 0 * 1000000 }
  if time.Exists then some time else none

def offset? (t : OffsetClockText) : Option Int := do
  let hour ← natural? t.offsetHour
  let minute ← natural? t.offsetMinute
  if hour ≤ 23 ∧ minute ≤ 59 then
    let seconds : Int := (hour * 3600 + minute * 60 : Nat)
    some (if t.negative then -seconds else seconds)
  else none

def on? (t : OffsetClockText) (today : Date) : Option ZonedTime := do
  let time ← t.timeOfDay?
  let offset ← t.offset?
  (WallClock.of today time).withOffset? offset

end OffsetClockText

def WallClock.share (w : WallClock) : Float :=
  (((Float.ofNat w.milli / 1000.0 + Float.ofNat w.second) / 60.0 + Float.ofNat w.minute) / 60.0 +
    Float.ofNat w.hour) / 24.0

/-- The fraction of the day on the local wall clock at the written time of `today`. -/
def clockShare (z : Zone) (today : Date) (s : List Char) : Float :=
  match (OffsetClockText.ofText? s).bind (·.on? today) with
  | some time => (z.toLocal time).wall.share
  | none => Binary64.nan

end FormExpr
