import FormExpr.Calendar.Moment
import FormExpr.Text.Scan

/-!
# Date texts

A date text is `YYYY-M-D` with one or two digits for month and day, then optionally `Thh:mm`,
`Thh:mm:ss` or `Thh:mm:ss.f` with any number of decimals, then optionally `Z` or an offset `+hh`,
`+hhmm`, `+hh:mm`. The grammar admits every Unicode digit and any number in a field; what the text
means is decided afterwards, field by field.
-/

namespace FormExpr

open Text

structure ClockText where
  hour : List Char
  minute : List Char
  second : List Char
  fraction : List Char
deriving DecidableEq, Repr

inductive OffsetText where
  | zulu
  /-- A sign, `true` for minus, and the digits of hours and minutes. -/
  | signed (negative : Bool) (digits : List Char)
deriving DecidableEq, Repr

structure DateText where
  year : List Char
  month : List Char
  day : List Char
  clock : Option ClockText
  offset : Option OffsetText
deriving DecidableEq, Repr

namespace ClockText

def fraction? : List Char → Option (List Char × List Char)
  | '.' :: rest => run? isDecimalDigit 1 rest.length rest
  | rest => some ([], rest)

def second? : List Char → Option (List Char × List Char × List Char)
  | ':' :: rest => do
    let (second, rest) ← run? isDecimalDigit 2 2 rest
    let (fraction, rest) ← fraction? rest
    return (second, fraction, rest)
  | rest => some ([], [], rest)

def ofText? (s : List Char) : Option (ClockText × List Char) := do
  let (hour, s) ← run? isDecimalDigit 2 2 s
  let s ← char? ':' s
  let (minute, s) ← run? isDecimalDigit 2 2 s
  let (second, fraction, s) ← second? s
  return (⟨hour, minute, second, fraction⟩, s)

def milliDigits (fraction : List Char) : List Char :=
  (fraction ++ "000".toList).take 3

/-- A field that is absent, or that has a digit outside ASCII, counts as zero. -/
def timeOfDay (c : ClockText) : TimeOfDay :=
  { hour := (natural? c.hour).getD 0
    minute := (natural? c.minute).getD 0
    second := (natural? c.second).getD 0
    nanos := (natural? (milliDigits c.fraction)).getD 0 * 1000000 }

end ClockText

namespace OffsetText

def minutes? : List Char → Option (List Char)
  | [] => some []
  | ':' :: rest => (run? isDecimalDigit 2 2 rest).bind fun (digits, rest) =>
    if rest.isEmpty then some digits else none
  | rest => (run? isDecimalDigit 2 2 rest).bind fun (digits, rest) =>
    if rest.isEmpty then some digits else none

def signed? (negative : Bool) (s : List Char) : Option OffsetText := do
  let (hours, s) ← run? isDecimalDigit 2 2 s
  let minutes ← minutes? s
  return .signed negative (hours ++ minutes)

def ofText? : List Char → Option (Option OffsetText)
  | [] => some none
  | ['Z'] => some (some .zulu)
  | '+' :: rest => (signed? false rest).map some
  | '-' :: rest => (signed? true rest).map some
  | _ => none

/-- The offset in seconds, when its hours and minutes exist. Digits outside ASCII are left out, and
two have to remain. -/
def seconds? : OffsetText → Option Int
  | zulu => some 0
  | signed negative digits =>
    let digits := digits.filter Char.isDigit
    let hours := naturalOf (digits.take 2)
    let minutes := naturalOf (digits.drop 2)
    if digits.length < 2 ∨ 23 < hours ∨ 59 < minutes then none
    else
      let seconds : Int := (hours * 3600 + minutes * 60 : Nat)
      some (if negative then -seconds else seconds)

end OffsetText

namespace DateText

def clock? : List Char → Option (Option ClockText × List Char)
  | 'T' :: rest => (ClockText.ofText? rest).map fun (clock, rest) => (some clock, rest)
  | rest => some (none, rest)

def ofText? (s : List Char) : Option DateText := do
  let (year, s) ← run? isDecimalDigit 4 4 s
  let s ← char? '-' s
  let (month, s) ← run? isDecimalDigit 1 2 s
  let s ← char? '-' s
  let (day, s) ← run? isDecimalDigit 1 2 s
  let (clock, s) ← clock? s
  let offset ← OffsetText.ofText? s
  return { year, month, day, clock, offset }

def date? (t : DateText) : Option Date := do
  let year ← natural? t.year
  let month ← natural? t.month
  let day ← natural? t.day
  let date : Date := ⟨year, month, day⟩
  if date.Exists then some date else none

def timeOfDay? (t : DateText) : Option TimeOfDay :=
  let time := match t.clock with
    | some clock => clock.timeOfDay
    | none => .midnight
  if time.Exists then some time else none

def wall? (t : DateText) : Option WallClock := do
  let date ← t.date?
  let time ← t.timeOfDay?
  return WallClock.of date time

/-- Without an offset the text shows the wall clock of the zone; with one it names an instant, which
is then given the zone's own offset. -/
def toMoment (z : Zone) (t : DateText) : Moment :=
  match t.wall? with
  | none => .invalid
  | some wall =>
    match t.offset with
    | none => Moment.ofWall z wall
    | some offset =>
      match offset.seconds?.bind wall.withOffset? with
      | some time => .valid (z.toLocal time)
      | none => .invalid

end DateText

def isDateText (s : List Char) : Bool :=
  (DateText.ofText? s).isSome

def Moment.ofDateText (z : Zone) (s : List Char) : Moment :=
  match DateText.ofText? s with
  | some t => t.toMoment z
  | none => .invalid

end FormExpr
