import FormExpr.Calendar.Moment
import FormExpr.Text.Scan

/-!
# Plain dates

Dates without an offset as people type them: `2018-01-01 10:20:30`, `2018/01/01 10:20:30` and
`2018/01/01`. Blanks may stand before a number, a number may have fewer digits than usual, and a
year with a sign may have more.
-/

namespace FormExpr.PlainDate

open Text

/-- A year with a sign has any number of digits, a year without one at most four. -/
def year? (s : List Char) : Option (Int × List Char) :=
  match trimStart s with
  | '-' :: rest => (number? 1 rest.length rest).map fun (year, rest) => (-(year : Int), rest)
  | '+' :: rest => (number? 1 rest.length rest).map fun (year, rest) => ((year : Int), rest)
  | rest => (number? 1 4 rest).map fun (year, rest) => ((year : Int), rest)

def field? (s : List Char) : Option (Nat × List Char) :=
  number? 1 2 (trimStart s)

def date? (mark : Char) (s : List Char) : Option (Date × List Char) := do
  let (year, s) ← year? s
  let s ← char? mark s
  let (month, s) ← field? s
  let s ← char? mark s
  let (day, s) ← field? s
  let date : Date := ⟨year, month, day⟩
  if date.Exists ∧ date.InRange then some (date, s) else none

def time? (s : List Char) : Option TimeOfDay := do
  let (hour, s) ← field? s
  let s ← char? ':' s
  let (minute, s) ← field? s
  let s ← char? ':' s
  let (second, s) ← field? s
  let time : TimeOfDay := ⟨hour, minute, second, 0⟩
  if s.isEmpty ∧ time.ExistsWithLeap then some time else none

def dateTime? (mark : Char) (s : List Char) : Option WallClock := do
  let (date, s) ← date? mark s
  let time ← time? s
  return WallClock.of date time

def dateOnly? (s : List Char) : Option WallClock := do
  let (date, s) ← date? '/' s
  if s.isEmpty then some (WallClock.of date .midnight) else none

def ofText? (s : List Char) : Option WallClock :=
  dateTime? '-' s <|> dateTime? '/' s <|> dateOnly? s

end FormExpr.PlainDate
