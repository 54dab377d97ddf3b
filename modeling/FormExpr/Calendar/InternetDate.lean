import FormExpr.Calendar.Moment
import FormExpr.Text.Scan

/-!
# Dates of mail and of the internet

Two formats with an offset. The internet format is `YYYY-MM-DDThh:mm:ss.f+hh:mm`, where a blank may
stand for the letter. The mail format is `Mon, 1 Jan 2018 10:20:30 +0200`: the weekday is optional
but has to fit, a year of two or three digits is taken to be recent, zones may have names, and
comments in parentheses may follow. In both the second 60 is a leap second.
-/

namespace FormExpr

open Text

def ZonedTime.of? (date : Date) (time : TimeOfDay) (offset : Int) : Option ZonedTime :=
  if date.Exists ∧ date.InRange ∧ time.ExistsWithLeap ∧ -86400 < offset ∧ offset < 86400 then
    (WallClock.of date time).withOffset? offset
  else none

namespace InternetDate

def offsetDigits? (colon : List Char → Option (List Char)) (negative : Bool) (s : List Char) :
    Option (Int × List Char) := do
  let (hours, s) ← number? 2 2 s
  let s ← colon s
  let (minutes, s) ← number? 2 2 s
  let seconds : Int := (hours * 3600 + minutes * 60 : Nat)
  if minutes ≤ 59 then some (if negative then -seconds else seconds, s) else none

def offset? : List Char → Option (Int × List Char)
  | 'Z' :: rest => some (0, rest)
  | 'z' :: rest => some (0, rest)
  | '+' :: rest => offsetDigits? (char? ':') false rest
  | '-' :: rest => offsetDigits? (char? ':') true rest
  | '\u2212' :: rest => offsetDigits? (char? ':') true rest
  | _ => none

def nanos? : List Char → Option (Nat × List Char)
  | '.' :: rest => do
    let (digits, _) ← run? Char.isDigit 1 rest.length rest
    return (naturalOf ((digits ++ List.replicate 9 '0').take 9), rest.drop digits.length)
  | rest => some (0, rest)

def mark? : List Char → Option (List Char)
  | 'T' :: rest => some rest
  | 't' :: rest => some rest
  | ' ' :: rest => some rest
  | _ => none

def ofText? (s : List Char) : Option ZonedTime := do
  let (year, s) ← number? 4 4 s
  let s ← char? '-' s
  let (month, s) ← number? 2 2 s
  let s ← char? '-' s
  let (day, s) ← number? 2 2 s
  let s ← mark? s
  let (hour, s) ← number? 2 2 s
  let s ← char? ':' s
  let (minute, s) ← number? 2 2 s
  let s ← char? ':' s
  let (second, s) ← number? 2 2 s
  let (nanos, s) ← nanos? s
  let (offset, s) ← offset? s
  if s.isEmpty then ZonedTime.of? ⟨year, month, day⟩ ⟨hour, minute, second, nanos⟩ offset else none

end InternetDate

namespace MailDate

def weekdays : List String := ["sun", "mon", "tue", "wed", "thu", "fri", "sat"]

def months : List String :=
  ["jan", "feb", "mar", "apr", "may", "jun", "jul", "aug", "sep", "oct", "nov", "dec"]

def weekday? (s : List Char) : Option (Option Nat × List Char) :=
  match name? weekdays s with
  | some (weekday, rest) => (char? ',' rest).map fun rest => (some weekday, rest)
  | none => some (none, s)

/-- Two digits mean a year from 1950 to 2049, three digits one from 1900 on. -/
def year? (s : List Char) : Option (Nat × List Char) := do
  let (digits, rest) ← run? Char.isDigit 2 s.length s
  let year := naturalOf digits
  let year := match digits.length with
    | 2 => if year < 50 then year + 2000 else year + 1900
    | 3 => year + 1900
    | _ => year
  return (year, rest)

def second? (s : List Char) : Option (Nat × List Char) :=
  match char? ':' (trimStart s) with
  | some rest => number? 2 2 rest
  | none => some (0, s)

def zoneHours : List (String × Int) :=
  [("gmt", 0), ("ut", 0), ("z", 0), ("edt", -4), ("est", -5), ("cdt", -5), ("cst", -6), ("mdt", -6),
    ("mst", -7), ("pdt", -7), ("pst", -8)]

/-- A named zone; any other single letter but `j` counts as UTC. -/
def namedOffset? (name : List Char) : Option Int :=
  match zoneHours.find? fun (zone, _) => zone.toList == asciiLowerAll name with
  | some (_, hours) => some (hours * 3600)
  | none => if name.length = 1 ∧ asciiLowerAll name ≠ ['j'] then some 0 else none
where
  asciiLowerAll (s : List Char) : List Char := s.map Char.toLower

def offset? (s : List Char) : Option (Int × List Char) :=
  let (name, rest) := s.span Char.isAlpha
  if name.isEmpty then
    match s with
    | '+' :: rest => InternetDate.offsetDigits? some false rest
    | '-' :: rest => InternetDate.offsetDigits? some true rest
    | _ => none
  else (namedOffset? name).map fun offset => (offset, rest)

inductive CommentState where
  | outside
  /-- After blanks that a comment has to follow. -/
  | blanks
  | inside (depth : Nat)
  | escaped (depth : Nat)
deriving DecidableEq, Repr

/-- Whether a text consists of comments, which nest and may escape a parenthesis. -/
def areComments : CommentState → List Char → Bool
  | state, [] => state == .outside
  | .inside depth, c :: rest =>
    if c = '\\' then areComments (.escaped depth) rest
    else if c = '(' then areComments (.inside (depth + 1)) rest
    else if c = ')' then areComments (if depth = 0 then .outside else .inside (depth - 1)) rest
    else areComments (.inside depth) rest
  | .escaped depth, _ :: rest => areComments (.inside depth) rest
  | _, c :: rest =>
    if c = '(' then areComments (.inside 0) rest
    else if isBlank c then areComments .blanks rest
    else false

def ofText? (s : List Char) : Option ZonedTime := do
  let (weekday, s) ← weekday? (trimStart s)
  let (day, s) ← number? 1 2 (trimStart s)
  let s ← blanks? s
  let (month, s) ← name? months s
  let s ← blanks? s
  let (year, s) ← year? s
  let s ← blanks? s
  let (hour, s) ← number? 2 2 s
  let s ← char? ':' (trimStart s)
  let (minute, s) ← number? 2 2 (trimStart s)
  let (second, s) ← second? s
  let s ← blanks? s
  let (offset, s) ← offset? s
  let date : Date := ⟨year, month + 1, day⟩
  let weekdayFits := match weekday with
    | some weekday => Date.weekday date.toDayNumber == weekday
    | none => true
  if weekdayFits && areComments .outside s then
    ZonedTime.of? date ⟨hour, minute, second, 0⟩ offset
  else none

end MailDate

end FormExpr
