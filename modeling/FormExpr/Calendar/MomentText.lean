import FormExpr.Calendar.DateText
import FormExpr.Calendar.InternetDate
import FormExpr.Calendar.PlainDate
import FormExpr.Number.Numeral

/-!
# Moments as text

A moment is written as its local date when it falls on local midnight, and with time and offset
otherwise. A text is read as the first of these that it is: empty, a day count, a date text, an
internet or mail date, a plain date.
-/

namespace FormExpr

open Text

def isDayCount (s : List Char) : Bool :=
  let unsigned := match s with
    | '-' :: rest => rest
    | rest => rest
  let (whole, rest) := unsigned.span isDecimalDigit
  !whole.isEmpty && match rest with
    | [] => true
    | '.' :: places => !places.isEmpty && places.all isDecimalDigit
    | _ => false

namespace Date

def yearText (year : Int) : List Char :=
  if 0 ≤ year ∧ year ≤ 9999 then padded 4 year.toNat
  else (if year < 0 then '-' else '+') :: padded 4 year.natAbs

def text (d : Date) : List Char :=
  yearText d.year ++ '-' :: padded 2 d.month ++ '-' :: padded 2 d.day

end Date

/-- `±hh:mm`; seconds of the offset are dropped. -/
def offsetText (offset : Int) : List Char :=
  let minutes := offset.natAbs / 60
  (if offset < 0 then '-' else '+') :: padded 2 (minutes / 60) ++ ':' :: padded 2 (minutes % 60)

namespace WallClock

def shownSecond (w : WallClock) : Nat :=
  w.second + w.nanos / 1000000000

/-- `YYYY-MM-DDThh:mm:ss.sss`. -/
def text (w : WallClock) : List Char :=
  w.date.text ++ 'T' :: padded 2 w.hour ++ ':' :: padded 2 w.minute ++
    ':' :: padded 2 w.shownSecond ++ '.' :: padded 3 (w.nanos % 1000000000 / 1000000)

end WallClock

namespace Moment

def fullText : Moment → List Char
  | valid t => t.wall.text ++ offsetText t.offset
  | blank => []
  | invalid => "Invalid Date".toList

/-- The string value: at local midnight the date alone, and nothing for what is no point in time. -/
def text (m : Moment) : List Char :=
  match m with
  | valid t => if t.wall.isMidnight then t.wall.date.text else m.fullText
  | _ => []

def offset : Moment → List Char
  | valid t => offsetText t.offset
  | _ => []

def ofMessageDate? (z : Zone) (s : List Char) : Option Moment :=
  (InternetDate.ofText? s <|> MailDate.ofText? s).map fun t => valid (z.toLocal t)

def ofText (z : Zone) (s : List Char) : Moment :=
  let t := trim s
  if t.isEmpty then blank
  else if isDayCount t then ofDays z (Binary64.trunc (Number.parse t))
  else if isDateText t then ofDateText z t
  else match ofMessageDate? z t with
    | some m => m
    | none => ((PlainDate.ofText? t).map (ofWall z)).getD invalid

end Moment

end FormExpr
