import FormExpr.Calendar.MomentText
import FormExpr.Error

/-!
# Date formats

A format is copied with its escapes replaced: a percent sign and a letter that names a part of the
date. Whether a format is well formed does not depend on the moment.
-/

namespace FormExpr.Moment

open Text

def monthNames : List String :=
  ["Jan", "Feb", "Mar", "Apr", "May", "Jun", "Jul", "Aug", "Sep", "Oct", "Nov", "Dec"]

def dayNames : List String :=
  ["Sun", "Mon", "Tue", "Wed", "Thu", "Fri", "Sat"]

def integerText (n : Int) : List Char :=
  if n < 0 then '-' :: Nat.toDigits 10 n.natAbs else Nat.toDigits 10 n.natAbs

def escape? (w : WallClock) : Char → Option (List Char)
  | '%' => some ['%']
  | 'Y' => some (integerText w.date.year)
  | 'y' => some (padded 2 (w.date.year % 100).toNat)
  | 'm' => some (padded 2 w.date.month)
  | 'n' => some (padded 1 w.date.month)
  | 'b' => some (monthNames.getD (w.date.month - 1) "").toList
  | 'd' => some (padded 2 w.date.day)
  | 'e' => some (padded 1 w.date.day)
  | 'H' => some (padded 2 w.hour)
  | 'h' => some (padded 1 w.hour)
  | 'M' => some (padded 2 w.minute)
  | 'S' => some (padded 2 w.second)
  | '3' => some (padded 3 w.milli)
  | 'a' => some (dayNames.getD (Date.weekday w.dayNumber) "").toList
  | _ => none

def formatWall (w : WallClock) : List Char → Except Error (List Char)
  | [] => .ok []
  | '%' :: [] => .error .danglingEscape
  | '%' :: code :: rest =>
    match escape? w code with
    | some text => (formatWall w rest).map (text ++ ·)
    | none => .error (.unknownEscape code)
  | c :: rest => (formatWall w rest).map (c :: ·)

def format (m : Moment) (s : List Char) : Except Error (List Char) :=
  match m with
  | valid t => formatWall t.wall s
  | _ => .ok []

end FormExpr.Moment
