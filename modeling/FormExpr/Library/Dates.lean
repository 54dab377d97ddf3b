import FormExpr.Calendar.ClockShare
import FormExpr.Calendar.Format
import FormExpr.Function.Registry
import FormExpr.Geo
import FormExpr.Library.Text

/-!
# Dates and places
-/

namespace FormExpr.Library

variable {F : Forest}

def date (call : Call F) (v : Value F) : Result F :=
  .ok (.date (v.toMoment call.zone))

/-- A number is a day count already; a text has to be a date text. -/
def decimalDateTime (call : Call F) (v : Value F) : Result F :=
  .ok <| .number <| match v with
    | .number x => x
    | .date m => m.toDays
    | v => (Moment.ofDateText call.zone (Text.trim v.toText.toList)).toDays

def decimalTime (call : Call F) (v : Value F) : Result F :=
  let today := call.environment.now.wall.date
  .ok (.number (clockShare call.zone today (Text.trim v.toText.toList)))

def today (call : Call F) : Result F :=
  .ok (.date (Moment.startOfDay call.zone call.environment.now))

def now (call : Call F) : Result F :=
  .ok (.date (.valid call.environment.now))

def formatDate (call : Call F) (v format : Value F) : Result F := do
  return .ofChars (← (v.toMoment call.zone).format format.toText.toList)

def measure (f : List GeoPoint → Float) (args : List (Value F)) : Result F :=
  .ok (.number (((GeoPoint.ofTexts? (Value.spreadTexts args)).map f).getD Binary64.nan))

def dates : List (String × Function F) :=
  [("date", .unary date),
    ("date-time", .unary date),
    ("decimal-date-time", .counting (.unary decimalDateTime) id),
    ("decimal-time", .dated (.unary decimalTime)),
    ("today", .dated (.nullary today)),
    ("now", .nullary now),
    ("format-date", .binary formatDate),
    ("format-date-time", .binary formatDate),
    ("area", .variadic 1 fun _ => measure GeoPoint.area),
    ("distance", .variadic 1 fun _ => measure GeoPoint.distance)]

end FormExpr.Library
