import FormExpr.Function.Registry

/-!
# Numbers
-/

namespace FormExpr.Library

variable {F : Forest}

def numeric (f : Float → Float) : Function F :=
  .counting (.unary fun call v => .ok (.number (f (v.toNumber call.zone)))) id

def numeric₂ (f : Float → Float → Float) : Function F :=
  .counting (.binary fun call v w =>
    .ok (.number (f (v.toNumber call.zone) (w.toNumber call.zone)))) id

def number (call : Call F) (v : Option (Value F)) : Result F :=
  .ok <| .number <| match v with
    | some v => v.toNumber call.zone
    | none => Number.ofText call.zone call.contextText.toList

/-- To the given number of decimal places; a negative number rounds to tens, hundreds, and so on.
The powers of ten can be those of any power function on doubles. -/
def roundTo (pow : Float → Float → Float) (x digits : Float) : Float :=
  let digits := Binary64.trunc digits
  let scale := pow 10.0 digits.abs
  if digits ≥ 0 then Binary64.roundHalfUp (x * scale) / scale
  else Binary64.roundHalfUp (x / scale) * scale

def round (pow : Float → Float → Float) (call : Call F) (v : Value F) (digits : Option (Value F)) :
    Result F :=
  .ok <| .number <| match digits with
    | some digits => roundTo pow (v.toNumber call.zone) (digits.toNumber call.zone)
    | none => Binary64.roundHalfUp (v.toNumber call.zone)

/-- A power of one or minus one with an infinite or undefined exponent is not a number. -/
def power (base exponent : Float) : Float :=
  if base.abs == 1.0 && !exponent.isFinite then Binary64.nan else base.pow exponent

def pi : Float := 3.14159265358979323846264338327950288

def arithmetic : List (String × Function F) :=
  [("number", .counting (.optional number) id),
    ("floor", numeric Binary64.floor),
    ("ceiling", numeric Binary64.ceil),
    ("abs", numeric Float.abs),
    ("int", numeric Binary64.trunc),
    ("round", .counting (.unaryOptional (round Float.pow)) id),
    ("sqrt", numeric Float.sqrt),
    ("exp", numeric Float.exp),
    ("exp10", numeric (Float.pow 10.0)),
    ("log", numeric Float.log),
    ("log10", numeric Float.log10),
    ("sin", numeric Float.sin),
    ("cos", numeric Float.cos),
    ("tan", numeric Float.tan),
    ("asin", numeric Float.asin),
    ("acos", numeric Float.acos),
    ("atan", numeric Float.atan),
    ("atan2", numeric₂ Float.atan2),
    ("pow", numeric₂ power),
    ("pi", .nullary fun _ => .ok (.number pi))]

end FormExpr.Library
