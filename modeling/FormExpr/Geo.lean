import FormExpr.Number.Numeral
import FormExpr.Text.Blank

/-!
# Places on the globe

A place is written `latitude longitude`, optionally with altitude and accuracy, and several places
are joined with semicolons. Lengths and areas are those of the sphere with the earth's equatorial
radius, rounded to centimetres. They are computed with any sine, cosine and arc cosine on doubles;
the functions are the ones of the platform.
-/

namespace FormExpr

structure Trigonometry where
  sin : Float → Float
  cos : Float → Float
  acos : Float → Float

def Trigonometry.platform : Trigonometry := ⟨Float.sin, Float.cos, Float.acos⟩

structure GeoPoint where
  latitude : Float
  longitude : Float

namespace GeoPoint

/-- Whether an altitude and an accuracy may follow a point; both have to be numbers, and an accuracy
is not negative. -/
def acceptsTail : List (List Char) → Bool
  | [] => true
  | [altitude] => !(Number.parse altitude).isNaN
  | [altitude, accuracy] => !(Number.parse altitude).isNaN && Number.parse accuracy ≥ 0
  | _ => false

def ofText? (s : List Char) : Option GeoPoint :=
  match Text.words s with
  | latitude :: longitude :: tail =>
    let latitude := Number.parse latitude
    let longitude := Number.parse longitude
    if -90 ≤ latitude ∧ latitude ≤ 90 ∧ -180 ≤ longitude ∧ longitude ≤ 180 ∧ acceptsTail tail then
      some ⟨latitude, longitude⟩
    else none
  | _ => none

def segments (s : List Char) : List (List Char) :=
  (Text.splitAll (· == ';') s).filter fun segment => !(Text.trim segment).isEmpty

def ofTexts? (texts : List (List Char)) : Option (List GeoPoint) :=
  (texts.flatMap segments).mapM ofText?

def earthRadius : Float := 6378100.0

def radians (degrees : Float) : Float :=
  degrees * (3.14159265358979323846264338327950288 / 180.0)

/-- A sum without terms is negative zero. -/
def sum (xs : List Float) : Float :=
  xs.foldl (· + ·) (-0.0)

def roundMeters (x : Float) : Float :=
  (Binary64.roundHalfUp (x * 100.0)).abs / 100.0

/-- The cosine of the angle between two points, by the spherical law of cosines. -/
def cosAngle (trig : Trigonometry) (p q : GeoPoint) : Float :=
  let φ := radians p.latitude
  let ψ := radians q.latitude
  let Δ := radians (q.longitude - p.longitude)
  trig.sin φ * trig.sin ψ + trig.cos φ * trig.cos ψ * trig.cos Δ

/-- Rounding can push a cosine just past one. -/
def clampUnit (x : Float) : Float :=
  if x < -1.0 then -1.0 else if x > 1.0 then 1.0 else x

def leg (trig : Trigonometry) (p q : GeoPoint) : Float :=
  trig.acos (clampUnit (cosAngle trig p q)) * earthRadius

def pathLength (trig : Trigonometry) (points : List GeoPoint) : Float :=
  if points.length < 2 then 0.0
  else roundMeters (sum (points.zipWith (leg trig) points.tail))

def excess (trig : Trigonometry) (p q : GeoPoint) : Float :=
  radians (q.longitude - p.longitude) *
    (2.0 + trig.sin (radians p.latitude) + trig.sin (radians q.latitude))

def polygonArea (trig : Trigonometry) (points : List GeoPoint) : Float :=
  match points with
  | first :: second :: third :: rest =>
    let following := second :: third :: rest ++ [first]
    roundMeters (sum (points.zipWith (excess trig) following) * earthRadius * earthRadius / 2.0)
  | _ => 0.0

def distance : List GeoPoint → Float := pathLength .platform

def area : List GeoPoint → Float := polygonArea .platform

end GeoPoint

end FormExpr
