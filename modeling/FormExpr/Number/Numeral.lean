import FormExpr.Number.Shortest
import FormExpr.Text.Digit

/-!
# Numbers as text

A number is written with the fewest digits that read back: positionally while the point falls within
21 digits to the right of the first digit and at most six places to its left, else with an exponent.
Zero has no sign, and the infinities and the undefined number have names. Reading takes an optional
sign, digits with an optional point, and an optional exponent, and rounds once to the nearest
double.
-/

namespace FormExpr

namespace Decimal

/-- The double nearest to the decimal. The two bounds on the decimal's order only keep the powers of
ten small: beyond them every decimal is infinite or zero. -/
def toMagnitude (d : Decimal) : Nat :=
  let order := (Nat.toDigits 10 d.digits).length + d.exponent
  if d.digits = 0 then 0
  else if 310 < order then Binary64.infinityBits
  else if order < -330 then 0
  else Binary64.nearest d.num d.den

end Decimal

structure Numeral where
  negative : Bool
  whole : List Char
  fraction : List Char
  exponent : Int
deriving DecidableEq, Repr

namespace Numeral

def toDecimal (n : Numeral) : Decimal :=
  ⟨Text.naturalOf (n.whole ++ n.fraction), n.exponent - n.fraction.length⟩

def toFloat (n : Numeral) : Float :=
  Binary64.ofMagnitude n.negative n.toDecimal.toMagnitude

def sign : List Char → Bool × List Char
  | '-' :: rest => (true, rest)
  | '+' :: rest => (false, rest)
  | rest => (false, rest)

def exponent? : List Char → Option Int
  | [] => some 0
  | c :: rest =>
    if c = 'e' ∨ c = 'E' then
      let (negative, digits) := sign rest
      (Text.natural? digits).map fun n => if negative then -(n : Int) else n
    else none

def places : List Char → List Char × List Char
  | '.' :: rest => rest.span Char.isDigit
  | rest => ([], rest)

def ofText? (s : List Char) : Option Numeral :=
  let (negative, unsigned) := sign s
  let (whole, afterWhole) := unsigned.span Char.isDigit
  let (fraction, afterFraction) := places afterWhole
  if whole.isEmpty && fraction.isEmpty then none
  else (exponent? afterFraction).map fun exponent => ⟨negative, whole, fraction, exponent⟩

end Numeral

namespace Number

def named? (s : List Char) : Option Float :=
  if s = "Infinity".toList ∨ s = "+Infinity".toList then some Binary64.infinity
  else if s = "-Infinity".toList then some (-Binary64.infinity)
  else none

def parse (s : List Char) : Float :=
  match named? s with
  | some x => x
  | none => ((Numeral.ofText? s).map Numeral.toFloat).getD Binary64.nan

def positional (digits : List Char) (point : Int) : List Char :=
  if point ≤ 0 then
    '0' :: '.' :: (List.replicate (-point).toNat '0' ++ digits)
  else if point < digits.length then
    digits.take point.toNat ++ '.' :: digits.drop point.toNat
  else
    digits ++ List.replicate (point - digits.length).toNat '0'

def scientific (digits : List Char) (point : Int) : List Char :=
  let mantissa := match digits with
    | first :: second :: rest => first :: '.' :: second :: rest
    | short => short
  let exponent := point - 1
  mantissa ++ 'e' :: (if exponent < 0 then '-' else '+') :: Nat.toDigits 10 exponent.natAbs

/-- A decimal is written positionally from a millionth up to, but not including, `10 ^ 21`. -/
def writeDecimal (d : Decimal) : List Char :=
  let digits := Nat.toDigits 10 d.digits
  let point := digits.length + d.exponent
  if -6 < point ∧ point ≤ 21 then positional digits point else scientific digits point

def write (x : Float) : List Char :=
  if x.isNaN then "NaN".toList
  else
    let magnitude :=
      if x.isInf then "Infinity".toList
      else if Binary64.magnitude x = 0 then ['0']
      else writeDecimal (Binary64.Dyadic.ofBits (Binary64.magnitude x)).shortest
    if Binary64.isNegative x && Binary64.magnitude x != 0 then '-' :: magnitude else magnitude

def toText (x : Float) : String :=
  String.ofList (write x)

end Number

end FormExpr
