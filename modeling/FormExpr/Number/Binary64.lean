/-!
# Doubles as exact numbers

A finite double is plus or minus `m * 2 ^ q`. The bits of a magnitude, read as a natural number, are
`m + (q + 1074) * 2 ^ 52` both for normal and for subnormal numbers, so magnitudes are ordered as
their bits are, and a mantissa that rounds up to `2 ^ 53` carries into the exponent by itself.

Everything here is computed from the bits in exact integer arithmetic: the nearest double to a
quotient, the roundings to an integer, and the remainder.
-/

namespace FormExpr.Binary64

def nan : Float := 0.0 / 0.0

def infinity : Float := 1.0 / 0.0

def infinityBits : Nat := 0x7FF0000000000000

def signBit : Nat := 0x8000000000000000

def hiddenBit : Nat := 0x10000000000000

def magnitude (x : Float) : Nat :=
  x.toBits.toNat % signBit

def isNegative (x : Float) : Bool :=
  signBit ≤ x.toBits.toNat

def ofMagnitude (negative : Bool) (bits : Nat) : Float :=
  Float.ofBits (UInt64.ofNat (if negative then bits + signBit else bits))

structure Dyadic where
  mantissa : Nat
  exponent : Int
deriving DecidableEq, Repr

def Dyadic.ofBits (bits : Nat) : Dyadic :=
  if bits < hiddenBit then ⟨bits, -1074⟩
  else ⟨hiddenBit + bits % hiddenBit, (bits / hiddenBit : Nat) - 1075⟩

/-- The bits of `m * 2 ^ q`, where `m ≤ 2 ^ 53` and `q` is the exponent of its binade. -/
def Dyadic.toBits (d : Dyadic) : Nat :=
  d.mantissa + (d.exponent + 1074).toNat * hiddenBit

def Dyadic.num (d : Dyadic) : Nat :=
  d.mantissa <<< d.exponent.toNat

def Dyadic.den (d : Dyadic) : Nat :=
  1 <<< (-d.exponent).toNat

def roundHalfEven (num den : Nat) : Nat :=
  let floor := num / den
  let rest := 2 * (num % den)
  if rest < den then floor
  else if den < rest then floor + 1
  else floor + floor % 2

/-- The largest `k` with `2 ^ k ≤ num / den`. -/
def binaryOrder (num den : Nat) : Int :=
  let k : Int := (num.log2 : Int) - den.log2
  if den <<< k.toNat ≤ num <<< (-k).toNat then k else k - 1

/-- The bits of the double nearest to `num / den`, a tie to the even mantissa; a quotient beyond the
largest double gives infinity. -/
def nearest (num den : Nat) : Nat :=
  if num = 0 then 0
  else
    let q := max (binaryOrder num den - 52) (-1074)
    let m := roundHalfEven (num <<< (-q).toNat) (den <<< q.toNat)
    min (Dyadic.toBits ⟨m, q⟩) infinityBits

def ofSignedInt (negative : Bool) (n : Int) : Float :=
  ofMagnitude negative (nearest n.natAbs 1)

def fraction (x : Float) : Int × Nat :=
  let d := Dyadic.ofBits (magnitude x)
  (if isNegative x then -d.num else d.num, d.den)

def floorInt (x : Float) : Int :=
  let (num, den) := fraction x
  num / den

def ceilInt (x : Float) : Int :=
  let (num, den) := fraction x
  (num + den - 1) / den

def truncInt (x : Float) : Int :=
  let (num, den) := fraction x
  num.tdiv den

def roundHalfUpInt (x : Float) : Int :=
  let (num, den) := fraction x
  (2 * num + den) / (2 * den)

def roundHalfAwayInt (x : Float) : Int :=
  let (num, den) := fraction x
  (2 * num + num.sign * den).tdiv (2 * den)

def isIntegral (x : Float) : Bool :=
  let (num, den) := fraction x
  num % den == 0

/-- Rounds a finite double with `round`; a zero keeps the sign of the argument. -/
def integral (round : Float → Int) (x : Float) : Float :=
  if x.isFinite then ofSignedInt (isNegative x) (round x) else x

def floor : Float → Float := integral floorInt

def ceil : Float → Float := integral ceilInt

def trunc : Float → Float := integral truncInt

def roundHalfUp : Float → Float := integral roundHalfUpInt

/-- The exact remainder of the division towards zero; it has the sign of the dividend. -/
def remainder (x y : Float) : Float :=
  if x.isNaN || y.isNaN || x.isInf || magnitude y == 0 then nan
  else if y.isInf then x
  else
    let a := Dyadic.ofBits (magnitude x)
    let b := Dyadic.ofBits (magnitude y)
    let q := min a.exponent b.exponent
    let r := a.mantissa <<< (a.exponent - q).toNat % b.mantissa <<< (b.exponent - q).toNat
    ofMagnitude (isNegative x) (nearest (r <<< q.toNat) (1 <<< (-q).toNat))

/-- The integer part as an index: not a number and negative numbers give zero. -/
def toIndex (x : Float) : Nat :=
  if x.isNaN || isNegative x then 0
  else if x.isInf then 0xFFFFFFFFFFFFFFFF
  else min (truncInt x).toNat 0xFFFFFFFFFFFFFFFF

end FormExpr.Binary64
