import FormExpr.Number.Binary64

/-!
# The shortest decimal that reads back

A decimal reads back as a given double exactly when it lies in the double's rounding interval: up to
half way to each neighbour, the ends included when the mantissa is even. The decimal grids are tried
from the coarsest one downwards, on each the two neighbours of the value; the first grid with a hit
gives the fewest digits, and of two hits the nearer one is taken.
-/

namespace FormExpr

structure Decimal where
  digits : Nat
  exponent : Int
deriving DecidableEq, Repr

def Decimal.num (d : Decimal) : Nat :=
  d.digits * Nat.pow 10 d.exponent.toNat

def Decimal.den (d : Decimal) : Nat :=
  Nat.pow 10 (-d.exponent).toNat

/-- The rounding interval of a positive double in units of a quarter of its last place. -/
structure RoundingInterval where
  low : Nat
  value : Nat
  high : Nat
  /-- Whether the ends round to the double. -/
  closed : Bool
  exponent : Int
deriving Repr

/-- Below a power of two the neighbour is half as far away as above it. -/
def RoundingInterval.ofDyadic (d : Binary64.Dyadic) : RoundingInterval :=
  { low := 4 * d.mantissa - (if d.mantissa = Binary64.hiddenBit ∧ -1074 < d.exponent then 1 else 2)
    value := 4 * d.mantissa
    high := 4 * d.mantissa + 2
    closed := d.mantissa % 2 = 0
    exponent := d.exponent - 2 }

namespace RoundingInterval

def scales (r : RoundingInterval) (e : Int) : Nat × Nat :=
  (Nat.pow 10 (-e).toNat <<< r.exponent.toNat, Nat.pow 10 e.toNat <<< (-r.exponent).toNat)

def holds (r : RoundingInterval) (n : Nat) (e : Int) : Bool :=
  let (unit, grid) := r.scales e
  let point := n * grid
  if r.closed then r.low * unit ≤ point && point ≤ r.high * unit
  else r.low * unit < point && point < r.high * unit

/-- The point of the grid `10 ^ e` that rounds to the double and lies nearest to it; of two at the
same distance the greater one. -/
def onGrid? (r : RoundingInterval) (e : Int) : Option Nat :=
  let (unit, grid) := r.scales e
  let below := r.value * unit / grid
  match r.holds below e, r.holds (below + 1) e with
  | true, true =>
    if 2 * (r.value * unit % grid) < grid then some below else some (below + 1)
  | true, false => some below
  | false, true => some (below + 1)
  | false, false => none

def search (r : RoundingInterval) : Nat → Int → Option Decimal
  | 0, _ => none
  | steps + 1, e =>
    match r.onGrid? e with
    | some n => some ⟨n, e⟩
    | none => search r steps (e - 1)

end RoundingInterval

def Binary64.Dyadic.decimalOrder (d : Binary64.Dyadic) : Int :=
  ((d.mantissa.log2 : Int) + d.exponent + 1) * 30103 / 100000 + 1

def Binary64.Dyadic.toDecimal (d : Binary64.Dyadic) : Decimal :=
  if 0 ≤ d.exponent then ⟨d.num, 0⟩
  else ⟨d.mantissa * Nat.pow 5 (-d.exponent).toNat, d.exponent⟩

/-- The decimal of fewest digits that reads back as the double; the finest grid tried is the one on
which the double itself lies. -/
def Binary64.Dyadic.shortest (d : Binary64.Dyadic) : Decimal :=
  let top := d.decimalOrder
  let steps := (top - min d.exponent 0).toNat + 1
  ((RoundingInterval.ofDyadic d).search steps top).getD d.toDecimal

end FormExpr
