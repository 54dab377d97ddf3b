import FormExpr.Number.Binary64

/-!
# The minimal standard generator

The multiplicative congruential generator with multiplier 16807 and modulus `2 ^ 31 - 1`. A seed
gives the same draws everywhere.
-/

namespace FormExpr

structure ParkMiller where
  state : Int
deriving DecidableEq, Repr

namespace ParkMiller

def modulus : Int := 2147483647

def multiplier : Int := 16807

/-- The whole part of a seed, reduced; a remainder that is not positive is raised by one less than
the modulus. A seed that is not finite counts as zero. -/
def ofSeed (seed : Float) : ParkMiller :=
  let whole := if seed.isFinite then (Binary64.truncInt seed).tmod modulus else 0
  ⟨if whole ≤ 0 then whole + (modulus - 1) else whole⟩

def step (g : ParkMiller) : ParkMiller :=
  ⟨(g.state * multiplier).tmod modulus⟩

def fraction (g : ParkMiller) : Float :=
  Float.ofInt (g.state - 1) / Float.ofInt (modulus - 1)

def states (g : ParkMiller) : Nat → List ParkMiller
  | 0 => []
  | n + 1 => g.step :: g.step.states n

def draws (g : ParkMiller) (n : Nat) : List Float :=
  (g.states n).map fraction

end ParkMiller

end FormExpr
