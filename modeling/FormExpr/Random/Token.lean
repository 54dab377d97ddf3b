import FormExpr.Encoding.Hex

/-!
# Random numbers, tokens and identifiers

All of them are functions of a supply of random words of 64 bits.
-/

namespace FormExpr.Random

/-- A number from zero up to but not including one, on the grid of `2 ^ -53`. -/
def unit (word : UInt64) : Float :=
  Float.ofNat (word >>> 11).toNat / 9007199254740992.0

def digits (word : UInt64) : List Char :=
  Hex.encode ((List.range 8).map fun i => (word >>> (56 - 8 * i).toUInt64).toUInt8)

def token (words : Nat → UInt64) (length : Nat) : List Char :=
  ((List.range ((length + 15) / 16)).flatMap fun i => digits (words i)).take length

def uuid (words : Nat → UInt64) : List Char :=
  let high := (words 0 &&& 0xFFFFFFFFFFFF0FFF) ||| 0x4000
  let low := (words 1 &&& 0x3FFFFFFFFFFFFFFF) ||| 0x8000000000000000
  let text := digits high ++ digits low
  text.take 8 ++ '-' :: (text.drop 8).take 4 ++ '-' :: (text.drop 12).take 4 ++
    '-' :: (text.drop 16).take 4 ++ '-' :: text.drop 20

end FormExpr.Random
