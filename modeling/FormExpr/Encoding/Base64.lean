/-!
# Base64

The standard alphabet with padding. Decoding accepts exactly what encoding produces: the length is a
multiple of four, padding stands only at the end, and the bits that padding cuts off are zero.
-/

namespace FormExpr.Base64

def alphabet : List Char :=
  "ABCDEFGHIJKLMNOPQRSTUVWXYZabcdefghijklmnopqrstuvwxyz0123456789+/".toList

def digit (n : Nat) : Char :=
  alphabet.getD n '='

def value? (c : Char) : Option Nat :=
  alphabet.findIdx? (· == c)

def encode : List UInt8 → List Char
  | [] => []
  | [a] =>
    let n := a.toNat
    [digit (n / 4), digit (n % 4 * 16), '=', '=']
  | [a, b] =>
    let n := a.toNat * 256 + b.toNat
    [digit (n / 1024), digit (n / 16 % 64), digit (n % 16 * 4), '=']
  | a :: b :: c :: rest =>
    let n := a.toNat * 65536 + b.toNat * 256 + c.toNat
    digit (n / 262144) :: digit (n / 4096 % 64) :: digit (n / 64 % 64) :: digit (n % 64) ::
      encode rest

/-- The bytes of the last four characters; padding may stand in for the last one or two. -/
def decodeLast? (a b c d : Char) : Option (List UInt8) := do
  let a ← value? a
  let b ← value? b
  if c = '=' ∧ d = '=' then
    if b % 16 = 0 then some [(a * 4 + b / 16).toUInt8] else none
  else
    let c ← value? c
    let n := a * 1024 + b * 16 + c / 4
    if d = '=' then
      if c % 4 = 0 then some [(n / 256).toUInt8, (n % 256).toUInt8] else none
    else
      let d ← value? d
      let n := n * 256 + c % 4 * 64 + d
      some [(n / 65536).toUInt8, (n / 256 % 256).toUInt8, (n % 256).toUInt8]

def decode? : List Char → Option (List UInt8)
  | [] => some []
  | [a, b, c, d] => decodeLast? a b c d
  | a :: b :: c :: d :: rest => do
    if c = '=' ∨ d = '=' then none
    else return (← decodeLast? a b c d) ++ (← decode? rest)
  | _ => none

end FormExpr.Base64
