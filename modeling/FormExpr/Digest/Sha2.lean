import FormExpr.Digest.Block

/-!
# The SHA-2 family

One construction at two word sizes. Its constants are the fractions of square and cube roots of the
first primes, computed here as such: 64 bits of them for the long words, the upper half of those for
the short ones.
-/

namespace FormExpr.Digest.Sha2

def primes : List Nat :=
  [2, 3, 5, 7, 11, 13, 17, 19, 23, 29, 31, 37, 41, 43, 47, 53, 59, 61, 67, 71, 73, 79, 83, 89, 97,
    101, 103, 107, 109, 113, 127, 131, 137, 139, 149, 151, 157, 163, 167, 173, 179, 181, 191, 193,
    197, 199, 211, 223, 227, 229, 233, 239, 241, 251, 257, 263, 269, 271, 277, 281, 283, 293, 307,
    311, 313, 317, 331, 337, 347, 349, 353, 359, 367, 373, 379, 383, 389, 397, 401, 409]

def root (power n : Nat) : Nat → Nat
  | 0 => 0
  | bits + 1 =>
    let high := root power n bits
    let next := 2 * high + 1
    if Nat.pow (next <<< (69 - bits)) power ≤ n then next else 2 * high

/-- The first 64 bits of the fraction of a root of a prime. -/
def rootFraction (power prime : Nat) : Nat :=
  root power (prime <<< (64 * power)) 70 % 1 <<< 64

def squareRoots : List Nat :=
  (primes.take 16).map (rootFraction 2)

def cubeRoots : List Nat :=
  primes.map (rootFraction 3)

structure State (Word : Type) where
  a : Word
  b : Word
  c : Word
  d : Word
  e : Word
  f : Word
  g : Word
  h : Word

namespace State

variable {Word : Type}

def ofList (fill : Word) (words : List Word) : State Word :=
  let at? i := words.getD i fill
  ⟨at? 0, at? 1, at? 2, at? 3, at? 4, at? 5, at? 6, at? 7⟩

def toList (s : State Word) : List Word :=
  [s.a, s.b, s.c, s.d, s.e, s.f, s.g, s.h]

end State

structure Variant (Word : Type) where
  /-- Bytes of a word; a block has sixteen words, and the length is written in two. -/
  size : Nat
  ofNat : Nat → Word
  toNat : Word → Nat
  constants : List Word
  rotateRight : Word → Nat → Word
  shiftRight : Word → Nat → Word
  /-- Rotations and shift of the two sums of the schedule, rotations of the two of a step. -/
  small₀ : Nat × Nat × Nat
  small₁ : Nat × Nat × Nat
  big₀ : Nat × Nat × Nat
  big₁ : Nat × Nat × Nat

namespace Variant

variable {Word : Type} [Add Word] [XorOp Word] [AndOp Word] [Complement Word] (v : Variant Word)

def smallSum (turns : Nat × Nat × Nat) (x : Word) : Word :=
  v.rotateRight x turns.1 ^^^ v.rotateRight x turns.2.1 ^^^ v.shiftRight x turns.2.2

def bigSum (turns : Nat × Nat × Nat) (x : Word) : Word :=
  v.rotateRight x turns.1 ^^^ v.rotateRight x turns.2.1 ^^^ v.rotateRight x turns.2.2

def schedule (block : List UInt8) : Array Word :=
  let words := ((pieces v.size block).map fun w => v.ofNat (ofBigEndian w)).toArray
  let at? (w : Array Word) (i : Nat) := w.getD i (v.ofNat 0)
  (List.range (v.constants.length - 16)).foldl (fun w i =>
    w.push (v.smallSum v.small₁ (at? w (i + 14)) + at? w (i + 9) +
      v.smallSum v.small₀ (at? w (i + 1)) + at? w i)) words

def step (s : State Word) (input : Word × Word) : State Word :=
  let choice := (s.e &&& s.f) ^^^ (~~~s.e &&& s.g)
  let majority := (s.a &&& s.b) ^^^ (s.a &&& s.c) ^^^ (s.b &&& s.c)
  let t₁ := s.h + v.bigSum v.big₁ s.e + choice + input.1 + input.2
  let t₂ := v.bigSum v.big₀ s.a + majority
  ⟨t₁ + t₂, s.a, s.b, s.c, s.d + t₁, s.e, s.f, s.g⟩

def absorb (s : State Word) (block : List UInt8) : State Word :=
  let t := (v.constants.zip (v.schedule block).toList).foldl v.step s
  .ofList (v.ofNat 0) (s.toList.zipWith (· + ·) t.toList)

def digest (initial : List Word) (length : Nat) (message : List UInt8) : List UInt8 :=
  let blocks := pieces (16 * v.size) (pad (16 * v.size) (bigEndian (2 * v.size)) message)
  let s := blocks.foldl v.absorb (.ofList (v.ofNat 0) initial)
  (s.toList.flatMap fun w => bigEndian v.size (v.toNat w)).take length

end Variant

def short : Variant UInt32 :=
  { size := 4
    ofNat := Nat.toUInt32
    toNat := UInt32.toNat
    constants := (cubeRoots.take 64).map fun n => (n >>> 32).toUInt32
    rotateRight := fun x n => (x >>> n.toUInt32) ||| (x <<< (32 - n).toUInt32)
    shiftRight := fun x n => x >>> n.toUInt32
    small₀ := (7, 18, 3)
    small₁ := (17, 19, 10)
    big₀ := (2, 13, 22)
    big₁ := (6, 11, 25) }

def long : Variant UInt64 :=
  { size := 8
    ofNat := Nat.toUInt64
    toNat := UInt64.toNat
    constants := cubeRoots.map Nat.toUInt64
    rotateRight := fun x n => (x >>> n.toUInt64) ||| (x <<< (64 - n).toUInt64)
    shiftRight := fun x n => x >>> n.toUInt64
    small₀ := (1, 8, 7)
    small₁ := (19, 61, 6)
    big₀ := (28, 34, 39)
    big₁ := (14, 18, 41) }

def sha256 : List UInt8 → List UInt8 :=
  short.digest ((squareRoots.take 8).map fun n => (n >>> 32).toUInt32) 32

def sha384 : List UInt8 → List UInt8 :=
  long.digest ((squareRoots.drop 8).map Nat.toUInt64) 48

def sha512 : List UInt8 → List UInt8 :=
  long.digest ((squareRoots.take 8).map Nat.toUInt64) 64

end FormExpr.Digest.Sha2
