import FormExpr.Digest.Block

/-!
# SHA-1
-/

namespace FormExpr.Digest.Sha1

structure State where
  a : UInt32
  b : UInt32
  c : UInt32
  d : UInt32
  e : UInt32

def initial : State :=
  ⟨0x67452301, 0xEFCDAB89, 0x98BADCFE, 0x10325476, 0xC3D2E1F0⟩

def rotateLeft (x : UInt32) (n : UInt32) : UInt32 :=
  (x <<< n) ||| (x >>> (32 - n))

def schedule (block : List UInt8) : Array UInt32 :=
  let words := ((pieces 4 block).map fun w => (ofBigEndian w).toUInt32).toArray
  (List.range 64).foldl (fun w i =>
    let mixed := w.getD (i + 13) 0 ^^^ w.getD (i + 8) 0 ^^^ w.getD (i + 2) 0 ^^^ w.getD i 0
    w.push (rotateLeft mixed 1)) words

def mix (i : Nat) (s : State) : UInt32 × UInt32 :=
  match i / 20 with
  | 0 => ((s.b &&& s.c) ||| (~~~s.b &&& s.d), 0x5A827999)
  | 1 => (s.b ^^^ s.c ^^^ s.d, 0x6ED9EBA1)
  | 2 => ((s.b &&& s.c) ||| (s.b &&& s.d) ||| (s.c &&& s.d), 0x8F1BBCDC)
  | _ => (s.b ^^^ s.c ^^^ s.d, 0xCA62C1D6)

def step (words : Array UInt32) (s : State) (i : Nat) : State :=
  let (f, k) := mix i s
  ⟨rotateLeft s.a 5 + f + s.e + k + words.getD i 0, s.a, rotateLeft s.b 30, s.c, s.d⟩

def absorb (s : State) (block : List UInt8) : State :=
  let t := (List.range 80).foldl (step (schedule block)) s
  ⟨s.a + t.a, s.b + t.b, s.c + t.c, s.d + t.d, s.e + t.e⟩

def digest (message : List UInt8) : List UInt8 :=
  let s := (pieces 64 (pad 64 (bigEndian 8) message)).foldl absorb initial
  [s.a, s.b, s.c, s.d, s.e].flatMap fun w => bigEndian 4 w.toNat

end FormExpr.Digest.Sha1
