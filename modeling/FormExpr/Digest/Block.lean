/-!
# Messages in blocks

A message is padded with one set bit, zeros, and its length in bits, up to a whole number of blocks.
-/

namespace FormExpr.Digest

def littleEndian (count n : Nat) : List UInt8 :=
  (List.range count).map fun i => (n >>> (8 * i)).toUInt8

def bigEndian (count n : Nat) : List UInt8 :=
  (littleEndian count n).reverse

def ofBigEndian (bytes : List UInt8) : Nat :=
  bytes.foldl (fun n b => n * 256 + b.toNat) 0

def ofLittleEndian (bytes : List UInt8) : Nat :=
  ofBigEndian bytes.reverse

/-- The message with its padding to a multiple of `block` bytes; the length is written into the last
bytes by `length`. -/
def pad (block : Nat) (length : Nat → List UInt8) (message : List UInt8) : List UInt8 :=
  let tail := length (8 * message.length)
  let zeros := (2 * block - 1 - (message.length + tail.length) % block) % block
  message ++ 0x80 :: (List.replicate zeros 0 ++ tail)

def pieces (size : Nat) (bytes : List UInt8) : List (List UInt8) :=
  let bytes := bytes.toArray
  (List.range (bytes.size / size)).map fun i => (bytes.extract (size * i) (size * (i + 1))).toList

end FormExpr.Digest
