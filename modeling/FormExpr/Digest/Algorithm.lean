import FormExpr.Digest.Md5
import FormExpr.Digest.Sha1
import FormExpr.Digest.Sha2
import FormExpr.Encoding.Base64
import FormExpr.Encoding.Hex
import FormExpr.Error
import FormExpr.Text.Search

/-!
# Digests by name

Algorithms and encodings are named without regard to case.
-/

namespace FormExpr.Digest

inductive Algorithm where
  | md5
  | sha1
  | sha256
  | sha384
  | sha512
deriving DecidableEq, Repr

def Algorithm.run : Algorithm → List UInt8 → List UInt8
  | md5 => Md5.digest
  | sha1 => Sha1.digest
  | sha256 => Sha2.sha256
  | sha384 => Sha2.sha384
  | sha512 => Sha2.sha512

def algorithms : List (String × Algorithm) :=
  [("MD5", .md5), ("SHA-1", .sha1), ("SHA-256", .sha256), ("SHA-384", .sha384),
    ("SHA-512", .sha512)]

def Algorithm.named (name : String) : Except Error Algorithm :=
  let upper := name.map Char.toUpper
  match algorithms.lookup upper with
  | some algorithm => .ok algorithm
  | none => .error (.unsupportedAlgorithm upper)

structure Digester where
  digest : String → List UInt8 → Except Error (List UInt8)

def Digester.standard : Digester :=
  ⟨fun name message => (Algorithm.named name).map fun algorithm => algorithm.run message⟩

inductive Encoding where
  | base64
  | hex
deriving DecidableEq, Repr

def Encoding.run : Encoding → List UInt8 → List Char
  | base64 => Base64.encode
  | hex => Hex.encode

def Encoding.named (name : String) : Except Error Encoding :=
  let lower := name.map Char.toLower
  match [("base64", Encoding.base64), ("hex", .hex)].lookup lower with
  | some encoding => .ok encoding
  | none => .error (.unsupportedEncoding lower)

/-- The encoding is looked up when there is a digest to be encoded. -/
def Digester.ofText (digester : Digester) (message algorithm encoding : String) :
    Except Error (List Char) := do
  let bytes ← digester.digest algorithm message.toUTF8.toList
  let encoding ← Encoding.named encoding
  return encoding.run bytes

end FormExpr.Digest
