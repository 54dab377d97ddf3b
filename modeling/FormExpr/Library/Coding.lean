import FormExpr.Function.Registry

/-!
# Digests, encodings and patterns
-/

namespace FormExpr.Library

variable {F : Forest}

def digest (call : Call F) (message algorithm : Value F) (encoding : Option (Value F)) :
    Result F := do
  let encoding := (encoding.map Value.toText).getD "base64"
  return .ofChars (← call.environment.digester.ofText message.toText algorithm.toText encoding)

def base64Decode (_ : Call F) (v : Value F) : Result F :=
  let bytes := Base64.decode? (Text.trim v.toText.toList)
  .ok (.string ((bytes.bind fun bytes => String.fromUTF8? ⟨bytes.toArray⟩).getD ""))

/-- The pattern is framed as text; one that the engine gives up on counts as malformed. -/
def regex (call : Call F) (v pattern : Value F) : Result F :=
  match call.environment.patterns.matchesWhole? pattern.toText.toList v.toText.toList with
  | some found => .ok (.boolean found)
  | none => .error .malformedPattern

def coding : List (String × Function F) :=
  [("digest", .binaryOptional digest),
    ("regex", .binary regex),
    ("base64-decode", .unary base64Decode)]

end FormExpr.Library
