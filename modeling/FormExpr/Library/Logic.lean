import FormExpr.Function.Registry

/-!
# Booleans and choice
-/

namespace FormExpr.Library

variable {F : Forest}

def not (_ : Call F) (v : Value F) : Result F :=
  .ok (.boolean !v.toBool)

def boolean (_ : Call F) (v : Value F) : Result F :=
  .ok (.boolean v.toBool)

def booleanFromString (_ : Call F) (v : Value F) : Result F :=
  .ok (.boolean (v.toText == "true" || v.toText == "1"))

/-- Both branches have been evaluated already. -/
def choose (_ : Call F) (condition yes no : Value F) : Result F :=
  .ok (if condition.toBool then yes else no)

def once (call : Call F) (v : Value F) : Result F :=
  .ok (if call.contextText.isEmpty then v else .string call.contextText)

def coalesce (_ : Call F) (a b : Value F) : Result F :=
  .ok (.string (if a.toText.isEmpty then b.toText else a.toText))

def logic : List (String × Function F) :=
  [("true", .nullary fun _ => .ok (.boolean true)),
    ("false", .nullary fun _ => .ok (.boolean false)),
    ("not", .unary not),
    ("boolean", .unary boolean),
    ("boolean-from-string", .unary booleanFromString),
    ("if", .ternary choose),
    ("once", .unary once),
    ("coalesce", .binary coalesce)]

end FormExpr.Library
