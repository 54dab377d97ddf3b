import FormExpr.Function.Registry

/-!
# Selected items

A selection is a text of items with blanks between them.
-/

namespace FormExpr.Library

variable {F : Forest}

def items (v : Value F) : List (List Char) :=
  Text.words v.toText.toList

def selected (_ : Call F) (v wanted : Value F) : Result F :=
  .ok (.boolean ((items v).contains (Text.trim wanted.toText.toList)))

def selectedAt (call : Call F) (v index : Value F) : Result F :=
  let index := index.toNumber call.zone
  let item := if index.isFinite && index ≥ 0 then (items v)[Binary64.toIndex index]? else none
  .ok (.ofChars (item.getD []))

def selection : List (String × Function F) :=
  [("selected", .binary selected),
    ("selected-at", .counting (.binary selectedAt) List.tail),
    ("count-selected", .unary fun _ v => .ok (.number (Float.ofNat (items v).length)))]

end FormExpr.Library
