import FormExpr.Function.Registry
import FormExpr.Text.Search

/-!
# Nodes and the context
-/

namespace FormExpr.Library

variable {F : Forest}

def members (call : Call F) (v : Value F) : Except Error (List (Node F)) :=
  match v with
  | .nodeSet nodes => .ok nodes
  | _ => .error (.nodeSetRequired call.function)

def subject (call : Call F) (v : Option (Value F)) : Except Error (Option (Node F)) :=
  match v with
  | none => .ok call.context.node
  | some v => (members call v).map Node.first?

/-- The place of the context node in its list, or that of a node among its siblings of one name. -/
def position (call : Call F) (v : Option (Value F)) : Result F :=
  match v with
  | none => .ok (.number (Float.ofNat call.context.position))
  | some v => do
    match Node.first? (← members call v) with
    | some n => return .number (Float.ofNat n.siblingNumber)
    | none => return .number Binary64.nan

def isNamed : NodeKind → Bool
  | .element | .attribute | .instruction | .doctype => true
  | _ => false

def subjectName (name : Node F → Option String) : Function F :=
  .optional fun call v => do
    return .string (((← subject call v).bind name).getD "")

def name (n : Node F) : Option String :=
  if isNamed n.kind then n.writtenName else none

def localName (n : Node F) : Option String :=
  if isNamed n.kind then n.name.map QName.localName else none

def namespaceUri (n : Node F) : Option String :=
  if n.kind == .element || n.kind == .attribute then n.namespaceUri else none

/-- Whether a language is the wanted one or a variety of it, without regard to case. -/
def speaks (language wanted : List Char) : Bool :=
  match Text.stripStart? (Text.asciiLower wanted) (Text.asciiLower language) with
  | some [] => true
  | some ('-' :: _) => true
  | _ => false

def lang (call : Call F) (v : Value F) : Result F :=
  .ok <| .boolean <| match call.context.node.bind Node.language? with
    | some language => speaks language.toList v.toText.toList
    | none => false

def nodeSet : List (String × Function F) :=
  [("last", .nullary fun call => .ok (.number (Float.ofNat call.context.size))),
    ("position", .optional position),
    ("count", .unary fun call v => do
      return .number (Float.ofNat (← members call v).length)),
    ("count-non-empty", .unary fun call v => do
      return .number (Float.ofNat ((← members call v).countP fun n => !n.stringValue.isEmpty))),
    ("name", subjectName name),
    ("local-name", subjectName localName),
    ("namespace-uri", subjectName namespaceUri),
    ("lang", .unary lang)]

end FormExpr.Library
