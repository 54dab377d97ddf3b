/-!
# Document trees

A tree has a label at every node, a list of attributes and a list of children. The string value of a
document or an element is the text below it, reached through elements only; every other node has its
own value.
-/

namespace FormExpr

inductive NodeKind where
  | document
  | doctype
  | element
  | attribute
  | text
  | cdata
  | comment
  | instruction
deriving DecidableEq, Repr

/-- A name with the qualifier before its colon and the namespace it is bound to, if any. -/
structure QName where
  qualifier : Option String
  localName : String
  namespaceUri : Option String
deriving DecidableEq, Repr

namespace QName

def xmlNamespace : String := "http://www.w3.org/XML/1998/namespace"

def unqualified (name : String) : QName :=
  ⟨none, name, none⟩

/-- Cuts a written name at its first colon; a namespace given apart wins over the one of `xml`. -/
def ofText (name : String) (namespaceUri : Option String) : QName :=
  let (before, after) := name.toList.span (· != ':')
  match after with
  | [] => ⟨none, name, namespaceUri⟩
  | _ :: localName =>
    let qualifier := String.ofList before
    ⟨some qualifier, String.ofList localName,
      namespaceUri <|> if qualifier = "xml" then some xmlNamespace else none⟩

def written (q : QName) : String :=
  match q.qualifier with
  | some qualifier => if qualifier.isEmpty then q.localName else qualifier ++ ":" ++ q.localName
  | none => q.localName

end QName

structure Label where
  kind : NodeKind
  name : Option QName
  value : String
deriving DecidableEq, Repr

namespace Label

def document : Label := ⟨.document, none, ""⟩

def doctype (name : String) : Label := ⟨.doctype, some (.unqualified name), ""⟩

def element (name : String) (namespaceUri : Option String) : Label :=
  ⟨.element, some (.ofText name namespaceUri), ""⟩

def attr (name : String) (namespaceUri : Option String) (value : String) : Label :=
  ⟨.attribute, some (.ofText name namespaceUri), value⟩

def text (value : String) : Label := ⟨.text, none, value⟩

def cdata (value : String) : Label := ⟨.cdata, none, value⟩

def comment (value : String) : Label := ⟨.comment, none, value⟩

def instruction (target value : String) : Label :=
  ⟨.instruction, some (.unqualified target), value⟩

end Label

inductive Tree where
  | node (label : Label) (attributes children : List Tree)

namespace Tree

def label : Tree → Label
  | node label _ _ => label

def attributes : Tree → List Tree
  | node _ attributes _ => attributes

def children : Tree → List Tree
  | node _ _ children => children

def branches (t : Tree) : List Tree :=
  t.attributes ++ t.children

mutual

def contributed : Tree → List String
  | node label _ children =>
    match label.kind with
    | .text | .cdata => [label.value]
    | .element => contributedAll children
    | _ => []

def contributedAll : List Tree → List String
  | [] => []
  | t :: rest => contributed t ++ contributedAll rest

end

def stringValue (t : Tree) : String :=
  match t.label.kind with
  | .document | .element => String.join (contributedAll t.children)
  | _ => t.label.value

def at? : Tree → List Nat → Option Tree
  | t, [] => some t
  | t, i :: path => t.branches[i]?.bind (·.at? path)

theorem at?_append (t : Tree) (p q : List Nat) : t.at? (p ++ q) = (t.at? p).bind (·.at? q) := by
  induction p generalizing t with
  | nil => simp [at?]
  | cons i p ih => cases h : t.branches[i]? <;> simp [at?, h, ih]

end Tree

end FormExpr
