import FormExpr.Tree.Basic

/-!
# Nodes of a forest

A node is a place in a forest: the number of its tree and the path of branch numbers that leads to
it from the root. A node of a forest always exists there, and two nodes are the same when their
places are.
-/

namespace FormExpr

structure Forest where
  trees : List Tree

namespace Forest

def at? (F : Forest) (root : Nat) (path : List Nat) : Option Tree :=
  F.trees[root]?.bind (·.at? path)

theorem at?_append (F : Forest) (root : Nat) (p q : List Nat) :
    F.at? root (p ++ q) = (F.at? root p).bind (·.at? q) := by
  cases h : F.trees[root]? <;> simp [at?, h, Tree.at?_append]

end Forest

structure Node (F : Forest) where
  root : Nat
  path : List Nat
  mem : (F.at? root path).isSome
deriving DecidableEq

namespace Node

variable {F : Forest}

def tree (n : Node F) : Tree :=
  (F.at? n.root n.path).get n.mem

def label (n : Node F) : Label :=
  n.tree.label

def kind (n : Node F) : NodeKind :=
  n.label.kind

def name (n : Node F) : Option QName :=
  n.label.name

def writtenName (n : Node F) : Option String :=
  n.name.map QName.written

def namespaceUri (n : Node F) : Option String :=
  n.name.bind QName.namespaceUri

def stringValue (n : Node F) : String :=
  n.tree.stringValue

theorem at?_eq_some_tree (n : Node F) : F.at? n.root n.path = some n.tree := by
  simp [tree]

def top (n : Node F) : Node F :=
  { root := n.root
    path := []
    mem := by
      have h := n.mem
      cases hroot : F.trees[n.root]? <;> simp_all [Forest.at?, Tree.at?] }

def parent (n : Node F) : Option (Node F) :=
  if h : n.path = [] then none
  else some
    { root := n.root
      path := n.path.dropLast
      mem := by
        have hmem := n.mem
        rw [← List.dropLast_concat_getLast h, Forest.at?_append] at hmem
        cases hat : F.at? n.root n.path.dropLast <;> simp_all }

def branch (n : Node F) (i : Nat) (h : i < n.tree.branches.length) : Node F :=
  { root := n.root
    path := n.path ++ [i]
    mem := by simp [Forest.at?_append, at?_eq_some_tree, Tree.at?, h] }

def attributes (n : Node F) : List (Node F) :=
  List.ofFn fun i : Fin n.tree.attributes.length =>
    n.branch i (by simp only [Tree.branches, List.length_append]; omega)

def children (n : Node F) : List (Node F) :=
  List.ofFn fun i : Fin n.tree.children.length =>
    n.branch (n.tree.attributes.length + i)
      (by simp only [Tree.branches, List.length_append]; omega)

def branches (n : Node F) : List (Node F) :=
  n.attributes ++ n.children

def childElement? (n : Node F) (localName : String) : Option (Node F) :=
  n.children.find? fun child =>
    child.kind == .element && child.name.any (·.localName == localName)

/-- The place of a node, from one, among the children of its parent that have its kind and name. A
root stands alone. An attribute is none of the children; its number is that of those that are
attributes of its name, and one if there are none. -/
def siblingNumber (n : Node F) : Nat :=
  match n.parent with
  | none => 1
  | some parent =>
    let siblings := parent.children
    let before := (siblings.takeWhile (· != n)).countP fun sibling =>
      sibling.kind == n.kind && sibling.name == n.name
    if siblings.contains n then before + 1 else max before 1

def ancestry (n : Node F) : List (Node F) :=
  go n.path.length n
where
  go : Nat → Node F → List (Node F)
    | 0, n => [n]
    | height + 1, n => n :: (n.parent.map (go height)).getD []

def lineage (n : Node F) : List (Node F) :=
  n.ancestry.reverse

def language? (n : Node F) : Option String :=
  n.ancestry.findSome? fun ancestor =>
    (ancestor.attributes.find? fun attr => attr.name.any fun q =>
      q.localName == "lang" &&
        (q.namespaceUri == some QName.xmlNamespace || q.qualifier == some "xml")).map stringValue

end Node

end FormExpr
