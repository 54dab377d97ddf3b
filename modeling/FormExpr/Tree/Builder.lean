import FormExpr.Tree.Basic
import FormExpr.Tree.Linkage

/-!
# Building forests

A node is built when its branches are: it knows them from the start, while they learn of their
parent only then. The parent of a node is written once, so the first node built with a branch keeps
it. Nodes are told apart by their numbers, in the order of building, and never by what they hold.

A node in use keeps its branches in use but not its parent, and a parent out of use is not found.
-/

namespace FormExpr

structure NodeRecord where
  label : Label
  attributes : List Nat
  children : List Nat
  parent : Option Nat
deriving DecidableEq, Repr

namespace NodeRecord

def branches (r : NodeRecord) : List Nat :=
  r.attributes ++ r.children

def adopt (parent : Nat) (r : NodeRecord) : NodeRecord :=
  { r with parent := r.parent.or (some parent) }

end NodeRecord

structure NodeStore where
  records : List NodeRecord

/-- A node in the making: its branches are built already and wait for it. -/
structure Builder where
  label : Label
  attributes : List Nat
  children : List Nat

namespace Builder

def start (label : Label) : Builder := ⟨label, [], []⟩

def branches (b : Builder) : List Nat :=
  b.attributes ++ b.children

def record (b : Builder) : NodeRecord :=
  ⟨b.label, b.attributes, b.children, none⟩

def build (b : Builder) : StateM NodeStore Nat := do
  let number := (← get).records.length
  modify fun s =>
    ⟨b.branches.foldl (fun records n => records.modify n (.adopt number)) (s.records ++ [b.record])⟩
  return number

def IsReady (b : Builder) (s : NodeStore) : Prop :=
  ∀ n ∈ b.branches, n < s.records.length

instance (b : Builder) (s : NodeStore) : Decidable (b.IsReady s) :=
  inferInstanceAs (Decidable (∀ n ∈ b.branches, n < s.records.length))

end Builder

inductive Piece where
  | node (number : Nat)
  | builder (b : Builder)

namespace Piece

def finish : Piece → StateM NodeStore Nat
  | node number => return number
  | builder b => b.build

def IsReady (s : NodeStore) : Piece → Prop
  | node number => number < s.records.length
  | builder b => b.IsReady s

instance (s : NodeStore) : DecidablePred (IsReady s)
  | node number => inferInstanceAs (Decidable (number < s.records.length))
  | builder b => inferInstanceAs (Decidable (b.IsReady s))

end Piece

namespace Builder

def addAttribute (b : Builder) (number : Nat) : Builder :=
  { b with attributes := b.attributes ++ [number] }

def addChild (b : Builder) (piece : Piece) : StateM NodeStore Builder := do
  return { b with children := b.children ++ [← piece.finish] }

def addChildren (b : Builder) (pieces : List Piece) : StateM NodeStore Builder := do
  return { b with children := b.children ++ (← pieces.mapM Piece.finish) }

def addText (b : Builder) (value : String) : StateM NodeStore Builder := do
  b.addChild (.node (← (start (.text value)).build))

end Builder

namespace NodeStore

/-- The stores that calls of builders lead to, in any order and nested in any way. Between two calls
a builder is nothing but a record of nodes built by then, so that a call may be made on any such
record. -/
inductive IsBuilt : NodeStore → Prop
  | empty : IsBuilt ⟨[]⟩
  | build {s : NodeStore} (hs : IsBuilt s) (b : Builder) (hb : b.IsReady s) :
      IsBuilt (b.build.run s).2
  | addChild {s : NodeStore} (hs : IsBuilt s) (b : Builder) (hb : b.IsReady s) (piece : Piece)
      (hpiece : piece.IsReady s) : IsBuilt ((b.addChild piece).run s).2
  | addChildren {s : NodeStore} (hs : IsBuilt s) (b : Builder) (hb : b.IsReady s)
      (pieces : List Piece) (hpieces : ∀ piece ∈ pieces, piece.IsReady s) :
      IsBuilt ((b.addChildren pieces).run s).2
  | addText {s : NodeStore} (hs : IsBuilt s) (b : Builder) (hb : b.IsReady s) (value : String) :
      IsBuilt ((b.addText value).run s).2

def AttachedOnce (s : NodeStore) : Prop :=
  (s.records.flatMap NodeRecord.branches).Nodup

instance (s : NodeStore) : Decidable s.AttachedOnce :=
  inferInstanceAs (Decidable (s.records.flatMap NodeRecord.branches).Nodup)

end NodeStore

structure Grove where
  store : NodeStore
  isBuilt : store.IsBuilt
  inUse : Nat → Bool
  lt_length : ∀ n, inUse n = true → n < store.records.length
  inUse_branches : ∀ (p : Nat) (hp : p < store.records.length), inUse p = true →
    ∀ n ∈ store.records[p].branches, inUse n = true

namespace Grove

variable {G : Grove}

abbrev Member (G : Grove) : Type :=
  {n : Nat // G.inUse n = true}

namespace Member

def record (m : G.Member) : NodeRecord :=
  have _ := G.lt_length m.1 m.2
  G.store.records[m.1]

def label (m : G.Member) : Label :=
  m.record.label

def parent (m : G.Member) : Option G.Member :=
  m.record.parent.bind fun p => if h : G.inUse p = true then some ⟨p, h⟩ else none

theorem inUse_of_mem_branches (m : G.Member) : ∀ n ∈ m.record.branches, G.inUse n = true :=
  G.inUse_branches m.1 (G.lt_length m.1 m.2) m.2

def attributes (m : G.Member) : List G.Member :=
  m.record.attributes.attachWith (G.inUse · = true) fun n hn =>
    m.inUse_of_mem_branches n (List.mem_append_left _ hn)

def children (m : G.Member) : List G.Member :=
  m.record.children.attachWith (G.inUse · = true) fun n hn =>
    m.inUse_of_mem_branches n (List.mem_append_right _ hn)

end Member

def linkage (G : Grove) : Linkage G.Member where
  parent := Member.parent
  attributes := Member.attributes
  children := Member.children

end Grove

end FormExpr
