/-!
# Linkages

A linkage is what navigation sees of some nodes: the parent, the attributes and the children of
each. Going up from a node stops at a node without a parent, provided that no chain of parents goes
on forever.
-/

namespace FormExpr

structure Linkage (α : Type) where
  parent : α → Option α
  attributes : α → List α
  children : α → List α

namespace Linkage

variable {α : Type} {L : Linkage α}

def branches (L : Linkage α) (n : α) : List α :=
  L.attributes n ++ L.children n

def ParentsEnd (L : Linkage α) : Prop :=
  WellFounded fun p n => L.parent n = some p

def ParentsEnd.rootOf (h : L.ParentsEnd) (n : α) : α :=
  match _ : L.parent n with
  | none => n
  | some p => h.rootOf p
termination_by WellFounded.wrap h n
decreasing_by assumption

def ParentsEnd.pathToRoot (h : L.ParentsEnd) (n : α) : List α :=
  match _ : L.parent n with
  | none => [n]
  | some p => h.pathToRoot p ++ [n]
termination_by WellFounded.wrap h n
decreasing_by assumption

end Linkage

end FormExpr
