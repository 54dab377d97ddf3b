import FormExpr.Error
import FormExpr.Tree.Node

/-!
# Document order

Inside a tree a node comes before everything below it, its attributes before its children, and
siblings in their order. Two nodes are compared through their lineages: either one lineage continues
the other, or they part at a node whose branches decide. Nodes of different trees have no order. A
list of nodes from several trees is ordered tree by tree, the trees as they first appear in it.
-/

namespace FormExpr

inductive Kinship (F : Forest) where
  /-- One lineage continues the other; the order of their lengths. -/
  | lineal (depths : Ordering)
  /-- The lineages part at a node, into the two given branches of it. -/
  | collateral (fork left right : Node F)
  | unrelated

namespace Node

variable {F : Forest}

def branchOrder? (fork left right : Node F) : Option Ordering := do
  return compare (← fork.branches.idxOf? left) (← fork.branches.idxOf? right)

/-- Follows two lineages as long as they agree; `last` is the last node on which they did. -/
def compareLineages (last : Option (Node F)) : List (Node F) → List (Node F) → Kinship F
  | a :: as, b :: bs =>
    if a = b then compareLineages (some a) as bs
    else match last with
      | some fork => .collateral fork a b
      | none => .unrelated
  | as, bs => .lineal (compare as.length bs.length)

def kinship (a b : Node F) : Kinship F :=
  compareLineages none a.lineage b.lineage

end Node

/-- An ancestor comes first, relatives follow their branches, and strangers have no order. Branches
that the fork does not know would count as equal. -/
def Kinship.order? {F : Forest} : Kinship F → Except Error Ordering
  | lineal depths => .ok depths
  | collateral fork left right => .ok ((fork.branchOrder? left right).getD .eq)
  | unrelated => .error .disjointTrees

namespace Node

variable {F : Forest}

def order? (a b : Node F) : Except Error Ordering :=
  if a = b then .ok .eq else (kinship a b).order?

def lenientOrder (a b : Node F) : Ordering :=
  match a.order? b with
  | .ok order => order
  | .error _ => .eq

/-- The number of the node's tree, the trees counted as they first appear in `nodes`. -/
def rank (nodes : List (Node F)) (n : Node F) : Nat :=
  (nodes.map root).eraseDups.idxOf n.root

def orderWithin (nodes : List (Node F)) (a b : Node F) : Ordering :=
  match a.order? b with
  | .ok order => order
  | .error _ => compare (rank nodes a) (rank nodes b)

def sort (nodes : List (Node F)) : List (Node F) :=
  nodes.mergeSort fun a b => orderWithin nodes a b != .gt

def least (order : Node F → Node F → Ordering) : List (Node F) → Option (Node F)
  | [] => none
  | n :: rest =>
    some <| rest.foldl
      (fun best candidate => if order candidate best == .lt then candidate else best) n

def first? (nodes : List (Node F)) : Option (Node F) :=
  least (orderWithin nodes) nodes

theorem least_mem {order : Node F → Node F → Ordering} {nodes : List (Node F)} {n : Node F}
    (hleast : least order nodes = some n) : n ∈ nodes := by
  cases nodes with
  | nil => cases hleast
  | cons first rest =>
    rw [least, Option.some.injEq] at hleast
    rw [← hleast]
    clear hleast
    induction rest generalizing first with
    | nil => exact List.mem_cons_self
    | cons candidate rest ih =>
      rw [List.foldl_cons]
      split
      · exact List.mem_cons_of_mem first (ih candidate)
      · rcases List.mem_cons.1 (ih first) with heq | hmem
        · rw [heq]
          exact List.mem_cons_self
        · exact List.mem_cons_of_mem first (List.mem_cons_of_mem candidate hmem)

theorem first?_mem {nodes : List (Node F)} {n : Node F} (hfirst : first? nodes = some n) :
    n ∈ nodes :=
  least_mem hfirst

def union (a b : List (Node F)) : List (Node F) :=
  sort (b.foldl (fun nodes n => if nodes.contains n then nodes else nodes ++ [n]) a)

end Node

end FormExpr
