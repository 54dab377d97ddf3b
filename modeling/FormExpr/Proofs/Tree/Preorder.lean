import FormExpr.Proofs.Tree.Lineage
import Mathlib.Data.List.Basic
import Mathlib.Data.Nat.Basic
import Mathlib.Order.RelIso.Basic

/-!
# Document order and the preorder walk

The preorder walk of a tree visits a node, then its attributes, then the subtrees of its children.
It visits every node of the tree once, in lexicographic order of paths. So comparing two nodes
through their lineages compares their positions in the walk, and inside one tree document order is a
strict total order.
-/

namespace FormExpr

namespace Tree

mutual

def preorder : Tree → List (List Nat)
  | node _ attributes children =>
    [] :: (preorderFrom 0 attributes ++ preorderFrom attributes.length children)

-- The paths of the branches with numbers from `i` on.
def preorderFrom (i : Nat) : List Tree → List (List Nat)
  | [] => []
  | t :: rest => t.preorder.map (i :: ·) ++ preorderFrom (i + 1) rest

end

theorem at?_cons (t : Tree) (i : Nat) (path : List Nat) :
    t.at? (i :: path) = t.branches[i]?.bind (·.at? path) := rfl

/-- What holds of a tree once it holds of its branches holds of every tree. -/
theorem branch_induction {motive : Tree → Prop}
    (step : ∀ t : Tree, (∀ b ∈ t.branches, motive b) → motive t) (t : Tree) : motive t :=
  step t fun b _ => branch_induction step b
termination_by t
decreasing_by
  obtain ⟨label, attributes, children⟩ := t
  have hmem : b ∈ attributes ++ children := ‹_›
  rw [Tree.node.sizeOf_spec]
  rcases List.mem_append.1 hmem with hattribute | hchild
  · have hlt := List.sizeOf_lt_of_mem hattribute
    omega
  · have hlt := List.sizeOf_lt_of_mem hchild
    omega

theorem preorderFrom_append (i : Nat) (left right : List Tree) :
    preorderFrom i (left ++ right) = preorderFrom i left ++ preorderFrom (i + left.length) right := by
  induction left generalizing i with
  | nil => simp [preorderFrom]
  | cons t left ih =>
    rw [List.cons_append, preorderFrom, preorderFrom, ih, List.append_assoc, List.length_cons,
      Nat.add_assoc i 1, Nat.add_comm 1]

theorem preorder_eq (t : Tree) : t.preorder = [] :: preorderFrom 0 t.branches := by
  cases t with
  | node label attributes children =>
    rw [preorder, branches, preorderFrom_append, Nat.zero_add]
    rfl

/-! ### The walk visits the paths of the tree -/

theorem mem_preorderFrom {i : Nat} {trees : List Tree} {p : List Nat} :
    p ∈ preorderFrom i trees ↔ ∃ j t q, trees[j]? = some t ∧ q ∈ t.preorder ∧ p = (i + j) :: q := by
  induction trees generalizing i with
  | nil => simp [preorderFrom]
  | cons t rest ih =>
    rw [preorderFrom, List.mem_append, List.mem_map, ih]
    constructor
    · rintro (⟨q, hq, rfl⟩ | ⟨j, u, q, hj, hq, rfl⟩)
      · exact ⟨0, t, q, rfl, hq, rfl⟩
      · exact ⟨j + 1, u, q, hj, hq, by rw [Nat.add_assoc, Nat.add_comm 1 j]⟩
    · rintro ⟨j, u, q, hj, hq, rfl⟩
      cases j with
      | zero =>
        rw [Option.some.inj hj]
        exact Or.inl ⟨q, hq, rfl⟩
      | succ j => exact Or.inr ⟨j, u, q, hj, hq, by rw [Nat.add_assoc, Nat.add_comm 1 j]⟩

/-- The walk meets the paths of the tree. -/
theorem mem_preorder {t : Tree} {p : List Nat} : p ∈ t.preorder ↔ (t.at? p).isSome := by
  induction t using branch_induction generalizing p with
  | step t ih =>
    rw [preorder_eq, List.mem_cons, mem_preorderFrom]
    cases p with
    | nil => simp [at?]
    | cons i q =>
      rw [at?_cons]
      constructor
      · rintro (heq | ⟨j, u, r, hj, hr, heq⟩)
        · exact absurd heq (by simp)
        · rw [Nat.zero_add, List.cons.injEq] at heq
          obtain ⟨rfl, rfl⟩ := heq
          rw [hj, Option.bind_some]
          exact (ih u (List.mem_of_getElem? hj)).1 hr
      · intro hsome
        obtain ⟨u, hu⟩ := Option.isSome_iff_exists.1 (Option.isSome_of_isSome_bind hsome)
        rw [hu, Option.bind_some] at hsome
        exact Or.inr ⟨i, u, q, hu, (ih u (List.mem_of_getElem? hu)).2 hsome, by rw [Nat.zero_add]⟩

/-! ### The walk goes up in the order of paths -/

theorem pairwise_preorderFrom {i : Nat} {trees : List Tree}
    (htrees : ∀ t ∈ trees, t.preorder.Pairwise fun p q => compare p q = .lt) :
    (preorderFrom i trees).Pairwise fun p q => compare p q = .lt := by
  induction trees generalizing i with
  | nil => simp [preorderFrom]
  | cons t rest ih =>
    rw [preorderFrom, List.pairwise_append, List.pairwise_map]
    refine ⟨?_, ih fun u hu => htrees u (List.mem_cons_of_mem t hu), ?_⟩
    · refine (htrees t List.mem_cons_self).imp fun {p q} hpq => ?_
      rw [List.compare_cons_cons, Nat.compare_eq_eq.2 rfl, Ordering.eq_then, hpq]
    · intro p hp q hq
      obtain ⟨p, -, rfl⟩ := List.mem_map.1 hp
      obtain ⟨j, u, q, -, -, rfl⟩ := mem_preorderFrom.1 hq
      have hlt : compare i (i + 1 + j) = .lt := Nat.compare_eq_lt.2 (by omega)
      rw [List.compare_cons_cons, hlt, Ordering.lt_then]

/-- It meets them in the order of paths, the shorter one first. -/
theorem pairwise_preorder (t : Tree) : t.preorder.Pairwise fun p q => compare p q = .lt := by
  induction t using branch_induction with
  | step t ih =>
    rw [preorder_eq, List.pairwise_cons]
    refine ⟨?_, pairwise_preorderFrom ih⟩
    intro p hp
    obtain ⟨j, u, q, -, -, rfl⟩ := mem_preorderFrom.1 hp
    rfl

/-- It meets each once. -/
theorem nodup_preorder (t : Tree) : t.preorder.Nodup := by
  refine (pairwise_preorder t).imp fun {p q} hlt heq => ?_
  have hself : compare q q = .eq := Std.ReflCmp.compare_self
  rw [heq, hself] at hlt
  cases hlt

theorem compare_eq_compare_idxOf {t : Tree} {p q : List Nat} (hp : p ∈ t.preorder)
    (hq : q ∈ t.preorder) : compare p q = compare (t.preorder.idxOf p) (t.preorder.idxOf q) := by
  have hpairwise := List.pairwise_iff_getElem.1 (pairwise_preorder t)
  have hpLt := List.idxOf_lt_length_of_mem hp
  have hqLt := List.idxOf_lt_length_of_mem hq
  rcases Nat.lt_trichotomy (t.preorder.idxOf p) (t.preorder.idxOf q) with hlt | heq | hgt
  · have hpq := hpairwise _ _ hpLt hqLt hlt
    rw [List.getElem_idxOf, List.getElem_idxOf] at hpq
    rw [hpq, Nat.compare_eq_lt.2 hlt]
  · have hpq : p = q := by
      rw [← List.getElem_idxOf hpLt, ← List.getElem_idxOf hqLt]
      simp only [heq]
    rw [heq, hpq, Nat.compare_eq_eq.2 rfl]
    exact Std.ReflCmp.compare_self
  · have hqp := hpairwise _ _ hqLt hpLt hgt
    rw [List.getElem_idxOf, List.getElem_idxOf] at hqp
    rw [Nat.compare_eq_gt.2 hgt, Std.OrientedCmp.gt_iff_lt, hqp]

end Tree

namespace Node

variable {F : Forest} {a b : Node F}

def position (n : Node F) : Nat :=
  n.top.tree.preorder.idxOf n.path

theorem path_mem_preorder (n : Node F) : n.path ∈ n.top.tree.preorder := by
  rw [Tree.mem_preorder]
  have hmem := n.mem
  have htop := n.top.at?_eq_some_tree
  rw [top_root, top_path] at htop
  rwa [← List.nil_append n.path, Forest.at?_append, htop, Option.bind_some] at hmem

theorem getElem?_position (n : Node F) : n.top.tree.preorder[n.position]? = some n.path :=
  List.getElem?_idxOf n.path_mem_preorder

theorem getElem?_preorder_iff {n : Node F} {i : Nat} :
    n.top.tree.preorder[i]? = some n.path ↔ i = n.position := by
  constructor
  · intro hpath
    have hi : i < n.top.tree.preorder.length := (List.getElem?_eq_some_iff.1 hpath).1
    rw [← List.getElem?_inj hi (Tree.nodup_preorder _), hpath, getElem?_position]
  · intro heq
    rw [heq, getElem?_position]

theorem position_inj (htop : a.top = b.top) (hposition : a.position = b.position) : a = b := by
  have hpath := a.getElem?_position
  rw [htop, hposition, getElem?_position] at hpath
  exact ext (top_eq_iff.1 htop) (Option.some.inj hpath).symm

/-- Within one tree paths compare as the places in the walk do. -/
theorem compare_path (htop : a.top = b.top) :
    compare a.path b.path = compare a.position b.position := by
  have hb := b.path_mem_preorder
  rw [← htop] at hb
  rw [Tree.compare_eq_compare_idxOf a.path_mem_preorder hb, position, position, htop]

/-! ### Document order goes by positions -/

/-- Within one tree document order is the order of the walk. -/
theorem order?_of_top_eq (htop : a.top = b.top) :
    a.order? b = .ok (compare a.position b.position) := by
  unfold order?
  split
  · rename_i heq
    rw [heq, Nat.compare_eq_eq.2 rfl]
  · rw [Kinship.order?_of_settles (settles_kinship htop), compare_path htop]

/-- Between trees there is no order. -/
theorem order?_of_top_ne (htop : a.top ≠ b.top) : a.order? b = .error .disjointTrees := by
  have hne : a ≠ b := fun heq => htop (congrArg top heq)
  rw [order?, if_neg hne, kinship_of_top_ne htop]
  rfl

theorem order?_eq_error_iff : a.order? b = .error .disjointTrees ↔ a.top ≠ b.top := by
  constructor
  · intro horder htop
    rw [order?_of_top_eq htop] at horder
    cases horder
  · exact order?_of_top_ne

/-- Only a node itself is level with it. -/
theorem order?_eq_ok_eq_iff : a.order? b = .ok .eq ↔ a = b := by
  constructor
  · intro horder
    by_cases htop : a.top = b.top
    · rw [order?_of_top_eq htop, Except.ok.injEq, Nat.compare_eq_eq] at horder
      exact position_inj htop horder
    · rw [order?_of_top_ne htop] at horder
      cases horder
  · intro heq
    rw [order?, if_pos heq]

/-- A fork always knows the branches that it is asked about. -/
theorem exists_branchOrder?_of_collateral {fork left right : Node F}
    (hkinship : kinship a b = .collateral fork left right) :
    ∃ order, fork.branchOrder? left right = some order ∧ a.order? b = .ok order := by
  by_cases htop : a.top = b.top
  · have hsettles := settles_kinship htop
    rw [hkinship] at hsettles
    exact ⟨_, hsettles, by rw [compare_path htop, order?_of_top_eq htop]⟩
  · rw [kinship_of_top_ne htop] at hkinship
    cases hkinship

def positionEmbedding (t : Node F) :
    (fun a b : {n : Node F // n.top = t} => a.1.order? b.1 = .ok .lt) ↪r
      ((· < ·) : Nat → Nat → Prop) where
  toFun n := n.1.position
  inj' a b hposition := Subtype.ext (position_inj (a.2.trans b.2.symm) hposition)
  map_rel_iff' := by
    intro a b
    rw [order?_of_top_eq (a.2.trans b.2.symm), Except.ok.injEq, Nat.compare_eq_lt]
    rfl

/-- Document order fails exactly between trees; inside a tree it compares the positions in the
preorder walk, is a strict total order, and finds every fork's branches among its branches. -/
theorem order?_compares_positions (F : Forest) :
    (∀ (n : Node F) (i : Nat), n.top.tree.preorder[i]? = some n.path ↔ i = n.position) ∧
    (∀ a b : Node F, a.order? b = .error .disjointTrees ↔ a.top ≠ b.top) ∧
    (∀ a b : Node F, a.top = b.top → a.order? b = .ok (compare a.position b.position)) ∧
    (∀ a b : Node F, a.order? b = .ok .eq ↔ a = b) ∧
    (∀ t : Node F, IsStrictTotalOrder {n : Node F // n.top = t}
      fun a b => a.1.order? b.1 = .ok .lt) ∧
    (∀ a b fork left right : Node F, kinship a b = .collateral fork left right →
      ∃ order, fork.branchOrder? left right = some order ∧ a.order? b = .ok order) := by
  refine ⟨fun n i => getElem?_preorder_iff, fun a b => order?_eq_error_iff,
    fun a b => order?_of_top_eq, fun a b => order?_eq_ok_eq_iff, ?_, ?_⟩
  · intro t
    exact (positionEmbedding t).isStrictTotalOrder
  · intro a b fork left right hkinship
    exact exists_branchOrder?_of_collateral hkinship

/-- An attribute precedes a child of its element, and a node of another tree has no place to either
side. -/
theorem order?_compares_positions_attribute :
    let t : Tree := .node (.element "a" none) [.node (.attr "id" none "r") [] []]
      [.node (.text "t") [] []]
    let F : Forest := ⟨[t, t]⟩
    let ident : Node F := ⟨0, [0], by decide⟩
    let child : Node F := ⟨0, [1], by decide⟩
    let stranger : Node F := ⟨1, [0], by decide⟩
    ident.top = child.top ∧ ident.order? child = .ok .lt ∧
    ident.top ≠ stranger.top ∧ ident.order? stranger = .error .disjointTrees := by
  intro t F ident child stranger
  obtain ⟨-, hdisjoint, hpositions, -⟩ := order?_compares_positions F
  have htop : ident.top = child.top := rfl
  have hstranger : ident.top ≠ stranger.top := by decide
  refine ⟨htop, ?_, hstranger, (hdisjoint ident stranger).2 hstranger⟩
  rw [hpositions ident child htop]
  rfl

end Node

end FormExpr
