import FormExpr.Proofs.Tree.Lineage
import Mathlib.Data.List.FinRange
import Mathlib.Data.List.TakeWhile

/-!
# Numbers of siblings

A child is numbered by how many children of its kind and name stand before it. So the children of
one kind and name bear the numbers from one up to how many there are, in their order, however many
others stand between them. An attribute is no child: it is compared with all children of its parent,
none of which is it.
-/

namespace FormExpr.Node

variable {F : Forest} {n p : Node F}

/-! ### Counting up to a member -/

/-- The members with a property, each with how many of them come before it, are numbered on and on.
-/
theorem map_countP_takeWhile {α : Type} [BEq α] [LawfulBEq α] (keeps : α → Bool) {l : List α}
    (hnodup : l.Nodup) (start : Nat) :
    (l.filter keeps).map (fun a => (l.takeWhile (· != a)).countP keeps + start) =
      List.range' start (l.filter keeps).length := by
  induction l generalizing start with
  | nil => rfl
  | cons first rest ih =>
    obtain ⟨hfirst, hrest⟩ := List.nodup_cons.1 hnodup
    -- The first element is passed on the way to every later one.
    have hpass : ∀ a ∈ rest.filter keeps, (first :: rest).takeWhile (· != a) =
        first :: rest.takeWhile (· != a) := by
      intro a ha
      have hne : first ≠ a := fun heq => hfirst (heq ▸ List.mem_of_mem_filter ha)
      exact List.takeWhile_cons_of_pos (p := (· != a)) (bne_iff_ne.2 hne)
    by_cases hkeeps : keeps first = true
    · have hstop : (first :: rest).takeWhile (· != first) = [] :=
        List.takeWhile_cons_of_neg (by simp)
      rw [List.filter_cons_of_pos hkeeps, List.map_cons, hstop, List.length_cons, List.range'_succ,
        ← ih hrest (start + 1), List.countP_nil, Nat.zero_add]
      congr 1
      refine List.map_congr_left fun a ha => ?_
      rw [hpass a ha, List.countP_cons_of_pos hkeeps]
      omega
    · rw [List.filter_cons_of_neg hkeeps, ← ih hrest start]
      refine List.map_congr_left fun a ha => ?_
      rw [hpass a ha, List.countP_cons_of_neg hkeeps]

/-! ### Branches and their parent -/

theorem exists_branch_of_parent_eq_some (hparent : n.parent = some p) :
    ∃ i, ∃ hi : i < p.tree.branches.length, n = p.branch i hi := by
  rw [parent] at hparent
  split at hparent
  · cases hparent
  · rename_i hne
    rw [Option.some.injEq] at hparent
    have hroot : n.root = p.root := by rw [← hparent]
    have hpath : n.path = p.path ++ [n.path.getLast hne] := by
      rw [← hparent, List.dropLast_concat_getLast]
    have hmem := n.mem
    rw [hroot, hpath] at hmem
    exact ⟨_, lt_length_branches hmem, ext hroot hpath⟩

/-- The branches of a node are the nodes with this parent. -/
theorem mem_branches_iff : n ∈ p.branches ↔ n.parent = some p := by
  rw [branches_eq_ofFn, List.mem_ofFn]
  constructor
  · rintro ⟨i, rfl⟩
    exact parent_branch i.isLt
  · intro hparent
    obtain ⟨i, hi, rfl⟩ := exists_branch_of_parent_eq_some hparent
    exact ⟨⟨i, hi⟩, rfl⟩

theorem nodup_branches (p : Node F) : p.branches.Nodup := by
  rw [branches_eq_ofFn]
  exact List.nodup_ofFn.2 fun i j heq => Fin.ext (branch_inj.1 heq)

theorem parent_of_mem_children (hn : n ∈ p.children) : n.parent = some p :=
  mem_branches_iff.1 (List.mem_append_right p.attributes hn)

theorem parent_of_mem_attributes (hn : n ∈ p.attributes) : n.parent = some p :=
  mem_branches_iff.1 (List.mem_append_left p.children hn)

theorem nodup_children (p : Node F) : p.children.Nodup :=
  (List.nodup_append.1 (nodup_branches p)).2.1

theorem notMem_children_of_mem_attributes (hn : n ∈ p.attributes) : n ∉ p.children :=
  fun hchild => (List.nodup_append.1 (nodup_branches p)).2.2 n hn n hchild rfl

/-! ### Numbers -/

def isAlike (n sibling : Node F) : Bool :=
  sibling.kind == n.kind && sibling.name == n.name

def childrenNamed (p : Node F) (kind : NodeKind) (name : Option QName) : List (Node F) :=
  p.children.filter fun n => n.kind == kind && n.name == name

theorem siblingNumber_of_parent_eq_none (hn : n.parent = none) : n.siblingNumber = 1 := by
  rw [siblingNumber, hn]

/-- A child is numbered by those alike that stand before it. -/
theorem siblingNumber_of_mem_children (hn : n ∈ p.children) :
    n.siblingNumber = (p.children.takeWhile (· != n)).countP n.isAlike + 1 := by
  rw [siblingNumber, parent_of_mem_children hn]
  dsimp only
  rw [if_pos (List.contains_iff_mem.2 hn)]
  rfl

/-- An attribute is numbered by the children that are alike. -/
theorem siblingNumber_of_mem_attributes (hn : n ∈ p.attributes) :
    n.siblingNumber = max (p.children.countP n.isAlike) 1 := by
  have hchild := notMem_children_of_mem_attributes hn
  have hpass : p.children.takeWhile (· != n) = p.children := by
    refine List.takeWhile_eq_self_iff.2 fun sibling hsibling => bne_iff_ne.2 ?_
    rintro rfl
    exact hchild hsibling
  rw [siblingNumber, parent_of_mem_attributes hn]
  dsimp only
  rw [if_neg (mt List.contains_iff_mem.1 hchild), hpass]
  rfl

/-- Where no child is of its kind, an attribute stands alone. -/
theorem siblingNumber_attribute (hn : n ∈ p.attributes)
    (hapart : ∀ child ∈ p.children, child.kind ≠ n.kind) : n.siblingNumber = 1 := by
  have hnone : p.children.countP n.isAlike = 0 := by
    refine List.countP_eq_zero.2 fun child hchild halike => hapart child hchild ?_
    rw [isAlike, Bool.and_eq_true, beq_iff_eq] at halike
    exact halike.1
  rw [siblingNumber_of_mem_attributes hn, hnone]
  rfl

/-- The children of one kind and name are numbered in their order, from one and without a gap. -/
theorem map_siblingNumber (p : Node F) (kind : NodeKind) (name : Option QName) :
    (p.childrenNamed kind name).map siblingNumber =
      List.range' 1 (p.childrenNamed kind name).length := by
  rw [childrenNamed, ← map_countP_takeWhile _ (nodup_children p) 1]
  refine List.map_congr_left fun n hn => ?_
  obtain ⟨hchild, hnamed⟩ := List.mem_filter.1 hn
  rw [Bool.and_eq_true, beq_iff_eq, beq_iff_eq] at hnamed
  have halike : n.isAlike = fun m => m.kind == kind && m.name == name := by
    funext m
    rw [isAlike, hnamed.1, hnamed.2]
  rw [siblingNumber_of_mem_children hchild, halike]

end FormExpr.Node
