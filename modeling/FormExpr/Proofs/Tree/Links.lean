import FormExpr.Proofs.Tree.Linkage
import FormExpr.Proofs.Tree.StringValue

/-!
# Parents and branches of a forest's nodes

The parent of a node drops the last branch number of its path and a branch adds one, so that the two
undo each other. The ways up get shorter and the subtrees smaller, hence both end. The way up from a
node ends at the top of its tree and passes its ancestry.
-/

namespace FormExpr

theorem Tree.preorderFrom_eq_flatten (i : Nat) (trees : List Tree) :
    preorderFrom i trees = (List.ofFn fun k : Fin trees.length =>
      trees[k].preorder.map ((i + k) :: ·)).flatten := by
  induction trees generalizing i with
  | nil => rfl
  | cons t trees ih =>
    rw [preorderFrom, ih, List.ofFn_succ, List.flatten_cons]
    simp [Nat.add_assoc, Nat.add_comm 1]

namespace Node

variable {F : Forest} {n p : Node F}

def linkage (F : Forest) : Linkage (Node F) where
  parent := parent
  attributes := attributes
  children := children

theorem matches_linkage (F : Forest) : (linkage F).Matches :=
  Linkage.matches_iff.2 ⟨fun _ _ => mem_branches_iff, nodup_branches⟩

/-! ### Ways up and down -/

theorem parentsEnd (F : Forest) : (linkage F).ParentsEnd := by
  refine Subrelation.wf ?_ (measure fun n : Node F => n.path.length).wf
  intro p n hparent
  obtain ⟨i, hi, rfl⟩ := exists_branch_of_parent_eq_some hparent
  change p.path.length < (p.path ++ [i]).length
  rw [List.length_append, List.length_singleton]
  exact Nat.lt_succ_self _

theorem tree_mem_branches (hn : n ∈ p.branches) : n.tree ∈ p.tree.branches := by
  obtain ⟨i, hi, rfl⟩ := exists_branch_of_parent_eq_some (mem_branches_iff.1 hn)
  rw [branch_tree]
  exact List.getElem_mem hi

theorem branchesEnd (F : Forest) : (linkage F).BranchesEnd := by
  refine ⟨fun p => ?_⟩
  induction htree : p.tree using Tree.branch_induction generalizing p with
  | step t ih =>
    subst htree
    exact ⟨p, fun n hn => ih n.tree (tree_mem_branches hn) n rfl⟩

/-- The links of a forest are inverse. -/
theorem inverse_linkage (F : Forest) : (linkage F).Inverse :=
  (matches_linkage F).inverse (parentsEnd F) (branchesEnd F)

/-- Only roots have no parent. -/
theorem parent_eq_none_iff : n.parent = none ↔ n.path = [] := by
  rw [parent]
  split <;> simp_all

theorem eq_top_of_parent_eq_none (hparent : n.parent = none) : n = n.top :=
  ext rfl (parent_eq_none_iff.1 hparent)

/-- The way up ends at the top of the tree. -/
theorem rootOf_eq_top (n : Node F) : (parentsEnd F).rootOf n = n.top := by
  induction n using WellFounded.induction (parentsEnd F) with
  | _ n ih =>
    cases hparent : n.parent with
    | none =>
      rw [(parentsEnd F).rootOf_of_parent_eq_none hparent, ← eq_top_of_parent_eq_none hparent]
    | some p =>
      rw [(parentsEnd F).rootOf_of_parent_eq_some hparent, ih p hparent]
      obtain ⟨i, hi, rfl⟩ := exists_branch_of_parent_eq_some hparent
      rfl

/-- The way up, read downwards, is the lineage. -/
theorem pathToRoot_eq_lineage (n : Node F) : (parentsEnd F).pathToRoot n = n.lineage := by
  induction n using WellFounded.induction (parentsEnd F) with
  | _ n ih =>
    cases hparent : n.parent with
    | none =>
      rw [(parentsEnd F).pathToRoot_of_parent_eq_none hparent, eq_top_of_parent_eq_none hparent,
        lineage_top]
    | some p =>
      rw [(parentsEnd F).pathToRoot_of_parent_eq_some hparent, ih p hparent]
      obtain ⟨i, hi, rfl⟩ := exists_branch_of_parent_eq_some hparent
      rw [lineage_branch]

/-- The walk passes the subtree in the order of its paths. -/
theorem map_path_walk (n : Node F) :
    ((branchesEnd F).walk n).map path = n.tree.preorder.map (n.path ++ ·) := by
  induction n using WellFounded.induction (branchesEnd F) with
  | _ n ih =>
    have hsub : (n.branches.flatMap (branchesEnd F).walk).map path =
        n.branches.flatMap fun b => b.tree.preorder.map (b.path ++ ·) := by
      rw [List.map_flatMap]
      exact List.flatMap_congr ih
    rw [(branchesEnd F).walk_eq]
    change n.path :: (n.branches.flatMap (branchesEnd F).walk).map path = _
    rw [hsub, Tree.preorder_eq, List.map_cons, List.append_nil, Tree.preorderFrom_eq_flatten,
      List.map_flatten, List.map_ofFn, branches_eq_ofFn, List.flatMap_def, List.map_ofFn]
    congr 3
    funext i
    simp [branch_tree]

end Node

end FormExpr
