import FormExpr.Tree.Order

/-!
# Lineages and paths

A node is a place, given by the path of branch numbers that leads to it, while document order is
found by following lineages to where they part. Below a common node the two agree: the first
difference of the lineages is the first difference of the paths, and the branches of the fork stand
in the order of their numbers. So document order is the lexicographic order of paths.
-/

namespace FormExpr

namespace Node

variable {F : Forest} {m n : Node F}

theorem ext {a b : Node F} (hroot : a.root = b.root) (hpath : a.path = b.path) : a = b := by
  cases a
  cases b
  cases hroot
  cases hpath
  rfl

theorem top_root (n : Node F) : n.top.root = n.root := rfl

theorem top_path (n : Node F) : n.top.path = [] := rfl

theorem top_eq_iff : m.top = n.top ↔ m.root = n.root := by
  constructor
  · intro htop
    rw [← top_root m, htop, top_root]
  · intro hroot
    exact ext hroot rfl

/-! ### Branches -/

@[simp]
theorem branch_root {i : Nat} (hi : i < n.tree.branches.length) : (n.branch i hi).root = n.root :=
  rfl

@[simp]
theorem branch_path {i : Nat} (hi : i < n.tree.branches.length) :
    (n.branch i hi).path = n.path ++ [i] :=
  rfl

theorem branch_inj {i j : Nat} {hi : i < n.tree.branches.length}
    {hj : j < n.tree.branches.length} : n.branch i hi = n.branch j hj ↔ i = j := by
  constructor
  · intro heq
    have hpath := congrArg path heq
    simpa using hpath
  · intro heq
    subst heq
    rfl

theorem lt_length_branches {i : Nat} {rest : List Nat}
    (hmem : (F.at? n.root (n.path ++ i :: rest)).isSome) : i < n.tree.branches.length := by
  rw [Forest.at?_append, at?_eq_some_tree, Option.bind_some, Tree.at?] at hmem
  refine Nat.lt_of_not_le fun hle => ?_
  rw [List.getElem?_eq_none hle] at hmem
  exact absurd hmem (by simp)

theorem branches_eq_ofFn (n : Node F) :
    n.branches = List.ofFn fun i : Fin n.tree.branches.length => n.branch i i.isLt := by
  apply List.ext_getElem
  · simp [branches, attributes, children, Tree.branches]
  · intro i hleft hright
    by_cases hattribute : i < n.tree.attributes.length
    · simp [branches, attributes, hattribute]
    · have hshift : n.tree.attributes.length + (i - n.tree.attributes.length) = i := by omega
      simp [branches, attributes, children, List.getElem_append, hattribute, hshift]

theorem idxOf?_branches {i : Nat} (hi : i < n.tree.branches.length) :
    n.branches.idxOf? (n.branch i hi) = some i := by
  rw [branches_eq_ofFn, List.idxOf?_eq_some_iff]
  refine ⟨by simpa using hi, by simp, ?_⟩
  intro j hj heq
  rw [List.getElem_ofFn, branch_inj] at heq
  exact absurd heq (Nat.ne_of_lt hj)

/-- Branches are ordered by their numbers. -/
theorem branchOrder?_branch {i j : Nat} (hi : i < n.tree.branches.length)
    (hj : j < n.tree.branches.length) :
    n.branchOrder? (n.branch i hi) (n.branch j hj) = some (compare i j) := by
  simp [branchOrder?, idxOf?_branches]

/-! ### Lineages -/

/-- The parent of a branch is the node itself. -/
theorem parent_branch {i : Nat} (hi : i < n.tree.branches.length) :
    (n.branch i hi).parent = some n := by
  have hne : (n.branch i hi).path ≠ [] := by simp
  rw [parent, dif_neg hne]
  exact congrArg some (ext rfl (by simp))

theorem lineage_top (n : Node F) : n.top.lineage = [n.top] := rfl

/-- A branch adds itself to the lineage. -/
theorem lineage_branch {i : Nat} (hi : i < n.tree.branches.length) :
    (n.branch i hi).lineage = n.lineage ++ [n.branch i hi] := by
  have hancestry : (n.branch i hi).ancestry = n.branch i hi :: n.ancestry := by
    unfold ancestry
    rw [branch_path, List.length_append, List.length_singleton, ancestry.go, parent_branch]
    rfl
  rw [lineage, hancestry, List.reverse_cons, lineage]

def descent (n : Node F) : List Nat → List (Node F)
  | [] => []
  | i :: rest =>
    if hi : i < n.tree.branches.length then n.branch i hi :: (n.branch i hi).descent rest else []

theorem descent_cons {i : Nat} {rest : List Nat} (hi : i < n.tree.branches.length) :
    n.descent (i :: rest) = n.branch i hi :: (n.branch i hi).descent rest :=
  dif_pos hi

theorem length_descent {rest : List Nat} (hmem : (F.at? n.root (n.path ++ rest)).isSome) :
    (n.descent rest).length = rest.length := by
  induction rest generalizing n with
  | nil => rfl
  | cons i rest ih =>
    have hi := lt_length_branches hmem
    rw [descent_cons hi, List.length_cons, List.length_cons, ih]
    simpa using hmem

/-- The lineage of a node below another goes through that one. -/
theorem lineage_eq_append_descent {rest : List Nat} (hroot : n.root = m.root)
    (hpath : n.path = m.path ++ rest) : n.lineage = m.lineage ++ m.descent rest := by
  induction rest generalizing m with
  | nil =>
    have heq : n = m := ext hroot (by simpa using hpath)
    rw [heq, descent, List.append_nil]
  | cons i rest ih =>
    have hmem := n.mem
    rw [hroot, hpath] at hmem
    have hi := lt_length_branches hmem
    rw [ih (m := m.branch i hi) hroot (by simpa using hpath), lineage_branch, descent_cons hi,
      List.append_assoc, List.singleton_append]

theorem lineage_eq_cons (n : Node F) : n.lineage = n.top :: n.top.descent n.path := by
  have htop : n.lineage = n.top.lineage ++ n.top.descent n.path :=
    lineage_eq_append_descent rfl (by rw [top_path, List.nil_append])
  rw [htop, lineage_top, List.singleton_append]

end Node

/-! ### Kinship -/

namespace Kinship

variable {F : Forest}

/-- The kinship settles the order without the fallback for branches that are not found. -/
def Settles : Kinship F → Ordering → Prop
  | lineal depths, order => depths = order
  | collateral fork left right, order => fork.branchOrder? left right = some order
  | unrelated, _ => False

theorem order?_of_settles {k : Kinship F} {order : Ordering} (hsettles : k.Settles order) :
    k.order? = .ok order := by
  cases k with
  | lineal depths =>
    have hdepths : depths = order := hsettles
    rw [Kinship.order?, hdepths]
  | collateral fork left right =>
    have hbranches : fork.branchOrder? left right = some order := hsettles
    rw [Kinship.order?, hbranches, Option.getD_some]
  | unrelated => exact hsettles.elim

end Kinship

namespace Node

variable {F : Forest} {m : Node F}

/-- Below a common node lineages part as the paths do. -/
theorem settles_compareLineages_descent {p q : List Nat}
    (hp : (F.at? m.root (m.path ++ p)).isSome) (hq : (F.at? m.root (m.path ++ q)).isSome) :
    (compareLineages (some m) (m.descent p) (m.descent q)).Settles (compare p q) := by
  -- The common node moves down with the paths; where they part, it is the fork.
  induction p generalizing m q with
  | nil =>
    cases q with
    | nil => rfl
    | cons j q =>
      have hlength := length_descent hq
      rw [descent_cons (lt_length_branches hq)] at hlength ⊢
      exact Nat.compare_eq_lt.2 (Nat.succ_pos _)
  | cons i p ih =>
    have hi := lt_length_branches hp
    cases q with
    | nil =>
      rw [descent_cons hi]
      exact Nat.compare_eq_gt.2 (Nat.succ_pos _)
    | cons j q =>
      have hj := lt_length_branches hq
      rw [descent_cons hi, descent_cons hj, compareLineages, List.compare_cons_cons]
      by_cases hij : i = j
      · subst hij
        rw [if_pos rfl, Nat.compare_eq_eq.2 rfl, Ordering.eq_then]
        exact ih (by simpa using hp) (by simpa using hq)
      · rw [if_neg (mt branch_inj.1 hij)]
        have hne : compare i j ≠ .eq := mt Nat.compare_eq_eq.1 hij
        have hthen : (compare i j).then (compare p q) = compare i j := by
          cases hcompare : compare i j with
          | eq => exact absurd hcompare hne
          | lt => rfl
          | gt => rfl
        rw [hthen]
        exact branchOrder?_branch hi hj

/-- In one tree the kinship settles the order by paths. -/
theorem settles_kinship {a b : Node F} (htop : a.top = b.top) :
    (kinship a b).Settles (compare a.path b.path) := by
  have ha := a.mem
  have hb := b.mem
  rw [← top_eq_iff.1 htop] at hb
  rw [kinship, lineage_eq_cons, lineage_eq_cons, ← htop, compareLineages, if_pos rfl]
  exact settles_compareLineages_descent ha hb

theorem kinship_of_top_ne {a b : Node F} (htop : a.top ≠ b.top) : kinship a b = .unrelated := by
  rw [kinship, lineage_eq_cons, lineage_eq_cons, compareLineages, if_neg htop]

end Node

end FormExpr
