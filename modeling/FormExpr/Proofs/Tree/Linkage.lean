import FormExpr.Tree.Linkage
import Mathlib.Algebra.BigOperators.Group.List.Basic
import Mathlib.Algebra.GroupWithZero.Nat
import Mathlib.Data.List.Chain
import Mathlib.Data.List.Nodup
import Mathlib.Order.WellFounded

/-!
# Linkages whose parents and branches answer to each other

One equation says that parents and branches are inverse: a node occurs once among the branches of
its parent, and in no other node's. Where the ways up and down end, everything else follows from it
by counting: a node is met in the walk of another as often as that one lies on its way up. So the
walk of a root meets the nodes of its own tree once and no others.
-/

namespace FormExpr.Linkage

variable {α : Type} {L : Linkage α} {n p : α}

/-! ### The way up -/

namespace ParentsEnd

variable (h : L.ParentsEnd)

theorem rootOf_of_parent_eq_none (hn : L.parent n = none) : h.rootOf n = n := by
  rw [rootOf]
  split
  · rfl
  · simp_all

theorem rootOf_of_parent_eq_some (hn : L.parent n = some p) : h.rootOf n = h.rootOf p := by
  rw [rootOf]
  split <;> simp_all

theorem pathToRoot_of_parent_eq_none (hn : L.parent n = none) : h.pathToRoot n = [n] := by
  rw [pathToRoot]
  split <;> simp_all

theorem pathToRoot_of_parent_eq_some (hn : L.parent n = some p) :
    h.pathToRoot n = h.pathToRoot p ++ [n] := by
  rw [pathToRoot]
  split <;> simp_all

theorem parent_rootOf (n : α) : L.parent (h.rootOf n) = none := by
  induction n using WellFounded.induction h with
  | _ n ih =>
    cases hn : L.parent n with
    | none => rw [h.rootOf_of_parent_eq_none hn, hn]
    | some p => rw [h.rootOf_of_parent_eq_some hn, ih p hn]

end ParentsEnd

structure IsPath (L : Linkage α) (root n : α) (path : List α) : Prop where
  head_eq : path.head? = some root
  last_eq : path.getLast? = some n
  chain : path.IsChain fun p m => L.parent m = some p

theorem IsPath.concat {root : α} {path : List α} (h : L.IsPath root p path)
    (hn : L.parent n = some p) : L.IsPath root n (path ++ [n]) := by
  refine ⟨?_, List.getLast?_concat, ?_⟩
  · rw [List.head?_append, h.head_eq]
    rfl
  · refine List.isChain_append.2 ⟨h.chain, List.isChain_singleton n, ?_⟩
    intro last hlast first hfirst
    rw [h.last_eq] at hlast
    rw [List.head?_cons] at hfirst
    obtain rfl := Option.some.inj hlast
    obtain rfl := Option.some.inj hfirst
    exact hn

theorem ParentsEnd.isPath_pathToRoot (h : L.ParentsEnd) (n : α) :
    L.IsPath (h.rootOf n) n (h.pathToRoot n) := by
  induction n using WellFounded.induction h with
  | _ n ih =>
    cases hn : L.parent n with
    | none =>
      rw [h.rootOf_of_parent_eq_none hn, h.pathToRoot_of_parent_eq_none hn]
      exact ⟨rfl, rfl, List.isChain_singleton n⟩
    | some p =>
      rw [h.rootOf_of_parent_eq_some hn, h.pathToRoot_of_parent_eq_some hn]
      exact (ih p hn).concat hn

/-! ### The way down -/

def BranchesEnd (L : Linkage α) : Prop :=
  WellFounded fun n p => n ∈ L.branches p

def BranchesEnd.walk (h : L.BranchesEnd) (n : α) : List α :=
  n :: (L.branches n).attach.flatMap fun b => h.walk b.1
termination_by WellFounded.wrap h n
decreasing_by exact b.2

/-- A walk goes through a node, then through its branches in turn. -/
theorem BranchesEnd.walk_eq (h : L.BranchesEnd) (n : α) :
    h.walk n = n :: (L.branches n).flatMap h.walk := by
  rw [walk, List.flatMap_def, List.attach_map_val, List.flatMap_def]

/-! ### Counting -/

section

variable [DecidableEq α]

def Matches (L : Linkage α) : Prop :=
  ∀ n p, (L.branches p).count n = if L.parent n = some p then 1 else 0

/-- The equation of counts says that parents and branches are inverse. -/
theorem matches_iff : L.Matches ↔
    (∀ n p, n ∈ L.branches p ↔ L.parent n = some p) ∧ ∀ p, (L.branches p).Nodup := by
  constructor
  · intro h
    refine ⟨fun n p => ?_, fun p => List.nodup_iff_count_le_one.2 fun n => ?_⟩
    · rw [← List.count_pos_iff, h]
      split <;> simp_all
    · rw [h]
      split <;> omega
  · rintro ⟨hmem, hnodup⟩ n p
    rw [(hnodup p).count]
    exact if_congr (hmem n p) rfl rfl

theorem sum_map_count_concat (l path : List α) (n : α) :
    (l.map fun b => (path ++ [n]).count b).sum =
      (l.map fun b => path.count b).sum + l.count n := by
  induction l with
  | nil => rfl
  | cons b l ih =>
    rw [List.map_cons, List.sum_cons, ih, List.map_cons, List.sum_cons, List.count_append,
      List.count_singleton, List.count_cons, BEq.comm]
    omega

variable (hup : L.ParentsEnd)

/-- A way up passes a node if it starts there or passes one of its branches. -/
theorem Matches.count_pathToRoot (h : L.Matches) (n p : α) :
    (hup.pathToRoot n).count p =
      [n].count p + ((L.branches p).map fun b => (hup.pathToRoot n).count b).sum := by
  -- Along the way up; what a further node adds to the right side is that its parent has it once.
  induction n using WellFounded.induction hup with
  | _ n ih =>
    cases hn : L.parent n with
    | none =>
      rw [hup.pathToRoot_of_parent_eq_none hn, ← List.nil_append [n], sum_map_count_concat, h, hn]
      simp
    | some q =>
      rw [hup.pathToRoot_of_parent_eq_some hn, sum_map_count_concat, List.count_append, ih q hn, h,
        hn]
      simp only [List.count_singleton, beq_iff_eq, Option.some.injEq]
      omega

/-- A node is met in a walk as often as the start of the walk lies on its way up. -/
theorem Matches.count_walk (h : L.Matches) (hdown : L.BranchesEnd) (n p : α) :
    (hdown.walk p).count n = (hup.pathToRoot n).count p := by
  induction p using WellFounded.induction hdown with
  | _ p ih =>
    rw [hdown.walk_eq, h.count_pathToRoot hup, List.count_cons, List.count_flatMap,
      List.count_singleton, BEq.comm, Nat.add_comm]
    congr 2
    exact List.map_congr_left fun b hb => ih b hb

/-- Of the nodes without a parent a way up passes the root alone. -/
theorem count_pathToRoot_of_parent_eq_none {root : α} (hroot : L.parent root = none) (n : α) :
    (hup.pathToRoot n).count root = if hup.rootOf n = root then 1 else 0 := by
  induction n using WellFounded.induction hup with
  | _ n ih =>
    cases hn : L.parent n with
    | none =>
      rw [hup.pathToRoot_of_parent_eq_none hn, hup.rootOf_of_parent_eq_none hn,
        List.count_singleton]
      simp only [beq_iff_eq]
    | some p =>
      have hne : n ≠ root := by
        rintro rfl
        rw [hroot] at hn
        cases hn
      have hlast : [n].count root = 0 := List.count_eq_zero.2 (by simpa using hne.symm)
      rw [hup.pathToRoot_of_parent_eq_some hn, hup.rootOf_of_parent_eq_some hn, List.count_append,
        ih p hn, hlast, Nat.add_zero]

/-- Parents and branches are inverse, every way up ends at a root, and the walk of a root meets the
nodes of its own tree once and no others. -/
structure Inverse (L : Linkage α) : Prop where
  matches_branches : L.Matches
  parentsEnd : L.ParentsEnd
  branchesEnd : L.BranchesEnd
  parent_rootOf : ∀ n, L.parent (parentsEnd.rootOf n) = none
  isPath_pathToRoot : ∀ n, L.IsPath (parentsEnd.rootOf n) n (parentsEnd.pathToRoot n)
  count_walk : ∀ root, L.parent root = none → ∀ n,
    (branchesEnd.walk root).count n = if parentsEnd.rootOf n = root then 1 else 0

theorem Matches.inverse (h : L.Matches) (hup : L.ParentsEnd) (hdown : L.BranchesEnd) :
    L.Inverse where
  matches_branches := h
  parentsEnd := hup
  branchesEnd := hdown
  parent_rootOf := hup.parent_rootOf
  isPath_pathToRoot := hup.isPath_pathToRoot
  count_walk root hroot n := by
    rw [h.count_walk hup hdown, count_pathToRoot_of_parent_eq_none hup hroot]

/-- The walk of a root meets the nodes that have this root, and no others. -/
theorem Inverse.mem_walk_iff (h : L.Inverse) {root : α} (hroot : L.parent root = none) :
    n ∈ h.branchesEnd.walk root ↔ h.parentsEnd.rootOf n = root := by
  rw [← List.count_pos_iff, h.count_walk root hroot]
  split <;> simp_all

end

end FormExpr.Linkage
