import FormExpr.Operator.DateRule
import FormExpr.Proofs.Tree.First

/-!
# Unions of node sets

A union takes the first node set as it is, appends what is new in the second, each node once, and
sorts. The trees are ranked as they first appear in the two sets one after the other, since a node
that is left out has its tree in front of it already. Within one tree the lists without repeats that
stand in document order form a semilattice under union.
-/

namespace FormExpr

theorem eraseDups_append_cons_of_mem {β : Type} [DecidableEq β] {k : β} {xs : List β} (hk : k ∈ xs)
    (ys : List β) : (xs ++ k :: ys).eraseDups = (xs ++ ys).eraseDups := by
  rw [List.eraseDups_append, List.eraseDups_append, List.cons_removeAll, if_neg (by simpa using hk)]

namespace Node

variable {F : Forest} {a b c : List (Node F)} {n : Node F}

/-! ### What is new in the second set -/

/-- The nodes of `b` that are not in `a`, each once, as they first appear. -/
def fresh (a b : List (Node F)) : List (Node F) :=
  (b.filter fun n => !a.contains n).eraseDups

theorem fresh_cons_of_mem (hn : n ∈ a) (b : List (Node F)) : fresh a (n :: b) = fresh a b := by
  rw [fresh, List.filter_cons_of_neg (by simpa using hn), fresh]

theorem fresh_cons_of_notMem (hn : n ∉ a) (b : List (Node F)) :
    fresh a (n :: b) = n :: fresh (a ++ [n]) b := by
  rw [fresh, List.filter_cons_of_pos (by simpa using hn), List.eraseDups_cons, List.filter_filter,
    fresh]
  congr 2
  refine List.filter_congr fun m _ => ?_
  by_cases hm : m ∈ a <;> by_cases heq : m = n <;> simp [hm, heq]

/-- The nodes of the second list that the first one does not have. -/
theorem mem_fresh : n ∈ fresh a b ↔ n ∈ b ∧ n ∉ a := by
  rw [fresh, List.mem_eraseDups, List.mem_filter]
  simp

theorem nodup_fresh (a b : List (Node F)) : (fresh a b).Nodup :=
  nodup_eraseDups _

/-! ### The nodes of a union -/

theorem union_eq_sort (a b : List (Node F)) : union a b = sort (a ++ fresh a b) := by
  have hfoldl : b.foldl (fun nodes n => if nodes.contains n then nodes else nodes ++ [n]) a =
      a ++ fresh a b := by
    -- membership is tested against the growing list, so the first set is general in the induction
    induction b generalizing a with
    | nil => simp [fresh]
    | cons n b ih =>
      rw [List.foldl_cons, ih]
      by_cases hn : n ∈ a
      · rw [if_pos (by simpa using hn), fresh_cons_of_mem hn]
      · rw [if_neg (by simpa using hn), fresh_cons_of_notMem hn, List.append_assoc,
          List.singleton_append]
  rw [union, hfoldl]

/-- A union keeps the repeats of the first list and adds no others. -/
theorem count_union (a b : List (Node F)) (n : Node F) :
    (union a b).count n = if n ∈ a then a.count n else if n ∈ b then 1 else 0 := by
  rw [union_eq_sort, (sort_perm _).count_eq, List.count_append, (nodup_fresh a b).count]
  by_cases ha : n ∈ a
  · rw [if_pos ha, if_neg fun h => (mem_fresh.1 h).2 ha, Nat.add_zero]
  · rw [if_neg ha, List.count_eq_zero_of_not_mem ha, Nat.zero_add]
    exact if_congr (mem_fresh.trans (and_iff_left ha)) rfl rfl

theorem mem_append_fresh : n ∈ a ++ fresh a b ↔ n ∈ a ∨ n ∈ b := by
  rw [List.mem_append, mem_fresh]
  by_cases ha : n ∈ a
  · simp [ha]
  · simp [ha]

/-- The members are those of either list. -/
theorem mem_union : n ∈ union a b ↔ n ∈ a ∨ n ∈ b := by
  rw [union_eq_sort, mem_sort, mem_append_fresh]

theorem nodup_append_fresh (ha : a.Nodup) (b : List (Node F)) : (a ++ fresh a b).Nodup := by
  rw [List.nodup_append]
  refine ⟨ha, nodup_fresh a b, ?_⟩
  rintro n hn m hm rfl
  exact (mem_fresh.1 hm).2 hn

theorem nodup_union (ha : a.Nodup) (b : List (Node F)) : (union a b).Nodup := by
  rw [union_eq_sort, (sort_perm _).nodup_iff]
  exact nodup_append_fresh ha b

/-! ### The order of a union -/

/-- A union is in order already. -/
theorem sort_union (a b : List (Node F)) : sort (union a b) = union a b := by
  rw [union_eq_sort, sort_sort]

/-- The nodes that a union leaves out change nothing in the order of the trees. -/
theorem rank_append_fresh (a b : List (Node F)) : rank (a ++ fresh a b) = rank (a ++ b) := by
  have hroots : ((a ++ fresh a b).map root).eraseDups = ((a ++ b).map root).eraseDups := by
    induction b generalizing a with
    | nil => simp [fresh]
    | cons n b ih =>
      by_cases hn : n ∈ a
      · rw [fresh_cons_of_mem hn, ih, List.map_append, List.map_append, List.map_cons,
          eraseDups_append_cons_of_mem (List.mem_map_of_mem hn)]
      · rw [fresh_cons_of_notMem hn, List.append_cons, ih, ← List.append_cons]
  funext n
  rw [rank, rank, hroots]

theorem pairwise_union (a b : List (Node F)) :
    (union a b).Pairwise fun m n => orderWithin (a ++ b) m n ≠ .gt := by
  have horder : placeOrder (a ++ fresh a b) = placeOrder (a ++ b) := by
    rw [placeOrder, placeOrder, rank_append_fresh]
  have hpairwise := pairwise_sort (a ++ fresh a b)
  rw [← union_eq_sort, horder] at hpairwise
  refine hpairwise.imp_of_mem fun {m n} hm _ hle => ?_
  rw [orderWithin_eq_placeOrder (List.mem_append.2 (mem_union.1 hm))]
  exact Ordering.isLE_iff_ne_gt.1 hle

/-! ### Sets within one tree -/

theorem union_self (a : List (Node F)) : union a a = sort a := by
  have hfresh : fresh a a = [] :=
    List.eq_nil_iff_forall_not_mem.2 fun n hn => (mem_fresh.1 hn).2 (mem_fresh.1 hn).1
  rw [union_eq_sort, hfresh, List.append_nil]

/-- A union is any list of its nodes without repeats, sorted. -/
theorem union_eq_sort_of_mem_iff (hone : OneTree (a ++ b)) (ha : a.Nodup) {s : List (Node F)}
    (hs : s.Nodup) (hmem : ∀ n, n ∈ s ↔ n ∈ a ∨ n ∈ b) : union a b = sort s := by
  rw [union_eq_sort]
  refine OneTree.sort_eq_sort_of_mem_iff ?_ (nodup_append_fresh ha b) hs fun n => ?_
  · exact hone.of_subset fun n hn => List.mem_append.2 (mem_append_fresh.1 hn)
  · rw [mem_append_fresh, hmem]

/-- In one tree and without repeats the order is strict. -/
theorem pairwise_order?_union (hone : OneTree (a ++ b)) (ha : a.Nodup) :
    (union a b).Pairwise fun m n => m.order? n = .ok .lt := by
  rw [union_eq_sort]
  refine OneTree.pairwise_order? ?_ (nodup_append_fresh ha b)
  exact hone.of_subset fun n hn => List.mem_append.2 (mem_append_fresh.1 hn)

/-- Sets of nodes of one tree may be united in either order. -/
theorem union_comm (hone : OneTree (a ++ b)) (ha : a.Nodup) (hb : b.Nodup) :
    union a b = union b a := by
  rw [union_eq_sort b a]
  refine union_eq_sort_of_mem_iff hone ha (nodup_append_fresh hb a) fun n => ?_
  rw [mem_append_fresh, or_comm]

/-- And in any grouping. -/
theorem union_assoc (hone : OneTree (a ++ b ++ c)) (ha : a.Nodup) :
    union (union a b) c = union a (union b c) := by
  rw [union_eq_sort a (union b c)]
  refine union_eq_sort_of_mem_iff ?_ (nodup_union ha b) (nodup_append_fresh ha _) fun n => ?_
  · refine hone.of_subset fun n hn => ?_
    rw [List.mem_append, mem_union] at hn
    rwa [List.mem_append, List.mem_append]
  · rw [mem_append_fresh, mem_union, mem_union, or_assoc]

end Node

namespace Operator

variable {F : Forest}

/-- Only node sets have a union. -/
theorem apply_union_of_not_nodeSet (z : Zone) {l r : Value F}
    (hkind : l.kind ≠ .nodeSet ∨ r.kind ≠ .nodeSet) :
    apply z l .union r = .error (.unionOperands l.kind r.kind) := by
  cases l with
  | nodeSet a =>
    cases r with
    | nodeSet b => exact absurd hkind (by simp [Value.kind])
    | _ => rfl
  | _ => rfl

/-- The union has the nodes of the first set as often as they stand there and those that are new in
the second once, in document order, the trees as they first appear. Within one tree it is the union
of sets, each written in document order. What is not a node set has no union. -/
theorem apply_union (z : Zone) (F : Forest) :
    (∀ a b : List (Node F),
      apply z (.nodeSet a) .union (.nodeSet b) = .ok (.nodeSet (Node.union a b)) ∧
      (∀ n, (Node.union a b).count n = if n ∈ a then a.count n else if n ∈ b then 1 else 0) ∧
      Node.sort (Node.union a b) = Node.union a b ∧
      (Node.union a b).Pairwise fun m n => Node.orderWithin (a ++ b) m n ≠ .gt) ∧
    (∀ a b c : List (Node F), Node.OneTree (a ++ b ++ c) → a.Nodup → b.Nodup → c.Nodup →
      (∀ n, n ∈ Node.union a b ↔ n ∈ a ∨ n ∈ b) ∧
      ((Node.union a b).Pairwise fun m n => m.order? n = .ok .lt) ∧
      Node.union a b = Node.union b a ∧
      Node.union (Node.union a b) c = Node.union a (Node.union b c) ∧
      Node.union a a = Node.sort a ∧
      Node.union (Node.union a b) (Node.union a b) = Node.union a b) ∧
    (∀ l r : Value F, l.kind ≠ .nodeSet ∨ r.kind ≠ .nodeSet →
      apply z l .union r = .error (.unionOperands l.kind r.kind) ∧
      (Error.unionOperands l.kind r.kind).category.label = "invalid-operands") ∧
    (∀ l r : Value F, evaluate (dateRule z) z l .union r = apply z l .union r) := by
  refine ⟨?_, ?_, ?_, fun l r => rfl⟩
  · intro a b
    exact ⟨rfl, Node.count_union a b, Node.sort_union a b, Node.pairwise_union a b⟩
  · intro a b c hone ha hb _
    have hpair : Node.OneTree (a ++ b) := hone.of_subset fun n => List.mem_append_left c
    refine ⟨fun n => Node.mem_union, Node.pairwise_order?_union hpair ha,
      Node.union_comm hpair ha hb, Node.union_assoc hone ha, Node.union_self a, ?_⟩
    rw [Node.union_self, Node.sort_union]
  · intro l r hkind
    exact ⟨apply_union_of_not_nodeSet z hkind, rfl⟩

/-- Two children are united in the order of the document from either side, and a number is refused.
-/
theorem apply_union_children :
    let t : Tree := .node (.element "a" none) [] [.node (.text "x") [] [], .node (.text "y") [] []]
    let F : Forest := ⟨[t]⟩
    let x : Node F := ⟨0, [0], by decide⟩
    let y : Node F := ⟨0, [1], by decide⟩
    let number : Value F := .number 1
    Node.OneTree [y, x] ∧ x.order? y = .ok .lt ∧
    Node.union [y] [x] = Node.union [x] [y] ∧
    number.kind ≠ .nodeSet ∧
    apply (.fixed 0) (.nodeSet [x]) .union number = .error (.unionOperands .nodeSet .number) := by
  intro t F x y number
  have hone : Node.OneTree ([y] ++ [x] ++ []) := by decide
  have hkind : number.kind ≠ .nodeSet := by decide
  obtain ⟨-, hsets, hrefuses, -⟩ := apply_union (.fixed 0) F
  obtain ⟨-, -, hcomm, -⟩ := hsets [y] [x] [] hone (by decide) (by decide) (by decide)
  exact ⟨hone, by decide, hcomm, hkind, (hrefuses (.nodeSet [x]) number (Or.inr hkind)).1⟩

end Operator

end FormExpr
