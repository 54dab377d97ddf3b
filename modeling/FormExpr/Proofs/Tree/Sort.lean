import FormExpr.Proofs.Tree.Preorder
import Mathlib.Data.List.Basic

/-!
# Sorting into document order

Document order alone does not compare nodes of different trees, and the rank that stands in for it
depends on the list. On the members of one list the two make up a single lexicographic order, by the
rank of the tree and then by the position in the preorder walk. So sorting puts the nodes of each
tree together, the trees as they first appeared, and since the sorted list has the same trees in the
same order, every node keeps its rank and sorting again changes nothing.
-/

namespace FormExpr

/-! ### Lists grouped by a key -/

section

variable {α β : Type} [DecidableEq β]

theorem nodup_eraseDups (keys : List β) : keys.eraseDups.Nodup := by
  induction hlength : keys.length using Nat.strongRecOn generalizing keys with
  | ind n ih =>
    cases keys with
    | nil => simp
    | cons k rest =>
      have hlt : (rest.filter fun k' => !k' == k).length < n := by
        have hle := List.length_filter_le (fun k' => !k' == k) rest
        simp only [List.length_cons] at hlength
        omega
      rw [List.eraseDups_cons, List.nodup_cons]
      refine ⟨?_, ih _ hlt _ rfl⟩
      rw [List.mem_eraseDups, List.mem_filter]
      simp

/-- When what satisfies `p` comes first, a list is cut in two by `p`. -/
theorem eq_filter_append_filter_not {p : α → Bool} {xs : List α}
    (hfirst : xs.Pairwise fun a b => p b = true → p a = true) :
    xs = xs.filter p ++ xs.filter fun a => !p a := by
  induction xs with
  | nil => rfl
  | cons a rest ih =>
    obtain ⟨ha, hrest⟩ := List.pairwise_cons.1 hfirst
    by_cases hp : p a = true
    · rw [List.filter_cons_of_pos hp, List.filter_cons_of_neg (by simp [hp]), List.cons_append,
        ← ih hrest]
    · have hnone : rest.filter p = [] := by
        rw [List.filter_eq_nil_iff]
        intro b hb hpb
        exact hp (ha b hb hpb)
      have hall : (rest.filter fun b => !p b) = rest := by
        rw [List.filter_eq_self]
        intro b hb
        simp only [Bool.not_eq_true']
        exact Bool.eq_false_iff.2 fun hpb => hp (ha b hb hpb)
      rw [List.filter_cons_of_neg hp, List.filter_cons_of_pos (by simpa using hp), hnone, hall,
        List.nil_append]

variable (key : α → β)

/-- A list that goes up by the place of its keys is the row of its blocks. -/
theorem eq_flatMap_filter_key {keys : List β} (hnodup : keys.Nodup) {xs : List α}
    (hkeys : ∀ a ∈ xs, key a ∈ keys)
    (hup : xs.Pairwise fun a b => keys.idxOf (key a) ≤ keys.idxOf (key b)) :
    xs = keys.flatMap fun k => xs.filter fun a => key a == k := by
  induction keys generalizing xs with
  | nil =>
    cases xs with
    | nil => rfl
    | cons a rest => exact absurd (hkeys a List.mem_cons_self) (by simp)
  | cons k rest ih =>
    obtain ⟨hk, hrest⟩ := List.nodup_cons.1 hnodup
    -- The first key has the least place, so its elements stand in front.
    have hfirst : xs.Pairwise fun a b => (key b == k) = true → (key a == k) = true := by
      refine hup.imp fun {a b} hle hb => ?_
      rw [beq_iff_eq] at hb ⊢
      by_contra ha
      rw [hb, List.idxOf_cons_self, List.idxOf_cons_ne rest (Ne.symm ha)] at hle
      omega
    have hlater : ∀ a ∈ xs.filter fun a => !(key a == k), key a ≠ k ∧ key a ∈ rest := by
      intro a ha
      simp only [List.mem_filter, Bool.not_eq_true', beq_eq_false_iff_ne] at ha
      exact ⟨ha.2, (List.mem_cons.1 (hkeys a ha.1)).resolve_left ha.2⟩
    have hblocks : (xs.filter fun a => !(key a == k)) =
        rest.flatMap fun k' => xs.filter fun a => key a == k' := by
      rw [ih hrest (fun a ha => (hlater a ha).2) ?_]
      · refine List.flatMap_congr fun k' hk' => ?_
        have hne : k' ≠ k := fun heq => hk (heq ▸ hk')
        rw [List.filter_filter]
        refine List.filter_congr fun a _ => ?_
        by_cases ha : key a = k'
        · simp [ha, hne]
        · simp [ha]
      · refine (hup.filter _).imp_of_mem fun {a b} ha hb hle => ?_
        rw [List.idxOf_cons_ne rest (Ne.symm (hlater a ha).1),
          List.idxOf_cons_ne rest (Ne.symm (hlater b hb).1)] at hle
        omega
    rw [List.flatMap_cons, ← hblocks]
    exact eq_filter_append_filter_not hfirst

theorem eraseDups_eq_singleton {k : β} {ks : List β} (hne : ks ≠ []) (hall : ∀ k' ∈ ks, k' = k) :
    ks.eraseDups = [k] := by
  cases ks with
  | nil => exact absurd rfl hne
  | cons k' rest =>
    have hrest : (rest.filter fun b => !b == k') = [] := by
      rw [List.filter_eq_nil_iff]
      intro b hb
      rw [hall b (List.mem_cons_of_mem k' hb), hall k' List.mem_cons_self]
      simp
    rw [List.eraseDups_cons, hrest, hall k' List.mem_cons_self, List.eraseDups_nil]

/-- A row of blocks, none of them empty, has their keys in the order of the blocks. -/
theorem eraseDups_map_flatMap {keys : List β} (hnodup : keys.Nodup) {block : β → List α}
    (hne : ∀ k ∈ keys, block k ≠ []) (hkey : ∀ k ∈ keys, ∀ a ∈ block k, key a = k) :
    ((keys.flatMap block).map key).eraseDups = keys := by
  induction keys with
  | nil => rfl
  | cons k rest ih =>
    obtain ⟨hk, hrest⟩ := List.nodup_cons.1 hnodup
    have hblock : ∀ k' ∈ (block k).map key, k' = k := by
      intro k' hk'
      obtain ⟨a, ha, rfl⟩ := List.mem_map.1 hk'
      exact hkey k List.mem_cons_self a ha
    have hapart : ((rest.flatMap block).map key).removeAll ((block k).map key) =
        (rest.flatMap block).map key := by
      rw [List.removeAll, List.filter_eq_self]
      intro k' hk'
      obtain ⟨a, ha, rfl⟩ := List.mem_map.1 hk'
      obtain ⟨k'', hk'', ha⟩ := List.mem_flatMap.1 ha
      have hkey' := hkey k'' (List.mem_cons_of_mem k hk'') a ha
      rw [hkey']
      simp only [List.elem_eq_contains, List.contains_eq_mem, Bool.not_eq_true',
        decide_eq_false_iff_not]
      intro hmem
      exact hk (hblock k'' hmem ▸ hk'')
    rw [List.flatMap_cons, List.map_append, List.eraseDups_append, hapart,
      eraseDups_eq_singleton (by simpa using hne k List.mem_cons_self) hblock,
      ih hrest (fun k' hk' => hne k' (List.mem_cons_of_mem k hk'))
        (fun k' hk' => hkey k' (List.mem_cons_of_mem k hk')), List.singleton_append]

end

namespace Node

variable {F : Forest} {nodes : List (Node F)} {a b : Node F}

/-! ### One order for the members of a list -/

theorem root_mem_of_mem (ha : a ∈ nodes) : a.root ∈ (nodes.map root).eraseDups := by
  rw [List.mem_eraseDups]
  exact List.mem_map_of_mem ha

theorem rank_eq_rank_iff (ha : a ∈ nodes) : rank nodes a = rank nodes b ↔ a.root = b.root :=
  List.idxOf_inj (root_mem_of_mem ha)

def placeOrder (nodes : List (Node F)) : Node F → Node F → Ordering :=
  compareLex (compareOn (rank nodes)) (compareOn position)

theorem orderWithin_eq_placeOrder (ha : a ∈ nodes) :
    orderWithin nodes a b = placeOrder nodes a b := by
  rw [orderWithin, placeOrder, compareLex, compareOn, compareOn]
  by_cases htop : a.top = b.top
  · have hrank : rank nodes a = rank nodes b := (rank_eq_rank_iff ha).2 (top_eq_iff.1 htop)
    rw [order?_of_top_eq htop, hrank, Nat.compare_eq_eq.2 rfl, Ordering.eq_then]
  · have hrank : rank nodes a ≠ rank nodes b := by
      intro heq
      exact htop (top_eq_iff.2 ((rank_eq_rank_iff ha).1 heq))
    rw [order?_of_top_ne htop]
    cases hcompare : compare (rank nodes a) (rank nodes b) with
    | eq => exact absurd (Nat.compare_eq_eq.1 hcompare) hrank
    | lt | gt => rfl

theorem placeOrder_isLE_iff :
    (placeOrder nodes a b).isLE = true ↔
      rank nodes a < rank nodes b ∨ rank nodes a = rank nodes b ∧ a.position ≤ b.position := by
  rw [placeOrder, compareLex, compareOn, compareOn, Ordering.isLE_then_iff_or, Nat.compare_eq_lt,
    Nat.compare_eq_eq, Nat.isLE_compare]

instance (nodes : List (Node F)) : Std.TransCmp (placeOrder nodes) :=
  inferInstanceAs (Std.TransCmp (compareLex _ _))

/-! ### The sorted list -/

/-- Sorting keeps the nodes. -/
theorem sort_perm (nodes : List (Node F)) : (sort nodes).Perm nodes :=
  List.mergeSort_perm nodes _

theorem mem_sort {n : Node F} : n ∈ sort nodes ↔ n ∈ nodes :=
  (sort_perm nodes).mem_iff

/-- Between members of the list the rank decides wherever document order does not. -/
theorem sort_eq_mergeSort (nodes : List (Node F)) :
    sort nodes = nodes.mergeSort fun a b => (placeOrder nodes a b).isLE := by
  have hmap := List.map_mergeSort (r := fun a b => orderWithin nodes a b != .gt)
    (s := fun a b => (placeOrder nodes a b).isLE) (f := id) (l := nodes) ?_
  · rwa [List.map_id, List.map_id] at hmap
  · intro a ha b _
    rw [orderWithin_eq_placeOrder ha, id_eq, id_eq]
    cases placeOrder nodes a b <;> rfl

theorem pairwise_sort (nodes : List (Node F)) :
    (sort nodes).Pairwise fun a b => (placeOrder nodes a b).isLE = true := by
  rw [sort_eq_mergeSort]
  apply List.pairwise_mergeSort
  · intro a b c hab hbc
    exact Std.TransCmp.isLE_trans hab hbc
  · intro a b
    rw [Bool.or_eq_true, placeOrder_isLE_iff, placeOrder_isLE_iff]
    omega

/-- The trees stand one after the other, in the order of their first nodes. -/
theorem sort_eq_flatMap (nodes : List (Node F)) :
    sort nodes = (nodes.map root).eraseDups.flatMap fun r => (sort nodes).filter (·.root == r) := by
  apply eq_flatMap_filter_key root (nodup_eraseDups _)
  · intro n hn
    exact root_mem_of_mem (mem_sort.1 hn)
  · refine (pairwise_sort nodes).imp fun {a b} hle => ?_
    have hrank : rank nodes a ≤ rank nodes b := by
      rw [placeOrder_isLE_iff] at hle
      omega
    exact hrank

theorem eraseDups_map_root_sort (nodes : List (Node F)) :
    ((sort nodes).map root).eraseDups = (nodes.map root).eraseDups := by
  rw [sort_eq_flatMap]
  apply eraseDups_map_flatMap root (nodup_eraseDups _)
  · intro r hr
    obtain ⟨n, hn, hroot⟩ := List.mem_map.1 (List.mem_eraseDups.1 hr)
    exact List.ne_nil_of_mem (List.mem_filter.2 ⟨mem_sort.2 hn, beq_iff_eq.2 hroot⟩)
  · intro r _ n hn
    exact beq_iff_eq.1 (List.mem_filter.1 hn).2

/-- Sorting keeps the ranks of the trees. -/
theorem rank_sort (nodes : List (Node F)) : rank (sort nodes) = rank nodes := by
  funext n
  rw [rank, rank, eraseDups_map_root_sort]

/-- So sorting again changes nothing. -/
theorem sort_sort (nodes : List (Node F)) : sort (sort nodes) = sort nodes := by
  have horder : placeOrder (sort nodes) = placeOrder nodes := by
    rw [placeOrder, placeOrder, rank_sort]
  rw [sort_eq_mergeSort (sort nodes), horder]
  exact List.mergeSort_of_pairwise (pairwise_sort nodes)

/-- Inside a tree the nodes stand in the order of the walk. -/
theorem position_le_of_pairwise_sort (nodes : List (Node F)) :
    (sort nodes).Pairwise fun a b => a.root = b.root → a.position ≤ b.position := by
  refine (pairwise_sort nodes).imp_of_mem fun {a b} ha _ hle hroot => ?_
  have hrank : rank nodes a = rank nodes b := (rank_eq_rank_iff (mem_sort.1 ha)).2 hroot
  rw [placeOrder_isLE_iff] at hle
  omega

/-- Sorting keeps the members and puts them tree by tree, the trees as they first appear and each
tree in preorder. On the members of the list its comparison is a total preorder, and sorting twice
is sorting once. -/
theorem sort_groups_trees (nodes : List (Node F)) :
    (sort nodes).Perm nodes ∧
    (sort nodes =
      (nodes.map root).eraseDups.flatMap fun r => (sort nodes).filter (·.root == r)) ∧
    ((sort nodes).Pairwise fun a b => a.root = b.root → a.position ≤ b.position) ∧
    Std.TransCmp (fun a b : {n : Node F // n ∈ nodes} => orderWithin nodes a.1 b.1) ∧
    sort (sort nodes) = sort nodes := by
  refine ⟨sort_perm nodes, sort_eq_flatMap nodes, position_le_of_pairwise_sort nodes, ?_,
    sort_sort nodes⟩
  have horder : (fun a b : {n : Node F // n ∈ nodes} => orderWithin nodes a.1 b.1) =
      fun a b => placeOrder nodes a.1 b.1 := by
    funext a b
    exact orderWithin_eq_placeOrder a.2
  rw [horder]
  exact { eq_swap := Std.OrientedCmp.eq_swap, isLE_trans := Std.TransCmp.isLE_trans }

end Node

end FormExpr
