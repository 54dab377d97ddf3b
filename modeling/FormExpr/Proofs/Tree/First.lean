import FormExpr.Proofs.Tree.Sort
import Mathlib.Data.List.Basic

/-!
# The first node in document order

The first node is found by a running minimum and the sorted list by merging, but both go by one
order, in which two different members of a list are never level. So the first node is the head of
the sorted list. Within one tree the rest of the list no longer matters to the order: the members
decide which node is first, and with their multiplicities what the sorted list is.
-/

namespace FormExpr.Node

variable {F : Forest} {nodes : List (Node F)} {a b m n : Node F}

/-! ### Running minima -/

section

variable {order : Node F → Node F → Ordering} [Std.TransCmp order]

variable (order) in
/-- One step of the minimum goes below the best node so far and the candidate. -/
theorem isLE_better (best candidate : Node F) :
    (order (if order candidate best == .lt then candidate else best) best).isLE = true ∧
    (order (if order candidate best == .lt then candidate else best) candidate).isLE = true := by
  have hself : ∀ n, order n n = .eq := fun n => Std.ReflCmp.compare_self
  by_cases hlt : order candidate best = .lt
  · rw [if_pos (beq_iff_eq.2 hlt), hlt, hself]
    exact ⟨rfl, rfl⟩
  · rw [if_neg (mt eq_of_beq hlt), hself]
    refine ⟨rfl, ?_⟩
    by_contra hgt
    exact hlt (Std.OrientedCmp.lt_of_not_isLE hgt)

theorem isLE_of_least (hleast : least order nodes = some m) :
    ∀ n ∈ nodes, (order m n).isLE = true := by
  cases nodes with
  | nil => cases hleast
  | cons best rest =>
    obtain rfl := Option.some.inj hleast
    clear hleast
    -- the best node so far only goes down, so the last one is below every node passed
    induction rest generalizing best with
    | nil => simp [Std.ReflCmp.compare_self]
    | cons candidate rest ih =>
      obtain ⟨hbest, hcandidate⟩ := isLE_better order best candidate
      rw [List.foldl_cons]
      have hnext := ih (if order candidate best == .lt then candidate else best)
      have hself := hnext _ List.mem_cons_self
      intro n hn
      rcases List.mem_cons.1 hn with rfl | hn
      · exact Std.TransCmp.isLE_trans hself hbest
      · rcases List.mem_cons.1 hn with rfl | hn
        · exact Std.TransCmp.isLE_trans hself hcandidate
        · exact hnext n (List.mem_cons_of_mem _ hn)

end

/-! ### The head of the sorted list -/

/-- Level members of a list are one node. -/
theorem eq_of_placeOrder_isLE (ha : a ∈ nodes) (hab : (placeOrder nodes a b).isLE = true)
    (hba : (placeOrder nodes b a).isLE = true) : a = b := by
  rw [placeOrder_isLE_iff] at hab hba
  have hroot : a.root = b.root := (rank_eq_rank_iff ha).1 (by omega)
  exact position_inj (top_eq_iff.2 hroot) (by omega)

/-- The first node is the least one by tree and place. -/
theorem first?_eq_least_placeOrder (nodes : List (Node F)) :
    first? nodes = least (placeOrder nodes) nodes := by
  cases nodes with
  | nil => rfl
  | cons n rest =>
    refine congrArg some (List.foldl_ext _ _ n fun best candidate hcandidate => ?_)
    rw [orderWithin_eq_placeOrder (List.mem_cons_of_mem n hcandidate)]

/-- There is a first node unless there is none at all. -/
theorem first?_eq_none_iff : first? nodes = none ↔ nodes = [] := by
  cases nodes with
  | nil => simp [first?, least]
  | cons n rest => simp [first?, least]

theorem sort_eq_nil_iff : sort nodes = [] ↔ nodes = [] := by
  constructor
  · intro hsort
    have hperm := sort_perm nodes
    rw [hsort] at hperm
    exact hperm.symm.eq_nil
  · rintro rfl
    exact (sort_perm []).eq_nil

/-- The first node is the one at the head of the sorted list. -/
theorem first?_eq_head?_sort (nodes : List (Node F)) : first? nodes = (sort nodes).head? := by
  cases hsort : sort nodes with
  | nil => rw [List.head?_nil, first?_eq_none_iff, ← sort_eq_nil_iff, hsort]
  | cons n rest =>
    have hn : n ∈ nodes := mem_sort.1 (hsort ▸ List.mem_cons_self)
    obtain ⟨m, hm⟩ : ∃ m, first? nodes = some m := by
      rw [← Option.isSome_iff_exists, Option.isSome_iff_ne_none, ne_eq, first?_eq_none_iff]
      exact List.ne_nil_of_mem hn
    rw [List.head?_cons, hm, Option.some.injEq]
    have hmn : (placeOrder nodes m n).isLE = true :=
      isLE_of_least (first?_eq_least_placeOrder nodes ▸ hm) n hn
    have hpairwise := pairwise_sort nodes
    rw [hsort, List.pairwise_cons] at hpairwise
    have hm' : m ∈ n :: rest := hsort ▸ mem_sort.2 (first?_mem hm)
    rcases List.mem_cons.1 hm' with heq | hrest
    · exact heq
    · exact eq_of_placeOrder_isLE (first?_mem hm) hmn (hpairwise.1 m hrest)

/-! ### Lists within one tree -/

def OneTree (nodes : List (Node F)) : Prop :=
  ∀ a ∈ nodes, ∀ b ∈ nodes, a.top = b.top

instance (nodes : List (Node F)) : Decidable (OneTree nodes) :=
  inferInstanceAs (Decidable (∀ a ∈ nodes, ∀ b ∈ nodes, a.top = b.top))

theorem OneTree.of_subset {others : List (Node F)} (h : OneTree nodes)
    (hsub : ∀ n ∈ others, n ∈ nodes) : OneTree others :=
  fun a ha b hb => h a (hsub a ha) b (hsub b hb)

theorem OneTree.pairwise_sort (h : OneTree nodes) :
    (sort nodes).Pairwise fun a b => a.position ≤ b.position := by
  refine (position_le_of_pairwise_sort nodes).imp_of_mem fun {a b} ha hb hle => ?_
  exact hle (top_eq_iff.1 (h a (mem_sort.1 ha) b (mem_sort.1 hb)))

/-- Within one tree the members and their multiplicities decide the sorted list. -/
theorem OneTree.sort_eq_sort {others : List (Node F)} (h : OneTree nodes)
    (hperm : nodes.Perm others) : sort nodes = sort others := by
  have hothers : OneTree others := h.of_subset fun n => hperm.mem_iff.2
  refine List.Perm.eq_of_pairwise ?_ h.pairwise_sort hothers.pairwise_sort
    ((sort_perm nodes).trans (hperm.trans (sort_perm others).symm))
  intro a b ha hb hab hba
  exact position_inj (h a (mem_sort.1 ha) b (hperm.mem_iff.2 (mem_sort.1 hb)))
    (Nat.le_antisymm hab hba)

/-- Within one tree the members alone decide the sorted list. -/
theorem OneTree.sort_eq_sort_of_mem_iff {others : List (Node F)} (h : OneTree nodes)
    (hnodes : nodes.Nodup) (hothers : others.Nodup) (hmem : ∀ n, n ∈ nodes ↔ n ∈ others) :
    sort nodes = sort others :=
  h.sort_eq_sort ((List.perm_ext_iff_of_nodup hnodes hothers).2 hmem)

/-- Without repeats every node of the sorted list precedes the later ones in document order. -/
theorem OneTree.pairwise_order? (h : OneTree nodes) (hnodes : nodes.Nodup) :
    (sort nodes).Pairwise fun a b => a.order? b = .ok .lt := by
  have hsort : (sort nodes).Nodup := (sort_perm nodes).nodup_iff.2 hnodes
  refine (h.pairwise_sort.and hsort).imp_of_mem fun {a b} ha hb hab => ?_
  have htop : a.top = b.top := h a (mem_sort.1 ha) b (mem_sort.1 hb)
  have hne : a.position ≠ b.position := mt (position_inj htop) hab.2
  rw [order?_of_top_eq htop, Nat.compare_eq_lt.2 (by omega)]

/-- Within one tree the first node is the one at the first place. -/
theorem OneTree.first?_eq_some_iff (h : OneTree nodes) :
    first? nodes = some m ↔ m ∈ nodes ∧ ∀ n ∈ nodes, m.position ≤ n.position := by
  rw [first?_eq_head?_sort]
  have hpairwise := h.pairwise_sort
  have hmem : ∀ n, n ∈ sort nodes ↔ n ∈ nodes := fun n => mem_sort
  cases hsort : sort nodes with
  | nil => simp [← hmem, hsort]
  | cons first rest =>
    rw [hsort] at hpairwise hmem
    rw [List.pairwise_cons] at hpairwise
    rw [List.head?_cons, Option.some.injEq]
    constructor
    · rintro rfl
      refine ⟨(hmem first).1 List.mem_cons_self, fun n hn => ?_⟩
      rcases List.mem_cons.1 ((hmem n).2 hn) with rfl | hrest
      · exact le_rfl
      · exact hpairwise.1 n hrest
    · rintro ⟨hm, hle⟩
      have hfirst : first ∈ nodes := (hmem first).1 List.mem_cons_self
      refine position_inj (h first hfirst m hm) (Nat.le_antisymm ?_ (hle first hfirst))
      rcases List.mem_cons.1 ((hmem m).2 hm) with rfl | hrest
      · exact le_rfl
      · exact hpairwise.1 m hrest

/-- Within one tree the members alone decide the first node. -/
theorem OneTree.first?_eq_first? {others : List (Node F)} (h : OneTree nodes)
    (hmem : ∀ n, n ∈ nodes ↔ n ∈ others) : first? nodes = first? others := by
  have hothers : OneTree others := h.of_subset fun n => (hmem n).2
  apply Option.ext
  intro m
  rw [h.first?_eq_some_iff, hothers.first?_eq_some_iff]
  simp only [hmem]

end FormExpr.Node
