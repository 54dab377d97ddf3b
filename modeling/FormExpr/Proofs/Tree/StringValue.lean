import FormExpr.Proofs.Tree.First
import FormExpr.Proofs.Tree.Sibling

/-!
# The string value and document order

The string value of a document or an element is gathered by walking down its children. The nodes
that the walk takes a text from are the text and CDATA nodes which stand below through elements
only, and it meets them in the order of their paths. So the string value is what those nodes hold,
put together in document order, whatever order they are listed in.
-/

namespace FormExpr

namespace Tree

theorem contributedAll_eq_flatMap (trees : List Tree) :
    contributedAll trees = trees.flatMap contributed := by
  induction trees with
  | nil => rfl
  | cons t rest ih => rw [contributedAll, ih, List.flatMap_cons]

theorem contributed_of_element {t : Tree} (hkind : t.label.kind = .element) :
    t.contributed = t.children.flatMap contributed := by
  cases t with
  | node label attributes children =>
    have hkind : label.kind = .element := hkind
    rw [contributed, hkind, Tree.children]
    exact contributedAll_eq_flatMap children

theorem contributed_of_text {t : Tree} (hkind : t.label.kind = .text ∨ t.label.kind = .cdata) :
    t.contributed = [t.label.value] := by
  cases t with
  | node label attributes children =>
    rcases hkind with hkind | hkind
    all_goals
      have hkind : label.kind = _ := hkind
      rw [contributed, hkind, Tree.label]

theorem contributed_of_other {t : Tree} (helement : t.label.kind ≠ .element)
    (htext : ¬(t.label.kind = .text ∨ t.label.kind = .cdata)) : t.contributed = [] := by
  cases t with
  | node label attributes children =>
    have helement : label.kind ≠ .element := helement
    have htext : ¬(label.kind = .text ∨ label.kind = .cdata) := htext
    rw [contributed]
    cases hkind : label.kind <;> simp_all

/-- A document and an element are read through their children. -/
theorem stringValue_of_container {t : Tree}
    (hkind : t.label.kind = .document ∨ t.label.kind = .element) :
    t.stringValue = String.join (t.children.flatMap contributed) := by
  rw [stringValue]
  rcases hkind with hkind | hkind
  all_goals rw [hkind, contributedAll_eq_flatMap]

end Tree

namespace Node

variable {F : Forest} {x c n p : Node F} {row texts : List (Node F)}

def IsText (n : Node F) : Prop :=
  n.kind = .text ∨ n.kind = .cdata

/-- The node stands below the first one, and every node between the two is an element. -/
inductive ThroughElements : Node F → Node F → Prop
  | child {x n : Node F} (hn : n ∈ x.children) : ThroughElements x n
  | step {x e n : Node F} (he : e ∈ x.children) (hkind : e.kind = .element)
      (hn : ThroughElements e n) : ThroughElements x n

/-- Below a node stands a child, or what stands below a child that is an element. -/
theorem throughElements_iff : x.ThroughElements n ↔
    ∃ c ∈ x.children, n = c ∨ c.kind = .element ∧ c.ThroughElements n := by
  constructor
  · rintro (hn | ⟨he, hkind, hn⟩)
    · exact ⟨n, hn, Or.inl rfl⟩
    · exact ⟨_, he, Or.inr ⟨hkind, hn⟩⟩
  · rintro ⟨c, hc, rfl | ⟨hkind, hn⟩⟩
    · exact .child hc
    · exact .step hc hkind hn

/-! ### Places below a node -/

theorem root_of_mem_children (hn : n ∈ x.children) : n.root = x.root := by
  obtain ⟨i, hi, rfl⟩ := exists_branch_of_parent_eq_some (parent_of_mem_children hn)
  rfl

theorem path_isPrefix_of_mem_children (hn : n ∈ x.children) : x.path <+: n.path := by
  obtain ⟨i, hi, rfl⟩ := exists_branch_of_parent_eq_some (parent_of_mem_children hn)
  exact List.prefix_append x.path [i]

theorem ThroughElements.root_eq (h : x.ThroughElements n) : n.root = x.root := by
  induction h with
  | child hn => exact root_of_mem_children hn
  | step he _ _ ih => exact ih.trans (root_of_mem_children he)

theorem ThroughElements.path_isPrefix (h : x.ThroughElements n) : x.path <+: n.path := by
  induction h with
  | child hn => exact path_isPrefix_of_mem_children hn
  | step he _ _ ih => exact (path_isPrefix_of_mem_children he).trans ih

theorem ThroughElements.exists_mem_children (h : x.ThroughElements n) :
    ∃ p : Node F, n ∈ p.children := by
  induction h with
  | child hn => exact ⟨_, hn⟩
  | step _ _ _ ih => exact ih

/-- An attribute stands below no node through elements, whatever its kind. -/
theorem not_throughElements_of_mem_attributes (hn : n ∈ p.attributes) :
    ¬x.ThroughElements n := by
  intro hbelow
  obtain ⟨q, hq⟩ := hbelow.exists_mem_children
  have hparent := parent_of_mem_children hq
  rw [parent_of_mem_attributes hn, Option.some.injEq] at hparent
  exact notMem_children_of_mem_attributes hn (hparent ▸ hq)

theorem compare_append_left (path left right : List Nat) :
    compare (path ++ left) (path ++ right) = compare left right := by
  induction path with
  | nil => rfl
  | cons k path ih =>
    rw [List.cons_append, List.cons_append, List.compare_cons_cons, Nat.compare_eq_eq.2 rfl,
      Ordering.eq_then, ih]

/-- What stands below two branches is in the order of the branches. -/
theorem compare_path_of_isPrefix {i j : Nat} {path left right : List Nat} (hij : i < j)
    (hleft : path ++ [i] <+: left) (hright : path ++ [j] <+: right) :
    compare left right = .lt := by
  obtain ⟨below, rfl⟩ := hleft
  obtain ⟨below', rfl⟩ := hright
  rw [List.append_assoc, List.append_assoc, compare_append_left, List.singleton_append,
    List.singleton_append, List.compare_cons_cons, Nat.compare_eq_lt.2 hij, Ordering.lt_then]

theorem branch_tree {i : Nat} (hi : i < x.tree.branches.length) :
    (x.branch i hi).tree = x.tree.branches[i] := by
  have hat := (x.branch i hi).at?_eq_some_tree
  rw [branch_root, branch_path, Forest.at?_append, at?_eq_some_tree, Option.bind_some, Tree.at?_cons,
    List.getElem?_eq_getElem hi, Option.bind_some, Tree.at?, Option.some.injEq] at hat
  exact hat.symm

theorem map_tree_children (x : Node F) : x.children.map tree = x.tree.children := by
  apply List.ext_getElem
  · simp [children]
  · intro i hleft hright
    simp [children, branch_tree, Tree.branches]

/-- What stands below one child precedes what stands below the next. -/
theorem pairwise_children (x : Node F) :
    x.children.Pairwise fun c d => ∀ a b : Node F, c.path <+: a.path → d.path <+: b.path →
      compare a.path b.path = .lt := by
  rw [children, List.pairwise_ofFn]
  intro i j hij a b ha hb
  exact compare_path_of_isPrefix (Nat.add_lt_add_left hij _) ha hb

/-! ### The row of texts -/

structure IsRow (keeps : Node F → Prop) (values : List String) (row : List (Node F)) : Prop where
  mem_iff : ∀ n, n ∈ row ↔ keeps n
  ordered : row.Pairwise fun a b => compare a.path b.path = .lt
  values_eq : row.map (·.label.value) = values

def AddsText (c n : Node F) : Prop :=
  n.IsText ∧ (n = c ∨ c.kind = .element ∧ c.ThroughElements n)

theorem AddsText.path_isPrefix (h : c.AddsText n) : c.path <+: n.path := by
  obtain ⟨-, rfl | ⟨-, hbelow⟩⟩ := h
  · exact List.prefix_refl _
  · exact hbelow.path_isPrefix

theorem exists_isRow_addsText (c : Node F)
    (hbelow : ∃ row, IsRow (fun n => n.IsText ∧ c.ThroughElements n)
      (c.tree.children.flatMap Tree.contributed) row) :
    ∃ row, IsRow c.AddsText c.tree.contributed row := by
  by_cases helement : c.kind = .element
  · have hkeeps : c.AddsText = fun n => n.IsText ∧ c.ThroughElements n := by
      funext n
      rw [AddsText, eq_iff_iff]
      refine and_congr_right fun htext => ⟨?_, fun h => Or.inr ⟨helement, h⟩⟩
      rintro (rfl | ⟨-, h⟩)
      · rw [IsText, helement] at htext
        simp at htext
      · exact h
    rw [hkeeps, Tree.contributed_of_element helement]
    exact hbelow
  · have hkeeps : ∀ n, c.AddsText n ↔ c.IsText ∧ n = c := by
      intro n
      constructor
      · rintro ⟨htext, rfl | ⟨hkind, -⟩⟩
        · exact ⟨htext, rfl⟩
        · exact absurd hkind helement
      · rintro ⟨htext, rfl⟩
        exact ⟨htext, Or.inl rfl⟩
    by_cases htext : c.IsText
    · refine ⟨[c], fun n => ?_, List.pairwise_singleton _ _, ?_⟩
      · rw [List.mem_singleton, hkeeps, and_iff_right htext]
      · rw [Tree.contributed_of_text htext]
        rfl
    · refine ⟨[], fun n => ?_, List.Pairwise.nil, ?_⟩
      · rw [hkeeps]
        simp [htext]
      · rw [Tree.contributed_of_other helement htext]
        rfl

/-- The walk below a node takes the texts of exactly the text nodes below it, in their order. -/
theorem exists_isRow (x : Node F) :
    ∃ row, IsRow (fun n => n.IsText ∧ x.ThroughElements n)
      (x.tree.children.flatMap Tree.contributed) row := by
  induction htree : x.tree using Tree.branch_induction generalizing x with
  | step t ih =>
    subst htree
    have hrows : ∀ c ∈ x.children, ∃ row, IsRow c.AddsText c.tree.contributed row := by
      intro c hc
      have htree : c.tree ∈ x.tree.children := by
        rw [← map_tree_children]
        exact List.mem_map_of_mem hc
      exact exists_isRow_addsText c (ih c.tree (List.mem_append_right _ htree) c rfl)
    choose! rowOf hrowOf using hrows
    refine ⟨x.children.flatMap rowOf, ?_, ?_, ?_⟩
    · intro n
      rw [List.mem_flatMap, throughElements_iff]
      constructor
      · rintro ⟨c, hc, hn⟩
        obtain ⟨htext, hplace⟩ := ((hrowOf c hc).mem_iff n).1 hn
        exact ⟨htext, c, hc, hplace⟩
      · rintro ⟨htext, c, hc, hplace⟩
        exact ⟨c, hc, ((hrowOf c hc).mem_iff n).2 ⟨htext, hplace⟩⟩
    · refine List.pairwise_flatMap.2 ⟨fun c hc => (hrowOf c hc).ordered, ?_⟩
      refine (pairwise_children x).imp_of_mem fun {c d} hc hd hcd a ha b hb => ?_
      exact hcd a b (((hrowOf c hc).mem_iff a).1 ha).path_isPrefix
        (((hrowOf d hd).mem_iff b).1 hb).path_isPrefix
    · rw [List.map_flatMap, ← map_tree_children, List.flatMap_map]
      exact List.flatMap_congr fun c hc => (hrowOf c hc).values_eq

/-! ### Sorting the row -/

theorem IsRow.nodup {keeps : Node F → Prop} {values : List String} (h : IsRow keeps values row) :
    row.Nodup := by
  refine h.ordered.imp fun {a b} hlt heq => ?_
  have hself : compare b.path b.path = .eq := Std.ReflCmp.compare_self
  rw [heq, hself] at hlt
  cases hlt

/-- A row within one tree is in document order already. -/
theorem IsRow.sort_eq {keeps : Node F → Prop} {values : List String} (h : IsRow keeps values row)
    (htree : OneTree row) : sort row = row := by
  refine List.Perm.eq_of_pairwise ?_ htree.pairwise_sort ?_ (sort_perm row)
  · intro a b ha hb hab hba
    exact position_inj (htree a (mem_sort.1 ha) b hb) (Nat.le_antisymm hab hba)
  · refine h.ordered.imp_of_mem fun {a b} ha hb hlt => ?_
    rw [compare_path (htree a ha b hb), Nat.compare_eq_lt] at hlt
    exact hlt.le

/-- The string value of a document or an element puts together the texts of exactly the text and
CDATA nodes below it through elements, in document order; no attribute is among them. -/
theorem stringValue_joins_texts (hx : x.kind = .document ∨ x.kind = .element) :
    (∃ texts : List (Node F), texts.Nodup ∧
      ∀ n, n ∈ texts ↔ n.IsText ∧ x.ThroughElements n) ∧
    (∀ texts : List (Node F), texts.Nodup →
      (∀ n, n ∈ texts ↔ n.IsText ∧ x.ThroughElements n) →
      (sort texts).Pairwise (fun a b => a.order? b = .ok .lt) ∧
      x.stringValue = String.join ((sort texts).map (·.label.value))) ∧
    ∀ p n : Node F, n ∈ p.attributes → ¬x.ThroughElements n := by
  obtain ⟨row, hrow⟩ := exists_isRow x
  refine ⟨⟨row, hrow.nodup, hrow.mem_iff⟩, ?_, fun p n => not_throughElements_of_mem_attributes⟩
  intro texts hnodup hmem
  have hroot : ∀ n, n ∈ texts → n.root = x.root := fun n hn => ((hmem n).1 hn).2.root_eq
  have htexts : OneTree texts := fun a ha b hb =>
    top_eq_iff.2 ((hroot a ha).trans (hroot b hb).symm)
  have hsame : ∀ n, n ∈ texts ↔ n ∈ row := fun n => (hmem n).trans (hrow.mem_iff n).symm
  have hsort : sort texts = row := by
    rw [htexts.sort_eq_sort_of_mem_iff hnodup hrow.nodup hsame,
      hrow.sort_eq (htexts.of_subset fun n => (hsame n).2)]
  refine ⟨htexts.pairwise_order? hnodup, ?_⟩
  rw [hsort, hrow.values_eq]
  exact Tree.stringValue_of_container hx

/-- An attribute, a comment and what stands below an instruction are passed over. -/
theorem stringValue_joins_texts_mixed :
    let t : Tree := .node (.element "a" none) [.node (.attr "id" none "r") [] []]
      [.node (.text "s") [] [],
       .node (.comment "c") [] [],
       .node (.element "b" none) [] [.node (.cdata "t") [] []],
       .node (.instruction "i" "v") [] [.node (.text "w") [] []]]
    let F : Forest := ⟨[t]⟩
    let x : Node F := ⟨0, [], by decide⟩
    x.kind = .element ∧
    ∃ texts : List (Node F), texts.Nodup ∧
      (∀ n, n ∈ texts ↔ n.IsText ∧ x.ThroughElements n) ∧
      String.join ((sort texts).map (·.label.value)) = "st" := by
  intro t F x
  have hkind : x.kind = .element := rfl
  obtain ⟨⟨texts, hnodup, hmem⟩, hvalue, -⟩ := stringValue_joins_texts (x := x) (Or.inr hkind)
  refine ⟨hkind, texts, hnodup, hmem, ?_⟩
  rw [← (hvalue texts hnodup hmem).2]
  decide

end Node

end FormExpr
