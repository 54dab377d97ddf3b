import FormExpr.Proofs.Tree.Builder
import FormExpr.Proofs.Tree.Links

/-!
# Built nodes and the nodes of a forest

The nodes in use of a store fall into trees, one below each node whose parent is not in use. Read as
a forest they are places: a place is followed from the root of its tree, one branch number after the
other. Where no node was attached twice, every node in use stands in one place, and parent,
attributes and children are those of the place. So whatever was built, in whatever order, is
navigated as a forest, and its parents and branches are inverse.
-/

namespace FormExpr.Grove

variable {G : Grove}

namespace Member

variable {m n p : G.Member}

theorem getElem?_record (m : G.Member) : G.store.records[m.1]? = some m.record :=
  List.getElem?_eq_getElem (G.lt_length m.1 m.2)

def branches (m : G.Member) : List G.Member :=
  m.attributes ++ m.children

theorem branches_eq_attachWith (m : G.Member) :
    m.branches = m.record.branches.attachWith (G.inUse · = true) m.inUse_of_mem_branches :=
  List.attachWith_append.symm

theorem mem_branches_iff_val : n ∈ p.branches ↔ n.1 ∈ p.record.branches := by
  rw [branches_eq_attachWith, List.mem_attachWith]

theorem parent_eq_some_iff_val : n.parent = some p ↔ n.record.parent = some p.1 := by
  rw [parent, Option.bind_eq_some_iff]
  constructor
  · rintro ⟨q, hq, heq⟩
    rw [Option.dite_none_right_eq_some] at heq
    obtain ⟨hq', heq⟩ := heq
    rw [hq, ← Option.some.inj heq]
  · intro hparent
    exact ⟨p.1, hparent, dif_pos p.2⟩

theorem lt_of_mem_branches (hn : n ∈ p.branches) : n.1 < p.1 :=
  G.isBuilt.sound.lt_of_mem p.1 p.record p.getElem?_record n.1 (mem_branches_iff_val.1 hn)

/-- Parents and branches are inverse among the nodes in use. -/
theorem mem_branches_iff (h : G.store.AttachedOnce) : n ∈ p.branches ↔ n.parent = some p := by
  rw [mem_branches_iff_val, parent_eq_some_iff_val,
    G.isBuilt.sound.parent_eq_some_iff h n.getElem?_record p.getElem?_record]

theorem nodup_branches (h : G.store.AttachedOnce) (p : G.Member) : p.branches.Nodup := by
  refine List.Nodup.of_map Subtype.val ?_
  rw [branches_eq_attachWith, List.attachWith_map_subtype_val]
  exact h.nodup_branches p.getElem?_record

end Member

/-! ### Ways up and down -/

theorem matches_linkage (h : G.store.AttachedOnce) : G.linkage.Matches :=
  Linkage.matches_iff.2 ⟨fun _ _ => Member.mem_branches_iff h, Member.nodup_branches h⟩

theorem branchesEnd (G : Grove) : G.linkage.BranchesEnd :=
  Subrelation.wf Member.lt_of_mem_branches (measure fun m : G.Member => m.1).wf

/-- A parent is younger than its branches, and none is younger than the last node built. -/
theorem parentsEnd (h : G.store.AttachedOnce) : G.linkage.ParentsEnd := by
  refine Subrelation.wf ?_ (measure fun m : G.Member => G.store.records.length - m.1).wf
  intro p n hparent
  have hlt := Member.lt_of_mem_branches ((Member.mem_branches_iff h).2 hparent)
  have hp := G.lt_length p.1 p.2
  change G.store.records.length - p.1 < G.store.records.length - n.1
  omega

/-- The linkage of the nodes in use is inverse, and its chains end. -/
theorem inverse_linkage (h : G.store.AttachedOnce) : G.linkage.Inverse :=
  (matches_linkage h).inverse (parentsEnd h) (branchesEnd G)

/-! ### The forest -/

def Member.tree (m : G.Member) : Tree :=
  .node m.label
    (m.attributes.attach.map fun n => n.1.tree)
    (m.children.attach.map fun n => n.1.tree)
termination_by m.1
decreasing_by
  · exact Member.lt_of_mem_branches (List.mem_append_left _ n.2)
  · exact Member.lt_of_mem_branches (List.mem_append_right _ n.2)

def members (G : Grove) : List G.Member :=
  ((List.range G.store.records.length).filter G.inUse).attachWith (G.inUse · = true)
    fun _ hn => (List.mem_filter.1 hn).2

def roots (G : Grove) : List G.Member :=
  G.members.filter fun m => m.parent.isNone

def forest (G : Grove) : Forest :=
  ⟨G.roots.map Member.tree⟩

theorem mem_roots_iff {m : G.Member} : m ∈ G.roots ↔ m.parent = none := by
  rw [roots, List.mem_filter, Option.isNone_iff_eq_none]
  refine and_iff_right ?_
  rw [members, List.mem_attachWith, List.mem_filter, List.mem_range]
  exact ⟨G.lt_length m.1 m.2, m.2⟩

theorem nodup_roots (G : Grove) : G.roots.Nodup := by
  refine List.Nodup.filter _ (List.Nodup.of_map Subtype.val ?_)
  rw [members, List.attachWith_map_subtype_val]
  exact List.nodup_range.filter _

namespace Member

variable {m n p : G.Member}

theorem tree_eq (m : G.Member) :
    m.tree = .node m.label (m.attributes.map tree) (m.children.map tree) := by
  rw [tree, List.attach_map_val, List.attach_map_val]

theorem branches_tree (m : G.Member) : m.tree.branches = m.branches.map tree := by
  rw [tree_eq, branches, List.map_append]
  rfl

def below? : G.Member → List Nat → Option G.Member
  | m, [] => some m
  | m, i :: path => m.branches[i]?.bind (·.below? path)

theorem below?_append (m : G.Member) (path rest : List Nat) :
    m.below? (path ++ rest) = (m.below? path).bind (·.below? rest) := by
  induction path generalizing m with
  | nil => rfl
  | cons i path ih =>
    rw [List.cons_append, below?, below?, Option.bind_assoc]
    simp only [ih]

theorem at?_tree (m : G.Member) (path : List Nat) :
    m.tree.at? path = (m.below? path).map tree := by
  induction path generalizing m with
  | nil => rfl
  | cons i path ih =>
    rw [Tree.at?_cons, below?, branches_tree, List.getElem?_map]
    cases m.branches[i]? with
    | none => rfl
    | some n => exact ih n

end Member

/-- Reading a forest at a path walks down the branches of the store. -/
theorem at?_forest (G : Grove) (root : Nat) (path : List Nat) :
    G.forest.at? root path = (G.roots[root]?.bind (·.below? path)).map Member.tree := by
  rw [Forest.at?, forest, List.getElem?_map]
  cases G.roots[root]? with
  | none => rfl
  | some m => exact m.at?_tree path

/-! ### Places -/

def memberAt (x : Node G.forest) : G.Member :=
  (G.roots[x.root]?.bind (·.below? x.path)).get (by
    have hmem := x.mem
    rwa [at?_forest, Option.isSome_map] at hmem)

variable {x y : Node G.forest}

theorem below?_eq_some_memberAt (x : Node G.forest) :
    G.roots[x.root]?.bind (·.below? x.path) = some (memberAt x) := by
  rw [memberAt, Option.some_get]

/-- Every place of the forest holds the tree of its member. -/
theorem tree_memberAt (x : Node G.forest) : (memberAt x).tree = x.tree := by
  have hat := x.at?_eq_some_tree
  rw [at?_forest, below?_eq_some_memberAt, Option.map_some] at hat
  exact Option.some.inj hat

theorem label_memberAt (x : Node G.forest) : (memberAt x).label = x.label := by
  rw [Node.label, ← tree_memberAt, Member.tree_eq]
  rfl

theorem getElem?_branches_memberAt {i : Nat} (hi : i < x.tree.branches.length) :
    (memberAt x).branches[i]? = some (memberAt (x.branch i hi)) := by
  rw [← below?_eq_some_memberAt, Node.branch_root, Node.branch_path]
  simp only [Member.below?_append]
  rw [← Option.bind_assoc, below?_eq_some_memberAt, Option.bind_some, Member.below?]
  cases (memberAt x).branches[i]? <;> rfl

/-- Places and members have the same branches, -/
theorem map_memberAt_branches (x : Node G.forest) :
    x.branches.map memberAt = (memberAt x).branches := by
  have hlength : x.tree.branches.length = (memberAt x).branches.length := by
    rw [← tree_memberAt, Member.branches_tree, List.length_map]
  rw [Node.branches_eq_ofFn, List.map_ofFn]
  apply List.ext_getElem
  · rw [List.length_ofFn, hlength]
  · intro i hleft hright
    rw [List.getElem_ofFn, Function.comp_apply]
    have hat := getElem?_branches_memberAt (x := x) (hlength ▸ hright)
    exact ((List.getElem?_eq_some_iff.1 hat).2).symm

theorem map_memberAt_links (x : Node G.forest) :
    x.attributes.map memberAt = (memberAt x).attributes ∧
      x.children.map memberAt = (memberAt x).children := by
  have hbranches := map_memberAt_branches x
  rw [Node.branches, List.map_append, Member.branches] at hbranches
  refine List.append_inj hbranches ?_
  have hlength : x.tree.attributes.length = (memberAt x).attributes.length := by
    rw [← tree_memberAt, Member.tree_eq]
    exact List.length_map Member.tree
  rw [List.length_map, ← hlength, Node.attributes, List.length_ofFn]

theorem getElem?_roots (hx : x.parent = none) : G.roots[x.root]? = some (memberAt x) := by
  have hat := below?_eq_some_memberAt x
  rw [Node.parent_eq_none_iff.1 hx, Option.bind_eq_some_iff] at hat
  obtain ⟨root, hroot, heq⟩ := hat
  rw [hroot, ← heq]
  rfl

/-- and the same parents. -/
theorem parent_memberAt (h : G.store.AttachedOnce) (x : Node G.forest) :
    (memberAt x).parent = x.parent.map memberAt := by
  cases hx : x.parent with
  | none => exact mem_roots_iff.1 (List.mem_of_getElem? (getElem?_roots hx))
  | some p =>
    rw [Option.map_some, ← Member.mem_branches_iff h, ← map_memberAt_branches]
    exact List.mem_map_of_mem (Node.mem_branches_iff.2 hx)

/-- No member stands in two places. -/
theorem memberAt_injective (h : G.store.AttachedOnce) :
    Function.Injective (memberAt : Node G.forest → G.Member) := by
  intro x
  -- The two nodes have one way up; they agree if their parents do.
  induction x using WellFounded.induction (Node.parentsEnd G.forest) with
  | _ x ih =>
    intro y heq
    have hparent := parent_memberAt h x
    rw [heq, parent_memberAt h y] at hparent
    cases hx : x.parent with
    | none =>
      rw [hx, Option.map_none, Option.map_eq_none_iff] at hparent
      have hroots : G.roots[x.root]? = G.roots[y.root]? := by
        rw [getElem?_roots hx, getElem?_roots hparent, heq]
      have hlt := (List.getElem?_eq_some_iff.1 (getElem?_roots hx)).1
      refine Node.ext (List.getElem?_inj hlt G.nodup_roots |>.1 hroots) ?_
      rw [Node.parent_eq_none_iff.1 hx, Node.parent_eq_none_iff.1 hparent]
    | some p =>
      rw [hx, Option.map_some, Option.map_eq_some_iff] at hparent
      obtain ⟨q, hy, hq⟩ := hparent
      obtain rfl := ih p hx hq.symm
      obtain ⟨i, hi, rfl⟩ := Node.exists_branch_of_parent_eq_some hx
      obtain ⟨j, hj, rfl⟩ := Node.exists_branch_of_parent_eq_some hy
      have hbranches : (memberAt p).branches[i]? = (memberAt p).branches[j]? := by
        rw [getElem?_branches_memberAt hi, getElem?_branches_memberAt hj, heq]
      have hlt := (List.getElem?_eq_some_iff.1 (getElem?_branches_memberAt hi)).1
      exact Node.branch_inj.2 (List.getElem?_inj hlt (Member.nodup_branches h _) |>.1 hbranches)

/-- Every member stands in one. -/
theorem memberAt_surjective (h : G.store.AttachedOnce) :
    Function.Surjective (memberAt : Node G.forest → G.Member) := by
  intro m
  induction m using WellFounded.induction (parentsEnd h) with
  | _ m ih =>
    cases hm : m.parent with
    | none =>
      obtain ⟨i, hi⟩ := List.mem_iff_getElem?.1 (mem_roots_iff.2 hm)
      have hmem : (G.forest.at? i []).isSome = true := by
        rw [at?_forest, hi]
        rfl
      refine ⟨⟨i, [], hmem⟩, ?_⟩
      exact Option.some.inj ((below?_eq_some_memberAt _).symm.trans (by simp only [hi]; rfl))
    | some p =>
      obtain ⟨x, rfl⟩ := ih p hm
      have hmem := (Member.mem_branches_iff h).2 hm
      rw [← map_memberAt_branches, List.mem_map] at hmem
      obtain ⟨y, -, hy⟩ := hmem
      exact ⟨y, hy⟩

/-- Parents and branches are inverse in every forest of places, where ways up lead through the
lineages and walks follow the order of paths, and among the nodes in use of every store in which
none was attached twice. Each of these stands in one place of a forest, and its parent, its
attributes and its children are those of the place. -/
theorem links_stay_inverse :
    (∀ F : Forest, ∃ h : (Node.linkage F).Inverse, ∀ n : Node F,
      h.parentsEnd.rootOf n = n.top ∧
      h.parentsEnd.pathToRoot n = n.lineage ∧
      (h.branchesEnd.walk n).map Node.path = n.tree.preorder.map (n.path ++ ·)) ∧
    ∀ G : Grove, G.store.AttachedOnce → G.linkage.Inverse ∧
      Function.Bijective (memberAt : Node G.forest → G.Member) ∧
      ∀ x : Node G.forest,
        (memberAt x).label = x.label ∧
        (memberAt x).parent = x.parent.map memberAt ∧
        (memberAt x).attributes = x.attributes.map memberAt ∧
        (memberAt x).children = x.children.map memberAt := by
  refine ⟨fun F => ⟨Node.inverse_linkage F, fun n => ?_⟩, fun G h => ?_⟩
  · exact ⟨Node.rootOf_eq_top n, Node.pathToRoot_eq_lineage n, Node.map_path_walk n⟩
  · refine ⟨inverse_linkage h, ⟨memberAt_injective h, memberAt_surjective h⟩, fun x => ?_⟩
    obtain ⟨hattributes, hchildren⟩ := map_memberAt_links x
    exact ⟨label_memberAt x, parent_memberAt h x, hattributes.symm, hchildren.symm⟩

/-- A text and an attribute get their parent, and that one its own, by builders finished inside each
other; the document above another text is not in use any more. -/
theorem links_stay_inverse_nested :
    let text : Builder := .start (.text "t")
    let ident : Builder := .start (.attr "id" none "r")
    let inner : Builder := ⟨.element "a" none, [1], [0]⟩
    let G : Grove :=
      { store := _
        isBuilt := NodeStore.IsBuilt.empty
          |>.build text (by decide)
          |>.build ident (by decide)
          |>.addChild (.start (.element "b" none)) (by decide) (.builder inner) (by decide)
          |>.build ⟨.element "b" none, [], [2]⟩ (by decide)
          |>.addText (.start .document) (by decide) "u"
          |>.build ⟨.document, [], [4]⟩ (by decide)
        inUse := fun n => n < 5
        lt_length := fun n hn => Nat.lt_trans (of_decide_eq_true hn) (by decide)
        inUse_branches := by decide }
    let leaf : G.Member := ⟨0, rfl⟩
    let parent : G.Member := ⟨2, rfl⟩
    let root : G.Member := ⟨3, rfl⟩
    let orphan : G.Member := ⟨4, rfl⟩
    G.store.AttachedOnce ∧ leaf.parent = some parent ∧ parent.parent = some root ∧
    leaf ∈ parent.branches ∧ orphan.record.parent = some 5 ∧ orphan.parent = none ∧
    ∃ h : G.linkage.Inverse, leaf ∈ h.branchesEnd.walk root ∧ orphan ∉ h.branchesEnd.walk root := by
  intro text ident inner G leaf parent root orphan
  have honce : G.store.AttachedOnce := by decide
  have hleaf : G.linkage.parent leaf = some parent := rfl
  have hparent : G.linkage.parent parent = some root := rfl
  have hroot : G.linkage.parent root = none := rfl
  have horphan : G.linkage.parent orphan = none := rfl
  obtain ⟨hinverse, -⟩ := links_stay_inverse.2 G honce
  have hup := hinverse.parentsEnd
  refine ⟨honce, hleaf, hparent, ?_, rfl, horphan, hinverse, ?_, ?_⟩
  · exact ((Linkage.matches_iff.1 hinverse.matches_branches).1 leaf parent).2 hleaf
  · rw [hinverse.mem_walk_iff hroot, hup.rootOf_of_parent_eq_some hleaf,
      hup.rootOf_of_parent_eq_some hparent, hup.rootOf_of_parent_eq_none hroot]
  · rw [hinverse.mem_walk_iff hroot, hup.rootOf_of_parent_eq_none horphan]
    decide

end FormExpr.Grove
