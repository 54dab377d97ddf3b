import FormExpr.Tree.Builder
import Mathlib.Data.List.Nodup

/-!
# What builders leave behind

Every call of a builder comes down to builds, and a build appends one record and gives a parent to
those of its branches that have none. So in every store branches are older than the node they belong
to, and the parent of a node is the first node that has it as a branch. Where no node is attached
twice, that is the only one.
-/

namespace FormExpr

namespace NodeRecord

/-- The first parent stays. -/
theorem adopt_adopt (parent : Nat) (r : NodeRecord) :
    (r.adopt parent).adopt parent = r.adopt parent := by
  simp [adopt]

end NodeRecord

/-! ### Builds -/

theorem getElem?_foldl_adopt (parent : Nat) (branches : List Nat) (records : List NodeRecord)
    (k : Nat) : (branches.foldl (fun records n => records.modify n (.adopt parent)) records)[k]? =
      records[k]?.map fun r => if k ∈ branches then r.adopt parent else r := by
  induction branches generalizing records with
  | nil => simp
  | cons n branches ih =>
    rw [List.foldl_cons, ih, List.getElem?_modify]
    cases records[k]? with
    | none => rfl
    | some r =>
      by_cases hn : n = k
      · by_cases hk : k ∈ branches <;> simp [hn, hk, NodeRecord.adopt_adopt]
      · simp [hn, Ne.symm hn]

namespace Builder

variable {b : Builder} {s : NodeStore}

theorem records_build (b : Builder) (s : NodeStore) : (b.build.run s).2.records =
    b.branches.foldl (fun records n => records.modify n (.adopt s.records.length))
      (s.records ++ [b.record]) :=
  rfl

/-- A record after a build is the new one, or an old one that may have got its parent. -/
theorem eq_of_getElem?_build (hb : b.IsReady s) {k : Nat} {r : NodeRecord}
    (hr : (b.build.run s).2.records[k]? = some r) :
    (k = s.records.length ∧ r = b.record) ∨
      ∃ old, s.records[k]? = some old ∧
        r = if k ∈ b.branches then old.adopt s.records.length else old := by
  rw [records_build, getElem?_foldl_adopt, Option.map_eq_some_iff] at hr
  obtain ⟨old, hold, rfl⟩ := hr
  rw [List.getElem?_append] at hold
  split at hold
  · exact Or.inr ⟨old, hold, rfl⟩
  · rw [List.getElem?_singleton, Option.ite_none_right_eq_some, Option.some.injEq] at hold
    obtain ⟨hlast, rfl⟩ := hold
    have hk : k = s.records.length := by omega
    have hnew : k ∉ b.branches := fun hmem => absurd (hb k hmem) (by omega)
    exact Or.inl ⟨hk, if_neg hnew⟩

theorem map_branches_build (b : Builder) (s : NodeStore) :
    (b.build.run s).2.records.map NodeRecord.branches =
      s.records.map NodeRecord.branches ++ [b.branches] := by
  have hrows : (s.records ++ [b.record]).map NodeRecord.branches =
      s.records.map NodeRecord.branches ++ [b.branches] := List.map_append
  rw [← hrows, records_build]
  apply List.ext_getElem?
  intro k
  rw [List.getElem?_map, List.getElem?_map, getElem?_foldl_adopt, Option.map_map]
  congr 1
  funext r
  rw [Function.comp_apply]
  split <;> rfl

/-- One node is added. -/
theorem length_build (b : Builder) (s : NodeStore) :
    (b.build.run s).2.records.length = s.records.length + 1 := by
  have hlength := congrArg List.length (map_branches_build b s)
  simpa using hlength

theorem IsReady.build (hb : b.IsReady s) (other : Builder) :
    b.IsReady (other.build.run s).2 := by
  intro n hn
  rw [length_build]
  exact Nat.lt_succ_of_lt (hb n hn)

end Builder

theorem Piece.IsReady.build {s : NodeStore} {piece : Piece} (hpiece : piece.IsReady s)
    (b : Builder) : piece.IsReady (b.build.run s).2 := by
  cases piece with
  | node number =>
    change number < (b.build.run s).2.records.length
    rw [Builder.length_build]
    exact Nat.lt_succ_of_lt hpiece
  | builder other => exact Builder.IsReady.build hpiece b

/-! ### Calls -/

namespace NodeStore

variable {s : NodeStore} {motive : NodeStore → Prop}

def IsKeptByBuilds (motive : NodeStore → Prop) : Prop :=
  ∀ (s : NodeStore) (b : Builder), b.IsReady s → motive s → motive (b.build.run s).2

theorem IsKeptByBuilds.finish (hbuild : IsKeptByBuilds motive) (hs : motive s) {piece : Piece}
    (hpiece : piece.IsReady s) : motive (piece.finish.run s).2 := by
  cases piece with
  | node number => exact hs
  | builder b => exact hbuild s b hpiece hs

theorem IsKeptByBuilds.mapM_finish (hbuild : IsKeptByBuilds motive) (hs : motive s)
    {pieces : List Piece} (hpieces : ∀ piece ∈ pieces, piece.IsReady s) :
    motive ((pieces.mapM Piece.finish).run s).2 := by
  induction pieces generalizing s with
  | nil => exact hs
  | cons piece pieces ih =>
    rw [List.mapM_cons]
    have hrest : ∀ other ∈ pieces, other.IsReady (piece.finish.run s).2 := by
      intro other hother
      have hready := hpieces other (List.mem_cons_of_mem piece hother)
      cases piece with
      | node number => exact hready
      | builder b => exact hready.build b
    exact ih (hbuild.finish hs (hpieces piece List.mem_cons_self)) hrest

/-- What holds of the empty store and is kept by every build holds of every store. -/
theorem IsBuilt.build_induction (hs : s.IsBuilt) (empty : motive ⟨[]⟩)
    (hbuild : IsKeptByBuilds motive) : motive s := by
  induction hs with
  | empty => exact empty
  | build _ b hb ih => exact hbuild _ b hb ih
  | addChild _ b hb piece hpiece ih => exact hbuild.finish ih hpiece
  | addChildren _ b hb pieces hpieces ih => exact hbuild.mapM_finish ih hpieces
  | addText _ b hb value ih =>
    exact hbuild _ (.start (.text value)) (fun n hn => absurd hn List.not_mem_nil) ih

/-! ### Branches and parents of a store -/

structure Sound (s : NodeStore) : Prop where
  lt_of_mem : ∀ (p : Nat) (r : NodeRecord), s.records[p]? = some r → ∀ n ∈ r.branches, n < p
  parent_eq : ∀ (n : Nat) (r : NodeRecord), s.records[n]? = some r →
    r.parent = (s.records.map NodeRecord.branches).findIdx? (n ∈ ·)

theorem sound_empty : Sound ⟨[]⟩ := by
  constructor
  all_goals
    intro k r hr
    rw [List.getElem?_nil] at hr
    cases hr

/-- A node that is not built yet is no one's branch. -/
theorem Sound.findIdx?_length (hs : s.Sound) :
    (s.records.map NodeRecord.branches).findIdx? (s.records.length ∈ ·) = none := by
  rw [List.findIdx?_eq_none_iff]
  intro branches hbranches
  obtain ⟨r, hr, rfl⟩ := List.mem_map.1 hbranches
  obtain ⟨p, hp, hrecord⟩ := List.getElem_of_mem hr
  refine decide_eq_false fun hmem => ?_
  have hlt := hs.lt_of_mem p r (List.getElem?_eq_some_iff.2 ⟨hp, hrecord⟩) _ hmem
  omega

/-- Soundness outlives the building of a node. -/
theorem Sound.build {b : Builder} (hs : s.Sound) (hb : b.IsReady s) :
    (b.build.run s).2.Sound := by
  constructor
  · intro p r hr n hn
    obtain ⟨rfl, rfl⟩ | ⟨old, hold, rfl⟩ := Builder.eq_of_getElem?_build hb hr
    · exact hb n hn
    · refine hs.lt_of_mem p old hold n ?_
      split at hn <;> exact hn
  · intro n r hr
    rw [Builder.map_branches_build, List.findIdx?_append, List.length_map,
      List.findIdx?_singleton]
    obtain ⟨rfl, rfl⟩ | ⟨old, hold, rfl⟩ := Builder.eq_of_getElem?_build hb hr
    · have hnew : s.records.length ∉ b.branches := fun hmem => absurd (hb _ hmem) (Nat.lt_irrefl _)
      rw [hs.findIdx?_length]
      simp [hnew, Builder.record]
    · rw [← hs.parent_eq n old hold]
      by_cases hn : n ∈ b.branches
      · simp [hn, NodeRecord.adopt]
      · simp [hn]

/-- Every store that is built is sound. -/
theorem IsBuilt.sound (hs : s.IsBuilt) : s.Sound :=
  hs.build_induction sound_empty fun _ _ hb hs => hs.build hb

/-! ### Nodes that are attached once -/

variable {n p : Nat} {node above : NodeRecord}

theorem AttachedOnce.nodup_branches (h : s.AttachedOnce) (hp : s.records[p]? = some above) :
    above.branches.Nodup :=
  (List.nodup_flatMap.1 h).1 above (List.mem_of_getElem? hp)

/-- No node is a branch of two. -/
theorem AttachedOnce.eq_of_mem (h : s.AttachedOnce) {q : Nat} {other : NodeRecord}
    (hp : s.records[p]? = some above) (hq : s.records[q]? = some other)
    (habove : n ∈ above.branches) (hother : n ∈ other.branches) : p = q := by
  have hpairwise := (List.nodup_flatMap.1 h).2
  rw [List.pairwise_iff_getElem] at hpairwise
  obtain ⟨hpLt, rfl⟩ := List.getElem?_eq_some_iff.1 hp
  obtain ⟨hqLt, rfl⟩ := List.getElem?_eq_some_iff.1 hq
  rcases Nat.lt_trichotomy p q with hlt | heq | hgt
  · exact absurd hother (hpairwise p q hpLt hqLt hlt habove)
  · exact heq
  · exact absurd habove (hpairwise q p hqLt hpLt hgt hother)

/-- Where nodes are attached once, the first node with a branch is the only one. -/
theorem Sound.parent_eq_some_iff (hs : s.Sound) (h : s.AttachedOnce)
    (hn : s.records[n]? = some node) (hp : s.records[p]? = some above) :
    node.parent = some p ↔ n ∈ above.branches := by
  have hfirst : ∀ q, node.parent = some q →
      ∃ other, s.records[q]? = some other ∧ n ∈ other.branches := by
    intro q hq
    rw [hs.parent_eq n node hn] at hq
    obtain ⟨hqLt, hmem, -⟩ := List.findIdx?_eq_some_iff_getElem.1 hq
    rw [List.length_map] at hqLt
    refine ⟨s.records[q], List.getElem?_eq_getElem hqLt, ?_⟩
    simpa using hmem
  constructor
  · intro hparent
    obtain ⟨other, hother, hmem⟩ := hfirst p hparent
    rw [hp, Option.some.injEq] at hother
    rwa [hother]
  · intro hmem
    cases hparent : node.parent with
    | none =>
      rw [hs.parent_eq n node hn, List.findIdx?_eq_none_iff] at hparent
      have hnot := hparent above.branches (List.mem_map_of_mem (List.mem_of_getElem? hp))
      exact absurd hmem (of_decide_eq_false hnot)
    | some q =>
      obtain ⟨other, hother, hmem'⟩ := hfirst q hparent
      rw [h.eq_of_mem hp hother hmem hmem']

end NodeStore

end FormExpr
