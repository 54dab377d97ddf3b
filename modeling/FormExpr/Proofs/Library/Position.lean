import FormExpr.Proofs.Library.Subject
import FormExpr.Proofs.Number.Sum
import FormExpr.Proofs.Tree.Sibling

/-!
# Positions among siblings

The position of a node set is the number of its first node among the siblings of its kind and name.
So the positions of the children of one kind and name count them, as long as doubles are exact.
-/

namespace FormExpr

variable {F : Forest} {nodes : List (Node F)} {m : Node F}

open Binary64 (exactLimit)

/-- Within one tree the first node precedes all other members in document order. -/
theorem Node.OneTree.order?_of_first? (h : Node.OneTree nodes) (hm : Node.first? nodes = some m) :
    m ∈ nodes ∧ ∀ n ∈ nodes, n ≠ m → m.order? n = .ok .lt := by
  obtain ⟨hmem, hle⟩ := h.first?_eq_some_iff.1 hm
  refine ⟨hmem, fun n hn hne => ?_⟩
  have htop : m.top = n.top := h m hmem n hn
  have hplace : n.position ≠ m.position := fun heq => hne (Node.position_inj htop.symm heq)
  rw [Node.order?_of_top_eq htop, Nat.compare_eq_lt.2 (lt_of_le_of_ne (hle n hn) hplace.symm)]

namespace Library

def numbered (F : Forest) (i : Nat) : Result F :=
  .ok (.number (Float.ofNat i))

theorem eq_of_numbered_eq {i j : Nat} (hi : i < exactLimit) (hj : j < exactLimit)
    (heq : numbered F i = numbered F j) : i = j := by
  have hfloat : Float.ofNat i = Float.ofNat j := Value.number.inj (Except.ok.inj heq)
  have hle : Float.ofNat i ≤ Float.ofNat i := Binary64.ofNat_le_ofNat le_rfl
  refine Nat.le_antisymm ?_ ?_
  · exact (Binary64.ofNat_le_ofNat_iff hi).1 (hfloat ▸ hle)
  · exact (Binary64.ofNat_le_ofNat_iff hj).1 (hfloat ▸ hle)

section

variable (context : Context F) (environment : Environment)

/-- The position of a node set is the number of its first node. -/
theorem call_position (nodes : List (Node F)) :
    Registry.builtin.call "position" context environment [.nodeSet nodes] = .ok (.number
      (((Node.first? nodes).map fun n => Float.ofNat n.siblingNumber).getD Binary64.nan)) := by
  have hfind : Registry.builtin.find? "position" = some (.optional (position : Call F → _)) := rfl
  rw [Function.call_of_find? hfind]
  exact position_nodeSet _ nodes

theorem call_position_singleton (n : Node F) :
    Registry.builtin.call "position" context environment [.nodeSet [n]] =
      numbered F n.siblingNumber :=
  call_position context environment [n]

theorem call_position_of_first? (hm : Node.first? nodes = some m) :
    Registry.builtin.call "position" context environment [.nodeSet nodes] =
      Registry.builtin.call "position" context environment [.nodeSet [m]] := by
  rw [call_position, hm]
  rfl

end

/-- The children of one kind and name have the positions from one on, in their order. A root is
alone, and so is an attribute unless children are attributes of its name. Of several nodes of one
tree the first in document order decides. -/
theorem position_numbers_siblings (context : Context F) (environment : Environment) :
    let place := fun nodes : List (Node F) =>
      Registry.builtin.call "position" context environment [.nodeSet nodes]
    (∀ (p : Node F) (kind : NodeKind) (name : Option QName),
      let alike := p.childrenNamed kind name
      alike.map (fun n => place [n]) = (List.range' 1 alike.length).map (numbered F) ∧
      (alike.length < exactLimit → (alike.map fun n => place [n]).Nodup)) ∧
    (∀ n : Node F, n.parent = none → place [n] = numbered F 1) ∧
    (∀ p : Node F, ∀ n ∈ p.attributes,
      place [n] = numbered F (max (p.children.countP n.isAlike) 1) ∧
      ((∀ child ∈ p.children, child.kind ≠ n.kind) → place [n] = numbered F 1)) ∧
    (∀ nodes : List (Node F), Node.OneTree nodes → nodes ≠ [] →
      ∃ m ∈ nodes, (∀ n ∈ nodes, n ≠ m → m.order? n = .ok .lt) ∧ place nodes = place [m]) ∧
    place [] = .ok (.number Binary64.nan) := by
  intro place
  have hplace : ∀ n, place [n] = numbered F n.siblingNumber :=
    call_position_singleton context environment
  refine ⟨fun p kind name => ?_, fun n hn => ?_, fun p n hn => ⟨?_, fun hapart => ?_⟩, ?_, ?_⟩
  · intro alike
    have hnumbers : alike.map (fun n => place [n]) =
        (List.range' 1 alike.length).map (numbered F) := by
      rw [← Node.map_siblingNumber, List.map_map]
      exact List.map_congr_left fun n _ => hplace n
    refine ⟨hnumbers, fun hlimit => ?_⟩
    rw [hnumbers]
    refine List.Nodup.map_on (fun i hi j hj heq => ?_) List.nodup_range'
    rw [List.mem_range'_1] at hi hj
    exact eq_of_numbered_eq (by omega) (by omega) heq
  · rw [hplace, Node.siblingNumber_of_parent_eq_none hn]
  · rw [hplace, Node.siblingNumber_of_mem_attributes hn]
  · rw [hplace, Node.siblingNumber_attribute hn hapart]
  · intro nodes hone hne
    obtain ⟨m, hm⟩ := Option.ne_none_iff_exists'.1 (mt Node.first?_eq_none_iff.1 hne)
    obtain ⟨hmem, hfirst⟩ := hone.order?_of_first? hm
    exact ⟨m, hmem, hfirst, call_position_of_first? context environment hm⟩
  · exact call_position context environment []

/-- Two questions stand around a note, and an attribute bears their name. -/
theorem position_numbers_siblings_questions :
    let question : Tree := .node (.element "q" none) [] []
    let form : Tree := .node (.element "form" none) [.node (.attr "q" none "") [] []]
      [question, .node (.element "note" none) [] [], question]
    let F : Forest := ⟨[form]⟩
    let root : Node F := ⟨0, [], by decide⟩
    let label : Node F := ⟨0, [0], by decide⟩
    let first : Node F := ⟨0, [1], by decide⟩
    let last : Node F := ⟨0, [3], by decide⟩
    let context : Context F := ⟨none, 1, 1⟩
    let environment : Environment := .standard (.fixed 0) ⟨0, 0, 0⟩ fun _ => 0
    let place := fun nodes : List (Node F) =>
      Registry.builtin.call "position" context environment [.nodeSet nodes]
    root.childrenNamed .element (some (.unqualified "q")) = [first, last] ∧
    [place [first], place [last]] = [numbered F 1, numbered F 2] ∧
    [place [first], place [last]].Nodup ∧
    root.parent = none ∧ place [root] = numbered F 1 ∧
    label ∈ root.attributes ∧ (∀ child ∈ root.children, child.kind ≠ label.kind) ∧
    place [label] = numbered F 1 ∧
    Node.OneTree [last, first] ∧ place [last, first] = place [first] := by
  intro question form F root label first last context environment place
  obtain ⟨hchildren, hroots, hattributes, hsets, -⟩ :=
    position_numbers_siblings context environment
  have halike : root.childrenNamed .element (some (.unqualified "q")) = [first, last] := by decide
  obtain ⟨hnumbers, hdistinct⟩ := hchildren root .element (some (.unqualified "q"))
  rw [halike] at hnumbers hdistinct
  have hroot : root.parent = none := by decide
  have hlabel : label ∈ root.attributes := by decide
  have hapart : ∀ child ∈ root.children, child.kind ≠ label.kind := by decide
  have hone : Node.OneTree [last, first] := by decide
  obtain ⟨m, hm, hfirst, hset⟩ := hsets [last, first] hone (List.cons_ne_nil _ _)
  have hm' : m = first := by
    by_contra hne
    obtain rfl : m = last := by simpa [hne] using hm
    exact absurd (hfirst first (by decide) (Ne.symm hne)) (by decide)
  refine ⟨halike, hnumbers, hdistinct (by decide), hroot, hroots root hroot, hlabel, hapart,
    (hattributes root label hlabel).2 hapart, hone, ?_⟩
  exact hset.trans (congrArg (fun n => place [n]) hm')

/-- A name with nothing in the place of a part that it does not have. -/
def nameParts (q : QName) : String × String × String :=
  (q.qualifier.getD "", q.localName, q.namespaceUri.getD "")

/-- An attribute does not always have the number one, as children may be attributes as well.
Children with equal parts of their names may be numbered apart: the empty namespace is not taken for
none. -/
theorem not_forall_position_eq_one :
    (¬ ∀ (F : Forest) (context : Context F) (environment : Environment) (p n : Node F),
      n ∈ p.attributes →
      Registry.builtin.call "position" context environment [.nodeSet [n]] = numbered F 1) ∧
    ¬ ∀ (F : Forest) (context : Context F) (environment : Environment) (p m n : Node F),
      m ∈ p.children → n ∈ p.children → m ≠ n → m.kind = n.kind →
      m.name.map nameParts = n.name.map nameParts →
      Registry.builtin.call "position" context environment [.nodeSet [m]] ≠
        Registry.builtin.call "position" context environment [.nodeSet [n]] := by
  constructor
  · intro hall
    let id (value : String) : Tree := .node (.attr "id" none value) [] []
    let F : Forest := ⟨[.node (.element "a" none) [id "1"] [id "2", id "3"]]⟩
    let root : Node F := ⟨0, [], by decide⟩
    let own : Node F := ⟨0, [0], by decide⟩
    have hone := hall F ⟨none, 1, 1⟩ (.standard (.fixed 0) ⟨0, 0, 0⟩ fun _ => 0) root own
      (by decide)
    have hnumber : own.siblingNumber = 2 := by decide
    rw [call_position_singleton, hnumber] at hone
    exact absurd (eq_of_numbered_eq (by decide) (by decide) hone) (by decide)
  · intro hall
    let question (uri : Option String) : Tree := .node (.element "q" uri) [] []
    let F : Forest := ⟨[.node (.element "a" none) [] [question (some ""), question none]]⟩
    let root : Node F := ⟨0, [], by decide⟩
    let first : Node F := ⟨0, [0], by decide⟩
    let last : Node F := ⟨0, [1], by decide⟩
    have hapart := hall F ⟨none, 1, 1⟩ (.standard (.fixed 0) ⟨0, 0, 0⟩ fun _ => 0) root first last
      (by decide) (by decide) (by decide) (by decide) (by decide)
    have hfirst : first.siblingNumber = 1 := by decide
    have hlast : last.siblingNumber = 1 := by decide
    rw [call_position_singleton, call_position_singleton, hfirst, hlast] at hapart
    exact hapart rfl

end Library

end FormExpr
