import FormExpr.Library.Builtin
import FormExpr.Proofs.Function.Shape
import FormExpr.Proofs.Tree.First

/-!
# Functions of the first node

Casts and the functions about names and places read one node of a node set, the first in document
order. So within one tree their answers depend on which nodes are in the set, and not on the order
or the number of times they are listed. A shuffle with a seed depends on the multiplicities as well.
-/

namespace FormExpr

variable {F : Forest}

/-- Of a node set the function reads the first node alone, and it always answers. -/
def Function.ReadsFirst (f : Function F) : Prop :=
  ∀ call, ∃ answer : Option (Node F) → Value F,
    ∀ nodes, f.apply call [.nodeSet nodes] = .ok (answer (Node.first? nodes))

namespace Library

theorem subjectName_readsFirst (name : Node F → Option String) : (subjectName name).ReadsFirst :=
  fun _ => ⟨fun first => .string ((first.bind name).getD ""), fun _ => rfl⟩

theorem position_nodeSet (call : Call F) (nodes : List (Node F)) :
    position call (some (.nodeSet nodes)) = .ok (.number
      (((Node.first? nodes).map fun n => Float.ofNat n.siblingNumber).getD Binary64.nan)) := by
  rw [position]
  simp only [members, bind, Except.bind]
  cases Node.first? nodes with
  | none => rfl
  | some n => rfl

theorem position_readsFirst : (Function.optional (position : Call F → _)).ReadsFirst := by
  intro call
  refine ⟨fun first => .number ((first.map fun n => Float.ofNat n.siblingNumber).getD Binary64.nan),
    fun nodes => ?_⟩
  exact position_nodeSet call nodes

def subjectFunctions : List (String × Function F) :=
  [("name", subjectName name), ("local-name", subjectName localName),
    ("namespace-uri", subjectName namespaceUri), ("position", .optional position)]

/-- All functions about one node read the first node alone. -/
theorem subjectFunctions_readFirst :
    ∀ entry ∈ (subjectFunctions : List (String × Function F)),
      Registry.builtin.find? entry.1 = some entry.2 ∧ entry.2.ReadsFirst := by
  simp only [subjectFunctions, List.forall_mem_cons]
  exact ⟨⟨rfl, subjectName_readsFirst _⟩, ⟨rfl, subjectName_readsFirst _⟩,
    ⟨rfl, subjectName_readsFirst _⟩, ⟨rfl, position_readsFirst⟩, nofun⟩

/-- So they answer alike for node sets with the same first node. -/
theorem call_eq_of_first?_eq {a b : List (Node F)} (hfirst : Node.first? a = Node.first? b)
    {entry : String × Function F} (hentry : entry ∈ subjectFunctions) (context : Context F)
    (environment : Environment) :
    ∃ v, Registry.builtin.call entry.1 context environment [.nodeSet a] = .ok v ∧
      Registry.builtin.call entry.1 context environment [.nodeSet b] = .ok v := by
  obtain ⟨hfind, hreads⟩ := subjectFunctions_readFirst entry hentry
  obtain ⟨answer, hanswer⟩ := hreads ⟨entry.1, context, environment⟩
  refine ⟨answer (Node.first? a), ?_, ?_⟩
  · rw [Function.call_of_find? hfind, hanswer]
  · rw [Function.call_of_find? hfind, hanswer, hfirst]

theorem call_randomize_eq_of_sort_eq {a b : List (Node F)} (hsort : Node.sort a = Node.sort b)
    (context : Context F) (environment : Environment) (v : Value F) :
    Registry.builtin.call "randomize" context environment [.nodeSet a, v] =
      Registry.builtin.call "randomize" context environment [.nodeSet b, v] := by
  have hcall : ∀ nodes : List (Node F),
      Registry.builtin.call "randomize" context environment [.nodeSet nodes, v] =
        seed ⟨"randomize", context, environment⟩ v >>= fun x =>
          .ok (.nodeSet (Shuffle.seeded x (Node.sort nodes))) := fun _ => rfl
  rw [hcall, hcall, hsort]

/-- The first node is the head of the sorted list. So within one tree the members of a node set
decide its text, number and date and what is said of its subject, and with their multiplicities how
it is shuffled under a seed. -/
theorem members_decide_answers (F : Forest) :
    (∀ nodes : List (Node F), Node.first? nodes = (Node.sort nodes).head? ∧
      (Node.first? nodes = none ↔ nodes = [])) ∧
    ∀ a b : List (Node F), Node.OneTree a → (∀ n, n ∈ a ↔ n ∈ b) →
      (Value.nodeSet a).toText = (Value.nodeSet b).toText ∧
      (∀ z, (Value.nodeSet a).toNumber z = (Value.nodeSet b).toNumber z) ∧
      (∀ z, (Value.nodeSet a).toMoment z = (Value.nodeSet b).toMoment z) ∧
      ∀ (context : Context F) (environment : Environment),
        (∀ name ∈ ["name", "local-name", "namespace-uri", "position"],
          ∃ v, Registry.builtin.call name context environment [.nodeSet a] = .ok v ∧
            Registry.builtin.call name context environment [.nodeSet b] = .ok v) ∧
        (a.Perm b → ∀ v : Value F,
          Registry.builtin.call "randomize" context environment [.nodeSet a, v] =
            Registry.builtin.call "randomize" context environment [.nodeSet b, v]) := by
  refine ⟨fun nodes => ⟨Node.first?_eq_head?_sort nodes, Node.first?_eq_none_iff⟩, ?_⟩
  intro a b hone hmem
  have hfirst : Node.first? a = Node.first? b := hone.first?_eq_first? hmem
  have hstring : Node.firstString a = Node.firstString b := by
    rw [Node.firstString, Node.firstString, hfirst]
  refine ⟨hstring, fun z => ?_, fun z => ?_, fun context environment => ⟨?_, ?_⟩⟩
  · rw [Value.toNumber, Value.toNumber, hstring]
  · rw [Value.toMoment, Value.toMoment, hstring]
  · intro name hname
    obtain ⟨entry, hentry, rfl⟩ : ∃ entry ∈ (subjectFunctions : List (String × Function F)),
        entry.1 = name := List.mem_map.1 hname
    exact call_eq_of_first?_eq hfirst hentry context environment
  · intro hperm v
    exact call_randomize_eq_of_sort_eq (hone.sort_eq_sort hperm) context environment v

/-- The first member is found behind the second, which is listed twice. -/
theorem members_decide_answers_twice :
    let t : Tree := .node (.element "a" none) [] [.node (.text "x") [] [], .node (.text "y") [] []]
    let F : Forest := ⟨[t]⟩
    let x : Node F := ⟨0, [0], by decide⟩
    let y : Node F := ⟨0, [1], by decide⟩
    let context : Context F := ⟨none, 1, 1⟩
    let environment : Environment := .standard .summerTime ⟨0, 0, 3600⟩ fun _ => 0
    Node.OneTree [y, x, y] ∧ (∀ n, n ∈ [y, x, y] ↔ n ∈ [x, y, y]) ∧ [y, x, y].Perm [x, y, y] ∧
    (Value.nodeSet [y, x, y]).toText = (Value.nodeSet [x, y, y]).toText ∧
    Registry.builtin.call "randomize" context environment [.nodeSet [y, x, y], .number 1] =
      Registry.builtin.call "randomize" context environment [.nodeSet [x, y, y], .number 1] := by
  intro t F x y context environment
  have hone : Node.OneTree [y, x, y] := by decide
  have hperm : [y, x, y].Perm [x, y, y] := by decide
  obtain ⟨htext, -, -, hcalls⟩ :=
    (members_decide_answers F).2 [y, x, y] [x, y, y] hone fun n => hperm.mem_iff
  exact ⟨hone, fun n => hperm.mem_iff, hperm, htext, (hcalls context environment).2 hperm _⟩

end Library

end FormExpr
