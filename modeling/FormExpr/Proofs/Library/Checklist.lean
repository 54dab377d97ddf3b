import FormExpr.Library.Builtin
import FormExpr.Proofs.Function.Shape
import FormExpr.Proofs.Number.Addition

/-!
# Checklists and weighted checklists

A checklist counts the members of a node set that are not blank, and a weighted checklist with a
single weight takes a node set as true when it has members. So with unit weights the two agree on
truth values, and on the values themselves when none of them is a blank node. A count is exact up to
the limit of sums of ones, and beyond it where no bound reaches that limit.
-/

namespace FormExpr

variable {F : Forest}

namespace Value

def IsItem : Value F → Prop
  | nodeSet nodes => ∃ n, nodes = [n]
  | _ => True

def NotBlank : Value F → Prop
  | nodeSet nodes => ∀ n ∈ nodes, n.holds = true
  | _ => True

end Value

namespace Library

open Binary64 (exactLimit)

/-! ### Counts between bounds -/

/-- A count that sums of ones reach, or bounds that it is far above. -/
def CountedExactly (least most : Float) (count : Nat) : Prop :=
  count ≤ exactLimit ∨ ∀ bound ∈ [least, most], ¬ Float.ofNat exactLimit ≤ bound

theorem withinBounds_congr {least most x y : Float} (hleast : least ≤ x ↔ least ≤ y)
    (hmost : x ≤ most ↔ y ≤ most) : withinBounds least most x = withinBounds least most y := by
  unfold withinBounds
  rw [decide_eq_decide.2 hleast, decide_eq_decide.2 hmost]

theorem withinBounds_min {least most : Float} {count : Nat}
    (hexact : CountedExactly least most count) :
    withinBounds least most (Float.ofNat (min count exactLimit)) =
      withinBounds least most (Float.ofNat count) := by
  rcases le_total count exactLimit with hle | hge
  · rw [min_eq_left hle]
  · rcases hexact with hle | hbelow
    · rw [min_eq_left hle]
    · rw [min_eq_right hge]
      have hleast := Binary64.compare_ofNat_of_not_le hge (hbelow least (by simp))
      have hmost := Binary64.compare_ofNat_of_not_le hge (hbelow most (by simp))
      exact withinBounds_congr hleast.1 hmost.2

/-! ### What is counted and what is added -/

def withUnits (vs : List (Value F)) : List (Value F) :=
  vs.flatMap fun v => [v, .number 1]

theorem allWeights?_withUnits (z : Zone) (vs : List (Value F)) :
    allWeights? z (withUnits vs) = some (List.replicate (vs.countP Value.toBool) 1) := by
  induction vs with
  | nil => rfl
  | cons v vs ih =>
    have hunit : weights z v (.number 1) = if v.toBool then [1] else [] := by cases v <;> rfl
    have hcons : withUnits (v :: vs) = v :: .number 1 :: withUnits vs := rfl
    rw [hcons, allWeights?, ih, hunit, List.countP_cons, Option.map_some]
    cases v.toBool with
    | false => rfl
    | true => rfl

/-- An item without blank nodes counts one exactly if it is true. -/
theorem checked_eq {v : Value F} (hitem : v.IsItem) (hblank : v.NotBlank) :
    checked v = if v.toBool then 1 else 0 := by
  cases v with
  | nodeSet nodes =>
    obtain ⟨n, rfl⟩ := hitem
    have hn : n.holds = true := hblank n List.mem_cons_self
    rw [checked, List.countP_singleton, hn]
    rfl
  | _ => rfl

theorem foldr_checked {vs : List (Value F)}
    (hchecked : ∀ v ∈ vs, checked v = if v.toBool then 1 else 0) :
    (vs.map checked).foldr (· + ·) 0 = vs.countP Value.toBool := by
  induction vs with
  | nil => rfl
  | cons v vs ih =>
    rw [List.forall_mem_cons] at hchecked
    rw [List.map_cons, List.foldr_cons, ih hchecked.2, hchecked.1, List.countP_cons, Nat.add_comm]

/-! ### The two functions -/

section

variable (context : Context F) (environment : Environment) (least most : Value F)
  (vs : List (Value F))

def countOutcome (count : Nat) : Result F :=
  .ok (.boolean (withinBounds (least.toNumber environment.zone) (most.toNumber environment.zone)
    (Float.ofNat count)))

theorem countOutcome_inj {environment : Environment} {least most : Value F} {count count' : Nat}
    (h : countOutcome environment least most count = countOutcome environment least most count') :
    withinBounds (least.toNumber environment.zone) (most.toNumber environment.zone)
        (Float.ofNat count) =
      withinBounds (least.toNumber environment.zone) (most.toNumber environment.zone)
        (Float.ofNat count') :=
  Value.boolean.inj (Except.ok.inj h)

/-- A checklist adds up what its items count. -/
theorem call_checklist :
    Registry.builtin.call "checklist" context environment (least :: most :: vs) =
      countOutcome environment least most ((vs.map checked).foldr (· + ·) 0) := by
  have hfind : Registry.builtin.find? "checklist" =
      some (.counting (.variadicFrom2 (checklist : Call F → _)) (List.take 2)) := rfl
  rw [Function.call_of_find? hfind, Function.apply_of_takes ⟨Nat.le_add_left 2 _, by rintro _ ⟨⟩⟩]
  rfl

/-- With weights of one the true values are counted, as far as doubles go. -/
theorem call_weightedChecklist_withUnits :
    Registry.builtin.call "weighted-checklist" context environment
        (least :: most :: withUnits vs) =
      countOutcome environment least most (min (vs.countP Value.toBool) exactLimit) := by
  have hfind : Registry.builtin.find? "weighted-checklist" =
      some (.counting (.variadicFrom2 (weightedChecklist : Call F → _)) countedWeights) := rfl
  rw [Function.call_of_find? hfind, Function.apply_of_takes ⟨Nat.le_add_left 2 _, by rintro _ ⟨⟩⟩]
  change weightedChecklist _ least most (withUnits vs) = _
  rw [weightedChecklist, allWeights?_withUnits, countOutcome, ← Binary64.sum_ones]
  rfl

/-- With unit weights a weighted checklist is the checklist of the truth values, and that of the
values themselves when each is a scalar or a node that is not blank. -/
theorem weightedChecklist_withUnits
    (hexact : CountedExactly (least.toNumber environment.zone) (most.toNumber environment.zone)
      (vs.countP Value.toBool)) :
    let outcome : Result F := countOutcome environment least most (vs.countP Value.toBool)
    let weighted := Registry.builtin.call "weighted-checklist" context environment
      (least :: most :: withUnits vs)
    weighted = outcome ∧
    weighted = Registry.builtin.call "checklist" context environment
      (least :: most :: vs.map fun v => .boolean v.toBool) ∧
    ((∀ v ∈ vs, v.IsItem ∧ v.NotBlank) →
      weighted = Registry.builtin.call "checklist" context environment (least :: most :: vs)) := by
  have hweighted : Registry.builtin.call "weighted-checklist" context environment
      (least :: most :: withUnits vs) =
        countOutcome environment least most (vs.countP Value.toBool) := by
    rw [call_weightedChecklist_withUnits, countOutcome, withinBounds_min hexact, countOutcome]
  refine ⟨hweighted, ?_, ?_⟩
  · have htruths : ∀ v ∈ vs.map fun v => (.boolean v.toBool : Value F),
        checked v = if v.toBool then 1 else 0 := by
      intro v hv
      obtain ⟨u, -, rfl⟩ := List.mem_map.1 hv
      rfl
    rw [hweighted, call_checklist, foldr_checked htruths, List.countP_map]
    rfl
  · intro hitems
    rw [hweighted, call_checklist,
      foldr_checked fun v hv => checked_eq (hitems v hv).1 (hitems v hv).2]

end

/-! ### A blank text and another one -/

def twoTexts : Forest :=
  ⟨[.node (.text " ") [] [], .node (.text "yes") [] []]⟩

def blankNode : Node twoTexts := ⟨0, [], by decide⟩

def filledNode : Node twoTexts := ⟨1, [], by decide⟩

/-- Of a truth, a node that is not blank, and an empty text two count. -/
theorem weightedChecklist_withUnits_two :
    let environment : Environment := .standard .summerTime ⟨0, 0, 0⟩ fun _ => 0
    let vs : List (Value twoTexts) := [.boolean true, .nodeSet [filledNode], .string ""]
    CountedExactly 2 2 (vs.countP Value.toBool) ∧ (∀ v ∈ vs, v.IsItem ∧ v.NotBlank) ∧
    Registry.builtin.call "weighted-checklist" ⟨none, 0, 0⟩ environment
      (.number 2 :: .number 2 :: withUnits vs) = .ok (.boolean true) ∧
    Registry.builtin.call "checklist" ⟨none, 0, 0⟩ environment (.number 2 :: .number 2 :: vs) =
      .ok (.boolean true) := by
  intro environment vs
  have hexact : CountedExactly 2 2 (vs.countP Value.toBool) := Or.inl (by decide)
  have hitems : ∀ v ∈ vs, v.IsItem ∧ v.NotBlank := by
    have hfilled : filledNode.holds = true := by decide +kernel
    simp [vs, Value.IsItem, Value.NotBlank, hfilled]
  obtain ⟨hcount, -, hitem⟩ :=
    weightedChecklist_withUnits ⟨none, 0, 0⟩ environment (.number 2) (.number 2) vs hexact
  have htrue : withinBounds 2 2 (Float.ofNat (vs.countP Value.toBool)) = true := by decide +kernel
  have hweighted := hcount.trans (congrArg (fun b => Except.ok (Value.boolean b)) htrue)
  exact ⟨hexact, hitems, hweighted, (hitem hitems).symm.trans hweighted⟩

/-- A blank node adds its weight but does not count, and more ones than the limit add up to less
than their number. -/
theorem not_forall_checklist_eq_weightedChecklist :
    (¬ ∀ (F : Forest) (context : Context F) (environment : Environment) (least most : Value F)
      (vs : List (Value F)), (∀ v ∈ vs, v.IsItem) →
        Registry.builtin.call "checklist" context environment (least :: most :: vs) =
          Registry.builtin.call "weighted-checklist" context environment
            (least :: most :: withUnits vs)) ∧
    ¬ ∀ (F : Forest) (context : Context F) (environment : Environment) (least most : Value F)
      (vs : List (Value F)), (∀ v ∈ vs, v.IsItem ∧ v.NotBlank) →
        Registry.builtin.call "checklist" context environment (least :: most :: vs) =
          Registry.builtin.call "weighted-checklist" context environment
            (least :: most :: withUnits vs) := by
  constructor
  · intro hall
    have hitem : ∀ v ∈ [Value.nodeSet [blankNode]], v.IsItem := by
      intro v hv
      obtain rfl := List.mem_singleton.1 hv
      exact ⟨blankNode, rfl⟩
    have heq := hall twoTexts ⟨none, 0, 0⟩ (.standard (.fixed 0) ⟨0, 0, 0⟩ fun _ => 0)
      (.number 1) (.number 1) [.nodeSet [blankNode]] hitem
    rw [call_checklist, call_weightedChecklist_withUnits] at heq
    have hbounds := countOutcome_inj heq
    revert hbounds
    decide +kernel
  · intro hall
    have hcount : ∀ n, (List.replicate n (.boolean true : Value twoTexts)).countP Value.toBool = n := by
      intro n
      rw [List.countP_replicate]
      rfl
    have hitems : ∀ v ∈ List.replicate (exactLimit + 2) (.boolean true : Value twoTexts),
        v.IsItem ∧ v.NotBlank := by
      intro v hv
      rw [List.eq_of_mem_replicate hv]
      exact ⟨trivial, trivial⟩
    have heq := hall twoTexts ⟨none, 0, 0⟩ (.standard (.fixed 0) ⟨0, 0, 0⟩ fun _ => 0)
      (.number (Float.ofNat (exactLimit + 2))) (.number (-1)) _ hitems
    rw [call_checklist, call_weightedChecklist_withUnits,
      foldr_checked fun v hv => checked_eq (hitems v hv).1 (hitems v hv).2, hcount] at heq
    have hbounds := countOutcome_inj heq
    revert hbounds
    decide +kernel

end Library

end FormExpr
