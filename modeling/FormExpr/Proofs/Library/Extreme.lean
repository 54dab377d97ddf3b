import FormExpr.Library.Builtin
import FormExpr.Proofs.Function.Shape
import FormExpr.Proofs.Number.Order
import Mathlib.Data.Set.Insert

/-!
# The greatest and the least number

The extreme of a list keeps the best number so far, and a search for one that is not a number comes
first, since no comparison would find it. Otherwise the extreme is a member that bounds all members,
so the members alone decide it, but for the sign of zero: neither their order nor the way they are
grouped into arguments matters, and a part of the list may be replaced by its own extreme.
-/

namespace FormExpr

variable {F : Forest}

/-- The same number, where both signs of zero are one and so is all that is not a number. -/
def SameNumber (x y : Float) : Prop :=
  x.isNaN = true ∧ y.isNaN = true ∨ (x == y) = true

namespace Library

inductive Side where
  | greatest
  | least

namespace Side

variable {side : Side} {x y z : Float} {X Y : Set Float}

def name : Side → String
  | greatest => "max"
  | least => "min"

def beats : Side → Float → Float → Bool
  | greatest => (· > ·)
  | least => (· < ·)

def Yields : Side → Float → Float → Prop
  | greatest, x, y => x ≤ y
  | least, x, y => y ≤ x

/-! ### Numbers on one side of others -/

theorem Yields.isNaN (h : side.Yields x y) : x.isNaN = false ∧ y.isNaN = false := by
  cases side with
  | greatest => exact Binary64.isNaN_of_le h
  | least => exact (Binary64.isNaN_of_le h).symm

theorem Yields.trans (hxy : side.Yields x y) (hyz : side.Yields y z) : side.Yields x z := by
  cases side with
  | greatest => exact Binary64.le_of_le_of_le hxy hyz
  | least => exact Binary64.le_of_le_of_le hyz hxy

theorem Yields.sameNumber (hxy : side.Yields x y) (hyx : side.Yields y x) : SameNumber x y := by
  cases side with
  | greatest => exact .inr (Binary64.beq_of_le_of_le hxy hyx)
  | least => exact .inr (Binary64.beq_of_le_of_le hyx hxy)

section

variable (side) (hx : x.isNaN = false) (hy : y.isNaN = false)

include hx

theorem yields_self : side.Yields x x := by
  cases side with
  | greatest => exact Binary64.le_self hx
  | least => exact Binary64.le_self hx

include hy

theorem yields_or_yields : side.Yields x y ∨ side.Yields y x := by
  cases side with
  | greatest => exact Binary64.le_or_le hx hy
  | least => exact Binary64.le_or_le hy hx

/-- Of two numbers one is beaten exactly if the other is as far on the side. -/
theorem not_beats_iff : ¬ side.beats x y = true ↔ side.Yields x y := by
  cases side with
  | greatest => rw [beats, decide_eq_true_iff, gt_iff_lt, ← Binary64.not_le_iff hx hy, not_not, Yields]
  | least => rw [beats, decide_eq_true_iff, ← Binary64.not_le_iff hy hx, not_not, Yields]

/-- One step of the search goes beyond the best number so far and the candidate. -/
theorem yields_better :
    side.Yields y (if side.beats x y = true then x else y) ∧
      side.Yields x (if side.beats x y = true then x else y) := by
  by_cases hbeats : side.beats x y = true
  · rw [if_pos hbeats]
    refine ⟨(side.yields_or_yields hy hx).resolve_right fun h => ?_, side.yields_self hx⟩
    exact (side.not_beats_iff hx hy).2 h hbeats
  · rw [if_neg hbeats]
    exact ⟨side.yields_self hy, (side.not_beats_iff hx hy).1 hbeats⟩

end

/-! ### Extremes of sets -/

structure IsExtreme (side : Side) (X : Set Float) (x : Float) : Prop where
  mem : x ∈ X
  bound : ∀ y ∈ X, side.Yields y x

theorem IsExtreme.isNaN (h : side.IsExtreme X x) : x.isNaN = false :=
  (h.bound x h.mem).isNaN.1

def HasNoExtreme (X : Set Float) : Prop :=
  X = ∅ ∨ ∃ x ∈ X, x.isNaN = true

/-- The extreme of the set, or not a number if it has none. -/
def Answers (side : Side) (X : Set Float) (x : Float) : Prop :=
  x.isNaN = true ∧ HasNoExtreme X ∨ side.IsExtreme X x

theorem IsExtreme.not_hasNoExtreme (h : side.IsExtreme X x) : ¬ HasNoExtreme X := by
  rintro (rfl | ⟨y, hy, hnan⟩)
  · exact h.mem
  · rw [(h.bound y hy).isNaN.1] at hnan
    cases hnan

theorem Answers.isNaN_iff (h : side.Answers X x) : x.isNaN = true ↔ HasNoExtreme X := by
  rcases h with ⟨hnan, hnone⟩ | hextreme
  · exact iff_of_true hnan hnone
  · exact iff_of_false (Bool.eq_false_iff.1 hextreme.isNaN) hextreme.not_hasNoExtreme

theorem Answers.isExtreme (h : side.Answers X x) (hx : x.isNaN = false) : side.IsExtreme X x :=
  h.resolve_left fun hnan => Bool.eq_false_iff.1 hx hnan.1

/-- The set decides the answer. -/
theorem Answers.sameNumber (hx : side.Answers X x) (hy : side.Answers X y) : SameNumber x y := by
  rcases hx with ⟨hnan, hnone⟩ | hextreme
  · exact .inl ⟨hnan, hy.isNaN_iff.2 hnone⟩
  · have hextreme' := hy.isExtreme (Bool.eq_false_iff.2 (mt hy.isNaN_iff.1 hextreme.not_hasNoExtreme))
    exact (hextreme'.bound x hextreme.mem).sameNumber (hextreme.bound y hextreme'.mem)

/-- Two parts, neither of which is empty, may be replaced by their answers. -/
theorem Answers.union (hX : X ≠ ∅) (hY : Y ≠ ∅) (hx : side.Answers X x) (hy : side.Answers Y y)
    (hz : side.Answers {x, y} z) : side.Answers (X ∪ Y) z := by
  -- a member that is not a number makes the answer of its part one, and the answer of the two
  have hnan : ∀ {S : Set Float} {s}, S ≠ ∅ → side.Answers S s → s.isNaN = true →
      ∃ t ∈ S, t.isNaN = true := fun hS hs hnan => (hs.isNaN_iff.1 hnan).resolve_left hS
  rcases hz with ⟨hz, hnone⟩ | hextreme
  · obtain ⟨s, rfl | rfl, hs⟩ := hnone.resolve_left (Set.insert_nonempty x {y}).ne_empty
    · obtain ⟨t, ht, ht'⟩ := hnan hX hx hs
      exact .inl ⟨hz, .inr ⟨t, .inl ht, ht'⟩⟩
    · obtain ⟨t, ht, ht'⟩ := hnan hY hy hs
      exact .inl ⟨hz, .inr ⟨t, .inr ht, ht'⟩⟩
  · have hxz := hextreme.bound x (.inl rfl)
    have hyz := hextreme.bound y (.inr rfl)
    have hx' := hx.isExtreme hxz.isNaN.1
    have hy' := hy.isExtreme hyz.isNaN.1
    refine .inr ⟨?_, ?_⟩
    · obtain rfl | rfl := hextreme.mem
      · exact .inl hx'.mem
      · exact .inr hy'.mem
    · rintro t (ht | ht)
      · exact (hx'.bound t ht).trans hxz
      · exact (hy'.bound t ht).trans hyz

/-! ### The search -/

theorem isExtreme_foldl (side : Side) {best : Float} {rest : List Float}
    (hnumbers : ∀ x ∈ best :: rest, x.isNaN = false) :
    side.IsExtreme {x | x ∈ best :: rest} (rest.foldl
      (fun best candidate => if side.beats candidate best then candidate else best) best) := by
  induction rest generalizing best with
  | nil =>
    refine ⟨List.mem_cons_self, fun x hx => ?_⟩
    obtain rfl := List.mem_singleton.1 hx
    exact side.yields_self (hnumbers x hx)
  | cons candidate rest ih =>
    rw [List.forall_mem_cons, List.forall_mem_cons] at hnumbers
    obtain ⟨hbest, hcandidate, hrest⟩ := hnumbers
    obtain ⟨hstep, hstep'⟩ := side.yields_better hcandidate hbest
    rw [List.foldl_cons]
    generalize hnext : (if side.beats candidate best = true then candidate else best) = next at *
    have hmem : next = candidate ∨ next = best := by
      rw [← hnext]
      exact ite_eq_or_eq _ _ _
    have hsearch := ih (List.forall_mem_cons.2 ⟨hstep.isNaN.2, hrest⟩)
    have hself := hsearch.bound next List.mem_cons_self
    refine ⟨?_, fun x hx => ?_⟩
    · rcases List.mem_cons.1 hsearch.mem with heq | hmem'
      · rw [Set.mem_ofPred_eq, heq]
        rcases hmem with rfl | rfl <;> simp
      · exact List.mem_cons_of_mem _ (List.mem_cons_of_mem _ hmem')
    · rcases List.mem_cons.1 hx with rfl | hx
      · exact hstep.trans hself
      · rcases List.mem_cons.1 hx with rfl | hx
        · exact hstep'.trans hself
        · exact hsearch.bound x (List.mem_cons_of_mem _ hx)

/-- The loop finds the extreme of the list, if there is one. -/
theorem answers_extreme (side : Side) (xs : List Float) :
    side.Answers {x | x ∈ xs} (extreme side.beats xs) := by
  cases xs with
  | nil => exact .inl ⟨Binary64.isNaN_nan, .inl (by simp)⟩
  | cons best rest =>
    by_cases hnan : (best :: rest).any Float.isNaN = true
    · rw [extreme, if_pos hnan]
      exact .inl ⟨Binary64.isNaN_nan, .inr (List.any_eq_true.1 hnan)⟩
    · rw [extreme, if_neg hnan]
      refine .inr (side.isExtreme_foldl fun x hx => ?_)
      exact Bool.eq_false_iff.2 fun hx' => hnan (List.any_eq_true.2 ⟨x, hx, hx'⟩)

end Side

/-! ### The numbers of the arguments -/

def contributions (z : Zone) (args : List (Value F)) : Set Float :=
  {x | (∃ v ∈ args, v.nodes? = none ∧ v.toNumber z = x) ∨
    ∃ nodes, .nodeSet nodes ∈ args ∧ ∃ n ∈ nodes, n.toNumber z = x}

theorem mem_numbers_iff (call : Call F) {args : List (Value F)} {x : Float} :
    x ∈ numbers call args ↔ x ∈ contributions call.zone args := by
  have hparts : ∀ v : Value F, (∃ part ∈ v.parts, part.toNumber call.zone = x) ↔
      (v.nodes? = none ∧ v.toNumber call.zone = x) ∨
        ∃ nodes, v = .nodeSet nodes ∧ ∃ n ∈ nodes, n.toNumber call.zone = x := by
    intro v
    cases v with
    | nodeSet nodes => simp [Value.parts, Value.nodes?, Value.toNumber, Node.toNumber]
    | _ => simp [Value.parts, Value.nodes?]
  rw [numbers, List.mem_map, contributions, Set.mem_ofPred_eq]
  simp only [Value.spread, List.mem_flatMap]
  constructor
  · rintro ⟨part, ⟨v, hv, hpart⟩, hx⟩
    rcases (hparts v).1 ⟨part, hpart, hx⟩ with hscalar | ⟨nodes, rfl, hmember⟩
    · exact .inl ⟨v, hv, hscalar⟩
    · exact .inr ⟨nodes, hv, hmember⟩
  · rintro (⟨v, hv, hscalar⟩ | ⟨nodes, hv, hmember⟩)
    · obtain ⟨part, hpart, hx⟩ := (hparts v).2 (.inl hscalar)
      exact ⟨part, ⟨v, hv, hpart⟩, hx⟩
    · obtain ⟨part, hpart, hx⟩ := (hparts _).2 (.inr ⟨nodes, rfl, hmember⟩)
      exact ⟨part, ⟨_, hv, hpart⟩, hx⟩

/-- The arguments add their numbers one by one. -/
theorem contributions_append (z : Zone) (before after : List (Value F)) :
    contributions z (before ++ after) = contributions z before ∪ contributions z after := by
  ext x
  simp only [contributions, Set.mem_ofPred_eq, Set.mem_union, List.mem_append, or_and_right,
    exists_or]
  exact or_or_or_comm

theorem numbers_append (call : Call F) (before after : List (Value F)) :
    numbers call (before ++ after) = numbers call before ++ numbers call after := by
  rw [numbers, Value.spread, List.flatMap_append, List.map_append]
  rfl

theorem numbers_eq_nil (call : Call F) {args : List (Value F)}
    (hnone : contributions call.zone args = ∅) : numbers call args = [] := by
  refine List.eq_nil_iff_forall_not_mem.2 fun x hx => ?_
  rw [mem_numbers_iff, hnone] at hx
  exact hx

/-! ### The two functions -/

theorem find?_side (side : Side) :
    Registry.builtin.find? side.name = some (extremum side.beats : Function F) := by
  cases side with
  | greatest => rfl
  | least => rfl

theorem call_extreme (side : Side) (context : Context F) (environment : Environment)
    {args : List (Value F)} (hargs : args ≠ []) :
    Registry.builtin.call side.name context environment args =
      .ok (.number (extreme side.beats (numbers ⟨side.name, context, environment⟩ args))) := by
  have htakes : (extremum side.beats).Takes args := ⟨List.length_pos_iff.2 hargs, by rintro _ ⟨⟩⟩
  rw [Function.call_of_find? (find?_side side), Function.apply_of_takes htakes]
  rfl

/-- The answer is not a number exactly if the arguments contribute nothing or one of the
contributions is not a number; else it is a contribution that bounds all. So but for the sign of
zero only the contributions count, and neither the order of the arguments nor whether nodes come in
sets or as texts. Two parts that contribute something may be replaced by their answers. -/
theorem extremes_bound_contributions (side : Side) (context : Context F)
    (environment : Environment) :
    let X := fun args : List (Value F) => contributions environment.zone args
    ∃ outcome : List (Value F) → Float,
      (∀ args, args ≠ [] →
        Registry.builtin.call side.name context environment args = .ok (.number (outcome args))) ∧
      (∀ args,
        ((outcome args).isNaN = true ↔ X args = ∅ ∨ ∃ x ∈ X args, x.isNaN = true) ∧
        ((outcome args).isNaN = false →
          outcome args ∈ X args ∧ ∀ x ∈ X args, side.Yields x (outcome args))) ∧
      (∀ args others, args.Perm others → SameNumber (outcome args) (outcome others)) ∧
      (∀ args others, (Value.spread args).Perm (Value.spread others) →
        SameNumber (outcome args) (outcome others)) ∧
      (∀ before after, X before ≠ ∅ → X after ≠ ∅ →
        SameNumber (outcome (before ++ after))
          (outcome [.number (outcome before), .number (outcome after)])) ∧
      ∀ args empty, X empty = ∅ →
        outcome (args ++ empty) = outcome args ∧ outcome (empty ++ args) = outcome args := by
  intro X
  let call : Call F := ⟨side.name, context, environment⟩
  let outcome := fun args => extreme side.beats (numbers call args)
  have hanswers : ∀ args, side.Answers (X args) (outcome args) := by
    intro args
    have hX : X args = {x | x ∈ numbers call args} := Set.ext fun x => (mem_numbers_iff call).symm
    rw [hX]
    exact side.answers_extreme _
  have hspread : ∀ args others, (Value.spread args).Perm (Value.spread others) →
      SameNumber (outcome args) (outcome others) := by
    intro args others hperm
    have hX : X args = X others := by
      ext x
      exact (mem_numbers_iff call).symm.trans
        ((hperm.map _).mem_iff.trans (mem_numbers_iff call))
    exact (hanswers args).sameNumber (hX ▸ hanswers others)
  refine ⟨outcome, fun args => call_extreme side context environment, fun args => ⟨?_, ?_⟩, ?_,
    hspread, ?_, ?_⟩
  · exact (hanswers args).isNaN_iff
  · intro hnumber
    have hextreme := (hanswers args).isExtreme hnumber
    exact ⟨hextreme.mem, hextreme.bound⟩
  · exact fun args others hperm => hspread args others (List.Perm.flatMap_right Value.parts hperm)
  · intro before after hbefore hafter
    have htwo : X [.number (outcome before), .number (outcome after)] =
        {outcome before, outcome after} := by
      ext x
      simp [X, contributions, Value.nodes?, Value.toNumber, eq_comm]
    have hunion := (hanswers before).union hbefore hafter (hanswers after) (htwo ▸ hanswers _)
    rw [← contributions_append] at hunion
    exact (hanswers _).sameNumber hunion
  · intro args empty hempty
    have hnil := numbers_eq_nil call hempty
    simp only [outcome, numbers_append, hnil, List.append_nil, List.nil_append, and_self]

/-- Of two nodes and a negative number the greatest is ten, which may come as a text of its own. -/
theorem extremes_bound_contributions_ten :
    let F : Forest := ⟨[.node (.text "10") [] [], .node (.text "9") [] []]⟩
    let ten : Node F := ⟨0, [], by decide⟩
    let nine : Node F := ⟨1, [], by decide⟩
    let context : Context F := ⟨none, 1, 1⟩
    let environment : Environment := .standard (.fixed 0) ⟨0, 0, 0⟩ fun _ => 0
    let X := fun args : List (Value F) => contributions environment.zone args
    let nodes : Value F := .nodeSet [nine, ten]
    let args : List (Value F) := [nodes, .number (-1)]
    let texts : List (Value F) := [.string "10", .string "9", .number (-1)]
    ∃ outcome : List (Value F) → Float,
      args ≠ [] ∧ Registry.builtin.call "max" context environment args = .ok (.number 10) ∧
      outcome args = 10 ∧ (outcome args).isNaN = false ∧ outcome args ∈ X args ∧
      args.Perm [.number (-1), nodes] ∧
      SameNumber (outcome args) (outcome [.number (-1), nodes]) ∧
      (Value.spread args).Perm (Value.spread texts) ∧
      SameNumber (outcome args) (outcome texts) ∧
      X [nodes] ≠ ∅ ∧ X [.number (-1)] ≠ ∅ ∧
      SameNumber (outcome args)
        (outcome [.number (outcome [nodes]), .number (outcome [.number (-1)])]) ∧
      X [.nodeSet []] = ∅ ∧ outcome (args ++ [.nodeSet []]) = outcome args := by
  intro F ten nine context environment X nodes args texts
  obtain ⟨outcome, hcall, hextreme, horder, hgroups, hparts, hempty⟩ :=
    extremes_bound_contributions .greatest context environment
  have hargs : args ≠ [] := List.cons_ne_nil _ _
  have hten : outcome args = 10 := by
    have heq := (hcall _ hargs).symm.trans (call_extreme .greatest context environment hargs)
    exact (Value.number.inj (Except.ok.inj heq)).trans (by decide +kernel)
  have hnumber : (outcome args).isNaN = false :=
    (congrArg Float.isNaN hten).trans (by decide)
  have horders : args.Perm [.number (-1), nodes] := List.Perm.swap _ _ _
  have hspread : (Value.spread args).Perm (Value.spread texts) := List.Perm.swap _ _ _
  have hnodes : X [nodes] ≠ ∅ :=
    Set.Nonempty.ne_empty ⟨ten.toNumber environment.zone,
      .inr ⟨[nine, ten], List.mem_singleton_self _, ten, by simp, rfl⟩⟩
  have hscalar : X [.number (-1)] ≠ ∅ :=
    Set.Nonempty.ne_empty ⟨-1, .inl ⟨.number (-1), List.mem_singleton_self _, rfl, rfl⟩⟩
  have hnone : X [.nodeSet []] = ∅ := by
    refine Set.eq_empty_of_forall_notMem ?_
    rintro x (⟨v, hv, hv', -⟩ | ⟨members, hv, n, hn, -⟩)
    · obtain rfl := List.mem_singleton.1 hv
      cases hv'
    · obtain rfl := Value.nodeSet.inj (List.mem_singleton.1 hv)
      cases hn
  refine ⟨outcome, hargs, ?_, hten, hnumber, ((hextreme args).2 hnumber).1, horders,
    horder _ _ horders, hspread, hgroups _ _ hspread, hnodes, hscalar,
    hparts [nodes] [.number (-1)] hnodes hscalar, hnone, (hempty args [.nodeSet []] hnone).1⟩
  exact (hcall args hargs).trans (congrArg (fun x => Except.ok (Value.number x)) hten)

end Library

end FormExpr
