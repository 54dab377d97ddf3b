import FormExpr.Proofs.Number.Symmetry
import FormExpr.Proofs.Operator.DateRule

/-!
# Operators from either side

Exchanging the two sides turns a comparison around and changes no sum and no product. Numbers, truth
values and texts have this symmetry one by one. A node set is asked for a member that fits, so two
of them are asked for a pair, which has no order; and the date rule steps in for a side no matter
where it stands.
-/

namespace FormExpr

variable {F : Forest}

namespace Comparison

def converse : Comparison → Comparison
  | eq => eq
  | ne => ne
  | lt => gt
  | le => ge
  | gt => lt
  | ge => le

variable (c : Comparison)

/-- Numbers stand the same way from either side. -/
theorem numbers_converse (x y : Float) : c.converse.numbers y x = c.numbers x y := by
  cases c with
  | eq => exact Binary64.float_beq_comm y x
  | ne => exact congrArg (!·) (Binary64.float_beq_comm y x)
  | lt | le | gt | ge => rfl

theorem equality_converse (equal otherwise : Bool) :
    c.converse.equality equal otherwise = c.equality equal otherwise := by
  cases c <;> rfl

/-- And so do single values, -/
theorem scalars_converse (z : Zone) (l r : Value F) :
    c.converse.scalars z r l = c.scalars z l r := by
  have hboolean : (r.kind = .boolean ∨ l.kind = .boolean) ↔
      (l.kind = .boolean ∨ r.kind = .boolean) := or_comm
  have hnumeric : (r.kind = .number ∨ r.kind = .date ∨ l.kind = .number ∨ l.kind = .date) ↔
      (l.kind = .number ∨ l.kind = .date ∨ r.kind = .number ∨ r.kind = .date) := by
    tauto
  unfold scalars
  dsimp only
  rw [numbers_converse, equality_converse, equality_converse, BEq.comm (a := r.toBool),
    BEq.comm (a := r.toText)]
  simp only [hboolean, hnumeric]

/-- There is a fitting pair of members from either side. -/
theorem any_parts_converse (z : Zone) (l r : Value F) :
    (r.parts.any fun b => l.parts.any fun a => c.converse.scalars z b a) =
      l.parts.any fun a => r.parts.any fun b => c.scalars z a b := by
  simp only [scalars_converse]
  rw [Bool.eq_iff_iff]
  simp only [List.any_eq_true]
  constructor
  · rintro ⟨b, hb, a, ha, hab⟩
    exact ⟨a, ha, b, hb, hab⟩
  · rintro ⟨a, ha, b, hb, hab⟩
    exact ⟨b, hb, a, ha, hab⟩

/-- and node sets, whose members are paired without an order. -/
theorem values_converse (z : Zone) (l r : Value F) :
    c.converse.values z r l = c.values z l r := by
  cases l with
  | nodeSet a =>
    cases r with
    | boolean q => exact scalars_converse c z (.boolean _) (.boolean q)
    | number | string | date | nodeSet => exact any_parts_converse c z _ _
  | boolean p =>
    cases r with
    | nodeSet b => exact scalars_converse c z (.boolean p) (.boolean _)
    | boolean | number | string | date => exact any_parts_converse c z _ _
  | number | string | date => cases r <;> exact any_parts_converse c z _ _

/-- The rule does not mind on which side the date is. -/
theorem countsDays_comm {l r : Value F} : CountsDays r l ↔ CountsDays l r := by
  unfold CountsDays
  rw [or_comm, and_left_comm]

end Comparison

namespace Operator

section

variable (z z' : Zone)

/-! ### The date rule on either side -/

/-- The zone of the rule counts where the rule steps in, and the other zone elsewhere. -/
theorem evaluate_dateRule_compare (l r : Value F) (c : Comparison) :
    evaluate (dateRule z') z l (.compare c) r =
      .ok (.boolean (if Comparison.CountsDays l r then c.numbers (l.toNumber z') (r.toNumber z')
        else c.values z l r)) := by
  rw [evaluate, dateRule_compare]
  by_cases hcounts : Comparison.CountsDays l r
  · rw [if_pos hcounts, if_pos hcounts]
    dsimp only
    rw [apply_compare, Comparison.values_numbers]
  · rw [if_neg hcounts, if_neg hcounts]
    exact apply_compare z c

/-- Whether the rule steps in does not depend on the side, so one zone does for both. -/
theorem exists_zone_evaluate_dateRule (l r : Value F) (a : Arithmetic) :
    ∃ zone, evaluate (dateRule z') z l (.arith a) r = apply zone l (.arith a) r ∧
      evaluate (dateRule z') z r (.arith a) l = apply zone r (.arith a) l := by
  have hboolean : (r.kind = .boolean ∨ l.kind = .boolean) ↔
      (l.kind = .boolean ∨ r.kind = .boolean) := or_comm
  have hdates : (r.kind = .date ∨ l.kind = .date) ↔ (l.kind = .date ∨ r.kind = .date) := or_comm
  unfold evaluate dateRule
  dsimp only
  simp only [hboolean, hdates, Bool.or_comm r.looksLikeDate]
  split_ifs
  · exact ⟨z, rfl, rfl⟩
  · exact ⟨z', rfl, rfl⟩
  · exact ⟨z', rfl, rfl⟩
  · exact ⟨z, rfl, rfl⟩

/-! ### Telling an outcome from the other side -/

/-- What an operator gives can be told from either side: a comparison is turned around, a sum and a
product stay as they are. -/
structure Reversible (outcome : Value F → Operator → Value F → Except Error (Value F)) : Prop where
  compare (c : Comparison) (l r : Value F) :
    ∃ holds, outcome l (.compare c) r = .ok (.boolean holds) ∧
      outcome r (.compare c.converse) l = .ok (.boolean holds)
  plus (l r : Value F) :
    ∃ x, outcome l (.arith .plus) r = .ok (.number x) ∧
      outcome r (.arith .plus) l = .ok (.number x)
  times (l r : Value F) :
    ∃ x, outcome l (.arith .times) r = .ok (.number x) ∧
      outcome r (.arith .times) l = .ok (.number x)

/-- Without a rule an operator can be told from either side. -/
theorem reversible_apply : Reversible (F := F) (apply z) where
  compare c l r := by
    refine ⟨c.values z l r, apply_compare z c, ?_⟩
    rw [apply_compare, Comparison.values_converse]
  plus l r := by
    refine ⟨l.toNumber z + r.toNumber z, rfl, ?_⟩
    rw [Binary64.float_add_comm]
    rfl
  times l r := by
    refine ⟨l.toNumber z * r.toNumber z, rfl, ?_⟩
    rw [Binary64.float_mul_comm]
    rfl

/-- And with the date rule of any zone. -/
theorem reversible_evaluate_dateRule : Reversible (F := F) (evaluate (dateRule z') z) where
  compare c l r := by
    refine ⟨_, evaluate_dateRule_compare z z' l r c, ?_⟩
    rw [evaluate_dateRule_compare, Comparison.numbers_converse, Comparison.values_converse]
    simp only [Comparison.countsDays_comm]
  plus l r := by
    obtain ⟨zone, hl, hr⟩ := exists_zone_evaluate_dateRule z z' l r .plus
    rw [hl, hr]
    exact (reversible_apply zone).plus l r
  times l r := by
    obtain ⟨zone, hl, hr⟩ := exists_zone_evaluate_dateRule z z' l r .times
    rw [hl, hr]
    exact (reversible_apply zone).times l r

end

/-- Comparisons, sums and products are reversible, both as they are and under a date rule, whichever
zone the rule counts days in. -/
theorem outcomes_reversible (F : Forest) (z z' : Zone) :
    Reversible (F := F) (apply z) ∧ Reversible (F := F) (evaluate (dateRule z') z) :=
  ⟨reversible_apply z, reversible_evaluate_dateRule z z'⟩

end Operator

end FormExpr
