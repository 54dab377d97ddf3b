import FormExpr.Proofs.Operator.DateRule
import Mathlib.Logic.Basic
import Mathlib.Tactic.SplitIfs

/-!
# Clocks that operators look up

An operator that goes by numbers takes those of both operands, by itself or through the date rule.
It breaks off when one of them is a date whose clock has left the calendar.
-/

namespace FormExpr

variable {F : Forest}

namespace Value

variable {v l r : Value F} {t : ZonedTime}

theorem mem_clocks_iff : t ∈ v.clocks ↔ v = .date (.valid t) := by
  cases v with
  | date m => cases m <;> simp [clocks, eq_comm]
  | _ => simp [clocks]

theorem clocks_eq_nil (h : v.kind ≠ .date) : v.clocks = [] := by
  cases v with
  | date m => exact absurd rfl h
  | _ => rfl

end Value

namespace Operator

open Comparison (CountsDays countsDays_iff)

/-- The operator goes by the numbers of its operands when these are no node sets. -/
def Counts (op : Operator) (l r : Value F) : Prop :=
  match op with
  | arith _ => True
  | compare c => ¬ ((c = .eq ∨ c = .ne) ∧ (l.kind = .boolean ∨ r.kind = .boolean))
  | or | and | union => False

section

variable (z : Zone) (l r : Value F)

/-- Beside a boolean, equality goes by truth, and order looks up the clock of a date. -/
theorem reads_compare_of_boolean (c : Comparison)
    (hboolean : l.kind = .boolean ∨ r.kind = .boolean) :
    reads l (.compare c) r = if c = .eq ∨ c = .ne then [] else l.clocks ++ r.clocks := by
  rw [reads, Comparison.reads]
  split_ifs <;> cases l <;> cases r <;> simp_all [Value.kind, Value.parts, Value.clocks]

/-- A comparison looks up the clocks of its operands through the rule, or without it if the other
operand is a boolean. -/
theorem lookups_compare (c : Comparison) (t : ZonedTime) :
    t ∈ dateRuleReads z l (.compare c) r ++ remainingReads (dateRule z) l (.compare c) r ↔
      (Operator.compare c).Counts l r ∧ t ∈ l.clocks ++ r.clocks := by
  rw [dateRuleReads, remainingReads, dateRule_compare]
  by_cases hcounts : CountsDays l r
  · have hnumbers (x y : Float) : reads (.number x : Value F) (.compare c) (.number y) = [] := by
      rw [reads, Comparison.reads]
      split_ifs <;> rfl
    have hplain : (Operator.compare c).Counts l r := fun h => h.2.elim hcounts.1 hcounts.2.1
    simp only [if_pos hcounts, Option.isSome_some, if_true, hnumbers, List.append_nil, hplain,
      true_and]
  · simp only [if_neg hcounts, Option.isSome_none, Bool.false_eq_true, if_false, List.nil_append]
    by_cases hboolean : l.kind = .boolean ∨ r.kind = .boolean
    · rw [reads_compare_of_boolean l r c hboolean]
      by_cases hequal : c = .eq ∨ c = .ne <;> simp [Counts, hequal, hboolean]
    · -- Without booleans the rule steps in for every date.
      obtain ⟨hl, hr⟩ := not_or.1 hboolean
      have hdates : ¬ (l.kind = .date ∨ r.kind = .date) :=
        fun h => hcounts ((countsDays_iff hl hr).2 (Or.inr h))
      obtain ⟨hlDate, hrDate⟩ := not_or.1 hdates
      rw [reads, Comparison.reads, Value.clocks_eq_nil hlDate, Value.clocks_eq_nil hrDate]
      simp

/-- Arithmetic looks up the clocks of both operands, with the rule or behind it. -/
theorem lookups_arith (a : Arithmetic) :
    dateRuleReads z l (.arith a) r ++ remainingReads (dateRule z) l (.arith a) r =
      l.clocks ++ r.clocks := by
  rw [dateRuleReads, remainingReads]
  rcases dateRule_arith z (l := l) (r := r) a with hrule | hrule | hrule <;>
    simp [hrule, reads, Value.clocks]

end

/-- With the date rule an operator breaks off if it goes by the numbers of its operands and one of
them is a date whose clock has left the calendar. -/
theorem perform_dateRule_eq_none_iff {z : Zone} {l r : Value F} {op : Operator} :
    perform (dateRule z) (dateRuleReads z) z l op r = none ↔
      op.Counts l r ∧
        ∃ t, (l = .date (.valid t) ∨ r = .date (.valid t)) ∧ ¬ t.OnCalendar := by
  have hlookups (t : ZonedTime) :
      t ∈ dateRuleReads z l op r ++ remainingReads (dateRule z) l op r ↔
        op.Counts l r ∧ t ∈ l.clocks ++ r.clocks := by
    cases op with
    | compare c => exact lookups_compare z l r c t
    | arith a => rw [lookups_arith, Counts, true_and]
    | or | and | union => exact iff_of_false List.not_mem_nil And.left
  unfold perform
  simp only [ite_eq_left_iff, reduceCtorEq, imp_false, not_not, List.any_eq_true,
    decide_eq_true_eq, hlookups, List.mem_append, Value.mem_clocks_iff]
  exact ⟨fun ⟨t, ⟨hcounts, hmem⟩, hoff⟩ => ⟨hcounts, t, hmem, hoff⟩,
    fun ⟨hcounts, t, hmem, hoff⟩ => ⟨t, ⟨hcounts, hmem⟩, hoff⟩⟩

end Operator

end FormExpr
