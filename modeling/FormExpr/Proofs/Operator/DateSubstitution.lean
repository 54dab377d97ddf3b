import FormExpr.Host
import FormExpr.Proofs.Calendar.DateText
import FormExpr.Proofs.Operator.DateRule

/-!
# Dates and their texts

An operator makes no difference between a date, its text, and a node set with that text: the date
rule takes each to the same number, and arithmetic does so by itself. Only a boolean tells them
apart, since a text counts as true whether or not the calendar has its date.
-/

namespace FormExpr

variable {F : Forest}

namespace Evaluator

/-- The evaluator reads dates in its own zone, as it does unless the host replaces its rule. -/
def ReadsDates (e : Evaluator F) : Prop :=
  e.rule = Operator.dateRule e.environment.zone

theorem ReadsDates.evaluate_eq {e : Evaluator F} (hrule : e.ReadsDates) (l : Value F)
    (op : Operator) (r : Value F) :
    e.evaluate l op r =
      Operator.evaluate (Operator.dateRule e.environment.zone) e.environment.zone l op r := by
  rw [evaluate, hrule]

end Evaluator

namespace Value

variable (z : Zone) {s : String} (hdate : isDateText (Text.trim s.toList) = true)

include hdate

/-- A date text has the day count of the date that it stands for. -/
theorem toNumber_string_eq_toNumber_date :
    (string s : Value F).toNumber z = (date ((string s : Value F).toMoment z) : Value F).toNumber z :=
  Number.ofText_of_isDateText z hdate

theorem isDated_string : (string s : Value F).IsDated :=
  Or.inr hdate

theorem toBool_string : (string s : Value F).toBool = true := by
  have hne : s ≠ "" := by
    rintro rfl
    exact ne_nil_of_isDateText hdate rfl
  simp [toBool, hne]

end Value

namespace Value

variable (z : Zone) {nodes : List (Node F)} {s : String}

/-- A node set has the number of its text. -/
theorem toNumber_nodeSet (htext : (nodeSet nodes).toText = s) :
    (nodeSet nodes).toNumber z = (string s : Value F).toNumber z := by
  rw [← htext]
  rfl

/-- And it counts as dated if its text does. -/
theorem isDated_nodeSet_iff (htext : (nodeSet nodes).toText = s) :
    (nodeSet nodes).IsDated ↔ (string s : Value F).IsDated := by
  rw [← htext]
  simp [IsDated, kind, looksLikeDate, toText]

end Value

namespace Operator

variable (z : Zone) {l r : Value F} {op : Operator}

/-- Once a side is dated and none is a boolean, an operator takes both sides as numbers. -/
theorem evaluate_dateRule_of_isDated (hop : op ∉ [Operator.or, .and, .union])
    (hl : l.kind ≠ .boolean) (hr : r.kind ≠ .boolean) (hdated : l.IsDated ∨ r.IsDated) :
    evaluate (dateRule z) z l op r =
      apply z (.number (l.toNumber z)) op (.number (r.toNumber z) : Value F) := by
  cases op with
  | or | and | union => exact absurd (by decide) hop
  | arith a =>
    rw [evaluate_dateRule_arith, apply_arith, apply_arith]
    rfl
  | compare c =>
    rw [evaluate_dateRule_of_countsDays z c ⟨hl, hr, hdated⟩, apply_compare,
      Comparison.values_numbers]

/-- Values with one number can stand for each other wherever the rule counts days. -/
theorem evaluate_dateRule_congr {d v : Value F} (hop : op ∉ [Operator.or, .and, .union])
    (hv : v.kind ≠ .boolean) (hl : l.kind ≠ .boolean) (hd : d.kind ≠ .boolean)
    (hlDated : l.IsDated ∨ v.IsDated) (hdDated : d.IsDated ∨ v.IsDated)
    (hnumber : l.toNumber z = d.toNumber z) :
    evaluate (dateRule z) z l op v = evaluate (dateRule z) z d op v ∧
    evaluate (dateRule z) z v op l = evaluate (dateRule z) z v op d := by
  constructor
  · rw [evaluate_dateRule_of_isDated z hop hl hv hlDated,
      evaluate_dateRule_of_isDated z hop hd hv hdDated, hnumber]
  · rw [evaluate_dateRule_of_isDated z hop hv hl hlDated.symm,
      evaluate_dateRule_of_isDated z hop hv hd hdDated.symm, hnumber]

end Operator

/-! ### Against a boolean -/

/-- A truth in place of another shows in equality and its negation alone, and there always. -/
theorem Comparison.equality_true_eq_iff (c : Comparison) (t b otherwise : Bool) :
    c.equality (true == b) otherwise = c.equality (t == b) otherwise ↔
      ¬ ((c = .eq ∨ c = .ne) ∧ t = false) := by
  cases c <;> cases t <;> cases b <;> simp [equality]

namespace Operator

variable (z : Zone) {l d v : Value F} {op : Operator}

/-- Against a boolean, a true value can stand for any value with its number except in equality and
its negation, where that value has to be true as well. -/
theorem apply_boolean_eq_iff (hop : op ∉ [Operator.or, .and, .union]) (hv : v.kind = .boolean)
    (hl : l.kind ≠ .nodeSet) (hd : d.kind ≠ .nodeSet) (htrue : l.toBool = true)
    (hnumber : l.toNumber z = d.toNumber z) :
    (apply z l op v = apply z d op v ↔
      ¬ ((op = .compare .eq ∨ op = .compare .ne) ∧ d.toBool = false)) ∧
    (apply z v op l = apply z v op d ↔
      ¬ ((op = .compare .eq ∨ op = .compare .ne) ∧ d.toBool = false)) := by
  have hset : v.kind ≠ .nodeSet := by
    rw [hv]
    decide
  cases op with
  | or | and | union => exact absurd (by decide) hop
  | arith a => simp [apply_arith, hnumber]
  | compare c =>
    have hcompare := Comparison.equality_true_eq_iff c d.toBool v.toBool
    constructor
    · rw [apply_compare, apply_compare, Comparison.values_of_boolean c z hl hset (Or.inr hv),
        Comparison.values_of_boolean c z hd hset (Or.inr hv), htrue, hnumber]
      simpa using hcompare _
    · rw [apply_compare, apply_compare, Comparison.values_of_boolean c z hset hl (Or.inl hv),
        Comparison.values_of_boolean c z hset hd (Or.inl hv), htrue, hnumber,
        Bool.beq_comm, Bool.beq_comm (a := v.toBool)]
      simpa using hcompare _

end Operator

namespace Value

def asDate (z : Zone) (v : Value F) : Value F :=
  .date (v.toMoment z)

end Value

namespace Evaluator

open Operator

/-- A text that is a date text, the date it is cast to, and a node set with that text give the same
results, except that against a boolean equality and its negation tell a text from the invalid date
that it denotes. -/
theorem evaluate_date_text {e : Evaluator F} (hrule : e.ReadsDates) {s : String}
    (hdate : isDateText (Text.trim s.toList) = true) {op : Operator}
    (hop : op ∉ [Operator.or, .and, .union]) (v : Value F) :
    let text : Value F := .string s
    let day : Value F := text.asDate e.environment.zone
    let distinguished : Prop :=
      v.kind = .boolean ∧ (op = .compare .eq ∨ op = .compare .ne) ∧
        (text.toMoment e.environment.zone).isValid = false
    (e.evaluate text op v = e.evaluate day op v ↔ ¬ distinguished) ∧
    (e.evaluate v op text = e.evaluate v op day ↔ ¬ distinguished) ∧
    (v.kind ≠ .boolean → ∀ nodes : List (Node F), (Value.nodeSet nodes).toText = s →
      e.evaluate (.nodeSet nodes) op v = e.evaluate day op v ∧
      e.evaluate v op (.nodeSet nodes) = e.evaluate v op day) := by
  intro text day distinguished
  have htextKind : text.kind = .string := rfl
  have hdayKind : day.kind = .date := rfl
  have hnumber : text.toNumber e.environment.zone = day.toNumber e.environment.zone :=
    Value.toNumber_string_eq_toNumber_date e.environment.zone hdate
  have htextDated : text.IsDated := Value.isDated_string hdate
  have hdayDated : day.IsDated := Or.inl rfl
  simp only [hrule.evaluate_eq]
  by_cases hv : v.kind = .boolean
  · have hdistinguished : distinguished ↔
        (op = .compare .eq ∨ op = .compare .ne) ∧ day.toBool = false := by
      simp only [distinguished, hv, true_and]
      exact Iff.rfl
    have hagree := apply_boolean_eq_iff e.environment.zone hop hv
      (by simp [Value.kind]) (by simp [hdayKind]) (Value.toBool_string hdate) hnumber
    rw [evaluate_dateRule_of_boolean _ op (Or.inr hv), evaluate_dateRule_of_boolean _ op (Or.inr hv),
      evaluate_dateRule_of_boolean _ op (Or.inl hv), evaluate_dateRule_of_boolean _ op (Or.inl hv),
      hdistinguished]
    exact ⟨hagree.1, hagree.2, fun hne => absurd hv hne⟩
  · have hdistinguished : ¬ distinguished := fun h => hv h.1
    have hagree := evaluate_dateRule_congr e.environment.zone hop hv (by simp [htextKind])
      (by simp [hdayKind]) (Or.inl htextDated) (Or.inl hdayDated) hnumber
    refine ⟨iff_of_true hagree.1 hdistinguished, iff_of_true hagree.2 hdistinguished, ?_⟩
    intro _ nodes htext
    apply evaluate_dateRule_congr e.environment.zone hop hv (by simp [Value.kind])
      (by simp [hdayKind]) (Or.inl ((Value.isDated_nodeSet_iff htext).2 htextDated)) (Or.inl hdayDated)
    rw [Value.toNumber_nodeSet e.environment.zone htext]
    exact hnumber

def eastern : Evaluator F :=
  standard (.standard (.fixed 7200) ⟨0, 0, 0⟩ fun _ => 0)

theorem readsDates_eastern : (eastern : Evaluator F).ReadsDates := rfl

/-- The thirtieth of February is true as a text and false as a date; its number is the same. -/
theorem evaluate_date_text_february :
    let text : Value ⟨[]⟩ := .string " 2018-02-30 "
    let day : Value ⟨[]⟩ := text.asDate (.fixed 7200)
    isDateText (Text.trim " 2018-02-30 ".toList) = true ∧
    eastern.evaluate text (.compare .eq) (.boolean true) ≠
      eastern.evaluate day (.compare .eq) (.boolean true) ∧
    eastern.evaluate text (.compare .lt) (.boolean true) =
      eastern.evaluate day (.compare .lt) (.boolean true) := by
  intro text day
  have hdate : isDateText (Text.trim " 2018-02-30 ".toList) = true := by decide +kernel
  have hinvalid : (text.toMoment (.fixed 7200)).isValid = false := by decide +kernel
  refine ⟨hdate, ?_, ?_⟩
  · intro heq
    exact (evaluate_date_text readsDates_eastern hdate (by decide) (.boolean true)).1.1 heq
      ⟨rfl, Or.inl rfl, hinvalid⟩
  · apply (evaluate_date_text readsDates_eastern hdate (by decide) (.boolean true)).1.2
    rintro ⟨-, hop, -⟩
    exact absurd hop (by decide)

end Evaluator

end FormExpr
