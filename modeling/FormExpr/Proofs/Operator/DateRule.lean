import FormExpr.Operator.DateRule

/-!
# What the date rule changes

The date rule reads the sides of a comparison as day counts when one of them is a date or is written
as one, and booleans are not involved. A plain comparison does the same unless both sides are texts
compared for equality, or one is a node set; so only there can the rule change an outcome. Sums and
products read their operands as numbers with or without it.
-/

namespace FormExpr

variable {F : Forest}

namespace Value

def IsDated (v : Value F) : Prop :=
  v.kind = .date ∨ v.looksLikeDate = true

instance (v : Value F) : Decidable v.IsDated :=
  inferInstanceAs (Decidable (_ ∨ _))

end Value

namespace Comparison

def CountsDays (l r : Value F) : Prop :=
  l.kind ≠ .boolean ∧ r.kind ≠ .boolean ∧ (l.IsDated ∨ r.IsDated)

/-- The comparisons whose outcome the date rule may change: texts compared for equality of which one
is written as a date, and node sets where either side is a date or is written as one. -/
def Redirected (c : Comparison) (l r : Value F) : Prop :=
  l.kind ≠ .boolean ∧ r.kind ≠ .boolean ∧
    ((c = .eq ∨ c = .ne) ∧ l.kind = .string ∧ r.kind = .string ∧
        (l.looksLikeDate = true ∨ r.looksLikeDate = true) ∨
      (l.kind = .nodeSet ∨ r.kind = .nodeSet) ∧ (l.IsDated ∨ r.IsDated))

instance (l r : Value F) : Decidable (CountsDays l r) :=
  inferInstanceAs (Decidable (_ ∧ _))

instance (c : Comparison) (l r : Value F) : Decidable (c.Redirected l r) :=
  inferInstanceAs (Decidable (_ ∧ _))

theorem Redirected.countsDays {c : Comparison} {l r : Value F} (hredirected : c.Redirected l r) :
    CountsDays l r := by
  obtain ⟨hl, hr, htexts | hsets⟩ := hredirected
  · obtain ⟨-, -, -, hlooks⟩ := htexts
    exact ⟨hl, hr, hlooks.imp Or.inr Or.inr⟩
  · exact ⟨hl, hr, hsets.2⟩

/-- Without booleans, days are counted if a date or a date text is among the sides. -/
theorem countsDays_iff {l r : Value F} (hl : l.kind ≠ .boolean) (hr : r.kind ≠ .boolean) :
    CountsDays l r ↔
      (l.looksLikeDate || r.looksLikeDate) = true ∨ l.kind = .date ∨ r.kind = .date := by
  rw [Bool.or_eq_true]
  constructor
  · rintro ⟨-, -, (hdate | hlooks) | (hdate | hlooks)⟩
    · exact Or.inr (Or.inl hdate)
    · exact Or.inl (Or.inl hlooks)
    · exact Or.inr (Or.inr hdate)
    · exact Or.inl (Or.inr hlooks)
  · rintro ((hlooks | hlooks) | (hdate | hdate))
    · exact ⟨hl, hr, Or.inl (Or.inr hlooks)⟩
    · exact ⟨hl, hr, Or.inr (Or.inr hlooks)⟩
    · exact ⟨hl, hr, Or.inl (Or.inl hdate)⟩
    · exact ⟨hl, hr, Or.inr (Or.inl hdate)⟩

/-! ### Plain comparisons -/

section

variable (c : Comparison) (z : Zone) {l r : Value F}

theorem values_numbers (x y : Float) :
    c.values z (.number x : Value F) (.number y) = c.numbers x y := by
  simp [values, Value.parts, scalars, Value.kind, Value.toNumber]

theorem values_of_not_nodeSet (hl : l.kind ≠ .nodeSet) (hr : r.kind ≠ .nodeSet) :
    c.values z l r = c.scalars z l r := by
  cases l <;> cases r <;> simp_all [values, Value.parts, Value.kind]

theorem values_of_boolean (hl : l.kind ≠ .nodeSet) (hr : r.kind ≠ .nodeSet)
    (hboolean : l.kind = .boolean ∨ r.kind = .boolean) :
    c.values z l r =
      c.equality (l.toBool == r.toBool) (c.numbers (l.toNumber z) (r.toNumber z)) := by
  rw [values_of_not_nodeSet c z hl hr, scalars, if_pos hboolean]

/-- Order goes by numbers, and so does equality once a number or a date is involved. -/
theorem scalars_eq_numbers (hl : l.kind ≠ .boolean) (hr : r.kind ≠ .boolean)
    (hnumeric : (l.kind = .number ∨ l.kind = .date ∨ r.kind = .number ∨ r.kind = .date) ∨
      (c ≠ .eq ∧ c ≠ .ne)) :
    c.scalars z l r = c.numbers (l.toNumber z) (r.toNumber z) := by
  unfold scalars
  rw [if_neg (not_or.2 ⟨hl, hr⟩)]
  split
  · rfl
  · rename_i htexts
    obtain ⟨heq, hne⟩ := hnumeric.resolve_left htexts
    cases c with
    | eq => exact absurd rfl heq
    | ne => exact absurd rfl hne
    | lt | le | gt | ge => rfl

/-- Outside the redirected comparisons the numbers decide without the rule as well. -/
theorem values_eq_numbers_of_countsDays (hcounts : CountsDays l r)
    (hredirected : ¬ c.Redirected l r) :
    c.values z l r = c.numbers (l.toNumber z) (r.toNumber z) := by
  obtain ⟨hl, hr, hdated⟩ := hcounts
  have hsets : ¬ (l.kind = .nodeSet ∨ r.kind = .nodeSet) := by
    intro hset
    exact hredirected ⟨hl, hr, Or.inr ⟨hset, hdated⟩⟩
  obtain ⟨hlSet, hrSet⟩ := not_or.1 hsets
  rw [values_of_not_nodeSet c z hlSet hrSet]
  apply scalars_eq_numbers c z hl hr
  -- Two texts can only stand in a comparison of order, since the rule redirects the others.
  by_cases htexts : l.kind = .string ∧ r.kind = .string
  · right
    have hlooks : l.looksLikeDate = true ∨ r.looksLikeDate = true := by
      refine hdated.imp (Or.resolve_left · ?_) (Or.resolve_left · ?_)
      · rw [htexts.1]
        decide
      · rw [htexts.2]
        decide
    constructor
    · intro heq
      exact hredirected ⟨hl, hr, Or.inl ⟨Or.inl heq, htexts.1, htexts.2, hlooks⟩⟩
    · intro hne
      exact hredirected ⟨hl, hr, Or.inl ⟨Or.inr hne, htexts.1, htexts.2, hlooks⟩⟩
  · left
    cases l <;> cases r <;> simp_all [Value.kind]

end

end Comparison

namespace Operator

open Comparison

section

variable (z : Zone) {l r : Value F}

/-! ### One equation for each kind of operator -/

/-- A comparison goes on with the two day counts, or is left alone. -/
theorem dateRule_compare (c : Comparison) :
    dateRule z l (.compare c) r =
      if CountsDays l r then
        some (.proceed (.number (l.toNumber z)) (.compare c) (.number (r.toNumber z)))
      else none := by
  unfold dateRule
  dsimp only
  by_cases hboolean : l.kind = .boolean ∨ r.kind = .boolean
  · have hcounts : ¬ CountsDays l r := fun hcounts => hboolean.elim hcounts.1 hcounts.2.1
    rw [if_pos hboolean, if_neg hcounts]
  · obtain ⟨hl, hr⟩ := not_or.1 hboolean
    have hcounts := countsDays_iff hl hr
    have hreads : (Operator.compare c).readsDateTexts = true := rfl
    rw [if_neg hboolean, hreads, Bool.true_and]
    by_cases hlooks : (l.looksLikeDate || r.looksLikeDate) = true
    · rw [if_pos hlooks, if_pos (hcounts.2 (Or.inl hlooks))]
    · rw [if_neg hlooks]
      by_cases hdates : l.kind = .date ∨ r.kind = .date
      · rw [if_pos hdates, if_pos (hcounts.2 (Or.inr hdates))]
      · rw [if_neg hdates, if_neg fun h => (hcounts.1 h).elim hlooks hdates]

theorem evaluate_dateRule_of_countsDays (c : Comparison) (hcounts : CountsDays l r) :
    evaluate (dateRule z) z l (.compare c) r =
      .ok (.boolean (c.numbers (l.toNumber z) (r.toNumber z))) := by
  rw [evaluate, dateRule_compare, if_pos hcounts]
  dsimp only
  rw [apply, values_numbers]

theorem evaluate_dateRule_of_not_countsDays (c : Comparison) (hcounts : ¬ CountsDays l r) :
    evaluate (dateRule z) z l (.compare c) r = apply z l (.compare c) r := by
  rw [evaluate, dateRule_compare, if_neg hcounts]

theorem apply_compare (c : Comparison) :
    apply z l (.compare c) r = .ok (.boolean (c.values z l r)) := rfl

theorem apply_arith (a : Arithmetic) :
    apply z l (.arith a) r = .ok (.number (a.numbers (l.toNumber z) (r.toNumber z))) := rfl

/-- For arithmetic the rule steps aside, or gives the result, or hands over the two numbers. -/
theorem dateRule_arith (a : Arithmetic) :
    dateRule z l (.arith a) r = none ∨
    dateRule z l (.arith a) r =
      some (.result (.number (a.numbers (l.toNumber z) (r.toNumber z)))) ∨
    dateRule z l (.arith a) r =
      some (.proceed (.number (l.toNumber z)) (.arith a) (.number (r.toNumber z))) := by
  unfold dateRule
  dsimp only
  split
  · exact Or.inl rfl
  · split
    · exact Or.inr (Or.inl rfl)
    · split
      · exact Or.inr (Or.inr rfl)
      · exact Or.inl rfl

/-- The rule changes no sum and no product. -/
theorem evaluate_dateRule_arith (a : Arithmetic) :
    evaluate (dateRule z) z l (.arith a) r = apply z l (.arith a) r := by
  rw [evaluate]
  rcases dateRule_arith z (l := l) (r := r) a with hrule | hrule | hrule
  · rw [hrule]
  · rw [hrule, apply_arith]
  · rw [hrule, apply_arith]
    rfl

/-- Nor anything beside a boolean. -/
theorem evaluate_dateRule_of_boolean (op : Operator)
    (hboolean : l.kind = .boolean ∨ r.kind = .boolean) :
    evaluate (dateRule z) z l op r = apply z l op r := by
  have hrule : dateRule z l op r = none := by
    cases op with
    | or | and | union => rfl
    | compare c | arith a =>
      unfold dateRule
      dsimp only
      rw [if_pos hboolean]
  rw [evaluate, hrule]

theorem evaluate_dateRule_of_mem {op : Operator} (hop : op ∈ [Operator.or, .and, .union]) :
    evaluate (dateRule z) z l op r = apply z l op r := by
  simp only [List.mem_cons, List.not_mem_nil, or_false] at hop
  rcases hop with rfl | rfl | rfl <;> rfl

/-! ### Where the rule makes a difference -/

/-- Of the comparisons it changes the redirected ones at most. -/
theorem evaluate_dateRule_of_not_redirected (c : Comparison) (hredirected : ¬ c.Redirected l r) :
    evaluate (dateRule z) z l (.compare c) r = apply z l (.compare c) r := by
  by_cases hcounts : CountsDays l r
  · rw [evaluate_dateRule_of_countsDays z c hcounts, apply_compare,
      values_eq_numbers_of_countsDays c z hcounts hredirected]
  · exact evaluate_dateRule_of_not_countsDays z c hcounts

/-- The date rule changes nothing but the comparisons it redirects, and those go by numbers. -/
theorem evaluate_dateRule (l : Value F) (op : Operator) (r : Value F) :
    ((∀ c, op = .compare c → ¬ c.Redirected l r) →
      evaluate (dateRule z) z l op r = apply z l op r) ∧
    (∀ c, op = .compare c → c.Redirected l r →
      evaluate (dateRule z) z l op r =
        .ok (.boolean (c.numbers (l.toNumber z) (r.toNumber z)))) ∧
    (∀ a, op = .arith a → evaluate (dateRule z) z l op r = apply z l op r) := by
  refine ⟨?_, ?_, ?_⟩
  · intro hredirected
    cases op with
    | or | and | union => exact evaluate_dateRule_of_mem z (by decide)
    | arith a => exact evaluate_dateRule_arith z a
    | compare c => exact evaluate_dateRule_of_not_redirected z c (hredirected c rfl)
  · rintro c rfl hredirected
    exact evaluate_dateRule_of_countsDays z c hredirected.countsDays
  · rintro a rfl
    exact evaluate_dateRule_arith z a

/-- Two ways to write one day are equal under the date rule and different without it. -/
theorem evaluate_dateRule_newYear :
    let l : Value ⟨[]⟩ := .string "2018-01-01"
    let r : Value ⟨[]⟩ := .string " 2018-1-1"
    Comparison.eq.Redirected l r ∧
    evaluate (dateRule (.fixed 0)) (.fixed 0) l (.compare .eq) r = .ok (.boolean true) ∧
    apply (.fixed 0) l (.compare .eq) r = .ok (.boolean false) := by
  intro l r
  have hredirected : Comparison.eq.Redirected l r := by decide +kernel
  have hnumbers : Comparison.eq.numbers (l.toNumber (.fixed 0)) (r.toNumber (.fixed 0)) = true := by
    decide +kernel
  refine ⟨hredirected, ?_, ?_⟩
  · rw [(evaluate_dateRule (.fixed 0) l (.compare .eq) r).2.1 .eq rfl hredirected, hnumbers]
  · rw [apply_compare, show Comparison.eq.values (.fixed 0) l r = false by decide +kernel]

end

end Operator

end FormExpr
