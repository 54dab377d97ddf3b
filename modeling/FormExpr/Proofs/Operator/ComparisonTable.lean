import FormExpr.Proofs.Operator.NodeSetComparison

/-!
# The table of comparisons

The standard gives a comparison row by row, for each pair of kinds that its sides can have. A plain
comparison is the one of its row. Dates have no row of their own: they stand where numbers stand.
-/

namespace FormExpr

variable {F : Forest}

namespace Comparison

def Splits (c : Comparison) (same ordered : Prop) : Prop :=
  match c with
  | eq => same
  | ne => ¬ same
  | lt | le | gt | ge => ordered

def OnNumbers : Comparison → Float → Float → Prop
  | eq, x, y => (x == y) = true
  | ne, x, y => (x == y) = false
  | lt, x, y => x < y
  | le, x, y => x ≤ y
  | gt, x, y => y < x
  | ge, x, y => y ≤ x

def OnTexts (c : Comparison) (z : Zone) (s t : String) : Prop :=
  c.Splits (s = t) (c.OnNumbers (Number.ofText z s.toList) (Number.ofText z t.toList))

def OnTruths (c : Comparison) (a b : Bool) : Prop :=
  c.Splits (a = b) (c.OnNumbers (if a then 1 else 0) (if b then 1 else 0))

/-- The rows of the standard, the earlier ones first. -/
def Tabulated (c : Comparison) (z : Zone) : Value F → Value F → Prop
  | .nodeSet a, .nodeSet b => ∃ m ∈ a, ∃ n ∈ b, c.OnTexts z m.stringValue n.stringValue
  | .nodeSet a, .string t => ∃ m ∈ a, c.OnTexts z m.stringValue t
  | .string s, .nodeSet b => ∃ n ∈ b, c.OnTexts z s n.stringValue
  | .nodeSet a, .boolean q => c.OnTruths (decide (a ≠ [])) q
  | .boolean p, .nodeSet b => c.OnTruths p (decide (b ≠ []))
  | .nodeSet a, r => ∃ m ∈ a, c.OnNumbers (m.toNumber z) (r.toNumber z)
  | l, .nodeSet b => ∃ n ∈ b, c.OnNumbers (l.toNumber z) (n.toNumber z)
  | .boolean p, r => c.Splits (p = r.toBool) (c.OnNumbers (if p then 1 else 0) (r.toNumber z))
  | l, .boolean q => c.Splits (l.toBool = q) (c.OnNumbers (l.toNumber z) (if q then 1 else 0))
  | .string s, .string t => c.OnTexts z s t
  | l, r => c.OnNumbers (l.toNumber z) (r.toNumber z)

section

variable (c : Comparison) (z : Zone) {l r : Value F}

/-- Numbers are compared as the standard compares them. -/
theorem numbers_iff (x y : Float) : c.numbers x y = true ↔ c.OnNumbers x y := by
  cases c <;> simp [numbers, OnNumbers, bne]

theorem equality_iff (same ordered : Bool) :
    c.equality same ordered = true ↔ c.Splits (same = true) (ordered = true) := by
  cases c <;> simp [equality, Splits]

/-! ### Sides that are no node sets -/

theorem values_of_boolean_iff (hl : l.kind ≠ .nodeSet) (hr : r.kind ≠ .nodeSet)
    (hboolean : l.kind = .boolean ∨ r.kind = .boolean) :
    c.values z l r = true ↔
      c.Splits (l.toBool = r.toBool) (c.OnNumbers (l.toNumber z) (r.toNumber z)) := by
  rw [values_of_boolean c z hl hr hboolean, equality_iff, numbers_iff, beq_iff_eq]

theorem values_strings_iff (s t : String) :
    c.values z (.string s : Value F) (.string t) = true ↔ c.OnTexts z s t := by
  rw [values_of_not_nodeSet c z (by simp [Value.kind]) (by simp [Value.kind]), scalars,
    if_neg (by simp [Value.kind]), if_neg (by simp [Value.kind]), equality_iff, numbers_iff,
    beq_iff_eq]
  exact Iff.rfl

theorem values_of_numeric_iff (hl : l.kind ≠ .nodeSet) (hr : r.kind ≠ .nodeSet)
    (hboolean : ¬ (l.kind = .boolean ∨ r.kind = .boolean))
    (hnumeric : l.kind = .number ∨ l.kind = .date ∨ r.kind = .number ∨ r.kind = .date) :
    c.values z l r = true ↔ c.OnNumbers (l.toNumber z) (r.toNumber z) := by
  obtain ⟨hl', hr'⟩ := not_or.1 hboolean
  rw [values_of_not_nodeSet c z hl hr, scalars_eq_numbers c z hl' hr' (Or.inl hnumeric),
    numbers_iff]

/-- Without node sets a comparison goes by the rows for single values. -/
theorem values_iff_tabulated_of_not_nodeSet (hl : l.kind ≠ .nodeSet) (hr : r.kind ≠ .nodeSet) :
    c.values z l r = true ↔ c.Tabulated z l r := by
  cases l with
  | nodeSet a => exact absurd rfl hl
  | boolean p =>
    cases r with
    | nodeSet b => exact absurd rfl hr
    | boolean | number | string | date => exact values_of_boolean_iff c z hl hr (Or.inl rfl)
  | string s =>
    cases r with
    | nodeSet b => exact absurd rfl hr
    | boolean q => exact values_of_boolean_iff c z hl hr (Or.inr rfl)
    | string t => exact values_strings_iff c z s t
    | number | date =>
      exact values_of_numeric_iff c z hl hr (by simp [Value.kind]) (by simp [Value.kind])
  | number | date =>
    cases r with
    | nodeSet b => exact absurd rfl hr
    | boolean q => exact values_of_boolean_iff c z hl hr (Or.inr rfl)
    | number | string | date =>
      exact values_of_numeric_iff c z hl hr (by simp [Value.kind]) (by simp [Value.kind])

/-! ### Node sets -/

/-- A boolean turns a node set into a boolean, which says whether it has a member. -/
theorem values_nodeSet_boolean_iff (a : List (Node F)) (q : Bool) :
    (c.values z (.nodeSet a) (.boolean q) = true ↔ c.Tabulated z (.nodeSet a) (.boolean q)) ∧
    (c.values z (.boolean q) (.nodeSet a) = true ↔ c.Tabulated z (.boolean q) (.nodeSet a)) := by
  have htruth : (Value.nodeSet a).toBool = decide (a ≠ []) := by
    cases a <;> simp [Value.toBool]
  have hbooleans : ∀ p q : Bool,
      c.scalars z (.boolean p : Value F) (.boolean q) = true ↔ c.OnTruths p q := by
    intro p q
    rw [← values_of_not_nodeSet c z (by simp [Value.kind]) (by simp [Value.kind])]
    exact values_of_boolean_iff c z (by simp [Value.kind]) (by simp [Value.kind]) (Or.inl rfl)
  constructor
  · rw [values, htruth]
    exact hbooleans _ _
  · rw [values, htruth]
    exact hbooleans _ _

/-- The rows for node sets come down to the rows for the texts of the members. -/
theorem tabulated_nodeSet_left (a : List (Node F)) (hr : r.kind ≠ .boolean) :
    c.Tabulated z (.nodeSet a) r ↔ ∃ m ∈ a, c.Tabulated z (.string m.stringValue) r := by
  cases r with
  | boolean q => exact absurd rfl hr
  | number | string | date | nodeSet => exact Iff.rfl

theorem tabulated_nodeSet_right (b : List (Node F)) (hl : l.kind ≠ .boolean)
    (hl' : l.kind ≠ .nodeSet) :
    c.Tabulated z l (.nodeSet b) ↔ ∃ n ∈ b, c.Tabulated z l (.string n.stringValue) := by
  cases l with
  | boolean p => exact absurd rfl hl
  | nodeSet a => exact absurd rfl hl'
  | number | string | date => exact Iff.rfl

theorem values_iff_tabulated_of_left (hl : l.kind ≠ .nodeSet) (r : Value F) :
    c.values z l r = true ↔ c.Tabulated z l r := by
  cases r with
  | nodeSet b =>
    by_cases hboolean : l.kind = .boolean
    · cases l with
      | boolean p => exact (values_nodeSet_boolean_iff c z b p).2
      | number | string | date | nodeSet => cases hboolean
    · rw [values_nodeSet_right c z hboolean, tabulated_nodeSet_right c z b hboolean hl]
      refine exists_congr fun n => and_congr_right fun _ => ?_
      exact values_iff_tabulated_of_not_nodeSet c z hl (by simp [Value.kind])
  | boolean | number | string | date =>
    exact values_iff_tabulated_of_not_nodeSet c z hl (by simp [Value.kind])

/-- Every comparison goes by the table. -/
theorem values_iff_tabulated (l r : Value F) : c.values z l r = true ↔ c.Tabulated z l r := by
  cases l with
  | nodeSet a =>
    by_cases hboolean : r.kind = .boolean
    · cases r with
      | boolean q => exact (values_nodeSet_boolean_iff c z a q).1
      | number | string | date | nodeSet => cases hboolean
    · rw [values_nodeSet_left c z hboolean, tabulated_nodeSet_left c z a hboolean]
      refine exists_congr fun m => and_congr_right fun _ => ?_
      exact values_iff_tabulated_of_left c z (by simp [Value.kind]) r
  | boolean | number | string | date =>
    exact values_iff_tabulated_of_left c z (by simp [Value.kind]) r

end

end Comparison

namespace Operator

/-- A plain comparison always comes out as a boolean, which is the one that the table gives. -/
theorem apply_compare_tabulated (c : Comparison) (z : Zone) (l r : Value F) :
    ∃ holds, apply z l (.compare c) r = .ok (.boolean holds) ∧
      (holds = true ↔ c.Tabulated z l r) :=
  ⟨c.values z l r, apply_compare z c, Comparison.values_iff_tabulated c z l r⟩

end Operator

end FormExpr
