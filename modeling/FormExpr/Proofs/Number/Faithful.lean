import FormExpr.Proofs.Number.NonNegative

/-!
# Real numbers as doubles

Between two neighbouring doubles a real number is not one itself. The nearest double is one of the
two neighbours, and a function that gives either of them for its real value, and the value itself
where that is a double, is called faithful.
-/

namespace FormExpr.Binary64

def IsNearest (r : ℝ) (x : Float) : Prop :=
  x.isFinite = true ∧ ∀ y : Float, y.isFinite = true → |(value x : ℝ) - r| ≤ |(value y : ℝ) - r|

/-- No double lies between the number and this one, and this one is the number if a double is. -/
structure IsFaithful (r : ℝ) (x : Float) : Prop where
  isFinite : x.isFinite = true
  value_le {y : Float} (hy : y.isFinite = true) (hr : r ≤ value y) : value x ≤ value y
  le_value {y : Float} (hy : y.isFinite = true) (hr : (value y : ℝ) ≤ r) : value y ≤ value x

/-- Every real number has a nearest double. -/
theorem exists_isNearest (r : ℝ) : ∃ x, IsNearest r x := by
  have hbits : Function.Injective fun x : Float => x.toBits.toBitVec.toFin := by
    intro x y hxy
    exact ext_toBits (congrArg Fin.val hxy)
  have hfinite : Finite Float := Finite.of_injective _ hbits
  have hzero : ({x | x.isFinite = true} : Set Float).Nonempty := ⟨0, isInteger_zero.1⟩
  exact Set.exists_min_image {x | x.isFinite = true} (fun x => |(value x : ℝ) - r|)
    (Set.toFinite _) hzero

/-- The nearest double is a faithful one. -/
theorem IsNearest.isFaithful {r : ℝ} {x : Float} (h : IsNearest r x) : IsFaithful r x := by
  obtain ⟨hx, hnearest⟩ := h
  refine ⟨hx, ?_, ?_⟩
  · intro y hy hr
    have hle := hnearest y hy
    by_contra hlt
    rw [not_le, ← Rat.cast_lt (K := ℝ)] at hlt
    rw [abs_of_nonneg (by linarith), abs_of_nonneg (by linarith)] at hle
    linarith
  · intro y hy hr
    have hle := hnearest y hy
    by_contra hlt
    rw [not_le, ← Rat.cast_lt (K := ℝ)] at hlt
    rw [abs_of_nonpos (by linarith), abs_of_nonpos (by linarith)] at hle
    linarith

noncomputable def nearestDouble (r : ℝ) : Float :=
  (exists_isNearest r).choose

theorem isNearest_nearestDouble (r : ℝ) : IsNearest r (nearestDouble r) :=
  (exists_isNearest r).choose_spec

theorem IsFaithful.value_eq {r : ℝ} {x y : Float} (h : IsFaithful r x) (hy : y.isFinite = true)
    (hr : (value y : ℝ) = r) : value x = value y :=
  le_antisymm (h.value_le hy hr.ge) (h.le_value hy hr.le)

/-! ### Doubles of the same value -/

theorem place_eq_of_value_eq {x y : Float} (hxy : value x = value y) : place x = place y := by
  rw [value_eq_valueAt, value_eq_valueAt] at hxy
  exact strictMono_valueAt.injective hxy

theorem eq_of_value_eq {x y : Float} (hx : x.isFinite = true) (hy : y.isFinite = true)
    (hxy : value x = value y) (hne : value x ≠ 0) : x = y := by
  rw [isFinite_eq, decide_eq_true_iff] at hx hy
  refine eq_of_place_eq hx.le hy.le ?_ (place_eq_of_value_eq hxy)
  by_contra hzero
  apply hne
  rw [value_eq, absValue, Nat.eq_zero_of_not_pos hzero, Dyadic.value_ofBits_zero, neg_zero, ite_self]

/-- Zero has two signs. -/
theorem eq_zero_of_value_eq_zero {x : Float} (hx : value x = 0) :
    ∃ negative, x = ofMagnitude negative 0 := by
  have hplace : place x = place 0 := place_eq_of_value_eq (hx.trans isInteger_zero.2.symm)
  have hzero : place 0 = 0 := by decide
  have hmagnitude : magnitude x = 0 := by
    rw [hzero, place] at hplace
    split_ifs at hplace <;> omega
  refine ⟨isNegative x, ?_⟩
  rw [← hmagnitude, ofMagnitude_magnitude (by omega)]

end FormExpr.Binary64
