import FormExpr.Proofs.Geo.Trigonometry

/-!
# The squares of sine and cosine

Sine and cosine are rounded, and so are their squares and the sum of these, so the sum is not always
one. At zero it is one or more. At an angle whose cosine is nearer to the double before one than to
one the rounded cosine is too small, and for some of these the square of the sine does not make up
for it.
-/

namespace FormExpr.GeoPoint

open Binary64

def squareSum (trig : Trigonometry) (φ : Float) : Float :=
  trig.sin φ * trig.sin φ + trig.cos φ * trig.cos φ

section

variable {trig : Trigonometry} (htrig : trig.Faithful)

include htrig

theorem nonNegative_squareSum {φ : Float} (hφ : φ.isFinite = true) :
    NonNegative (squareSum trig φ) :=
  (nonNegative_mul_self (htrig.sin hφ).isFinite).add (nonNegative_mul_self (htrig.cos hφ).isFinite)

/-- At the equator the sum is one. -/
theorem one_le_squareSum_zero : 1 ≤ squareSum trig 0 := by
  have hsquare : (1 : Float) * 1 = 1 := nonNegative_one.mul_one_eq
  rw [squareSum, htrig.cos_zero, hsquare]
  exact (nonNegative_mul_self (htrig.sin isInteger_zero.1).isFinite).le_add_left nonNegative_one

end

/-! ### Angles with a rounded cosine that is too small -/

/-- At an angle whose cosine is nearer to the double before one than to one, the nearest double lies
below one. -/
theorem lt_one_of_nearest_cos {q v : ℝ} (hlow : 1.2 / 2 ^ 53 ≤ q ^ 2) (hhigh : q ^ 2 ≤ 1.5 / 2 ^ 53)
    (hnearest : |v - Real.cos q| ≤ |(1 - 1 / 2 ^ 53) - Real.cos q|) : 0 < v ∧ v < 1 := by
  have hunit : |q| ≤ 1 := by
    rw [← sq_le_one_iff_abs_le_one]
    norm_num at hhigh
    linarith
  have hbound := Real.cos_bound hunit
  have hpow : |q| ^ 4 = (q ^ 2) ^ 2 := by
    rw [← sq_abs q]
    ring
  have hsmall : (q ^ 2) ^ 2 * (5 / 96) ≤ 0.05 / 2 ^ 53 := by
    have hle : (q ^ 2) ^ 2 ≤ (1.5 / 2 ^ 53) ^ 2 := by gcongr
    norm_num at hle ⊢
    linarith
  rw [hpow, abs_le] at hbound
  obtain ⟨hbelow, habove⟩ := hbound
  have hcos : 0 ≤ Real.cos q - (1 - 1 / 2 ^ 53) := by
    norm_num at hhigh hsmall ⊢
    linarith
  rw [abs_sub_comm (1 - 1 / 2 ^ 53), abs_of_nonneg hcos, abs_le] at hnearest
  obtain ⟨hleft, hright⟩ := hnearest
  norm_num at hlow hhigh hsmall hleft hright ⊢
  constructor <;> linarith

/-- From here to `lastAngle` the cosine is nearer to the double before one than to one. -/
def firstAngle : Float := 0.0000000116

def lastAngle : Float := 0.0000000128

theorem value_firstAngle : value firstAngle = 7011769753764849 / 2 ^ 79 := by
  have hfraction : fraction firstAngle = (7011769753764849, 2 ^ 79) := by decide
  rw [value, hfraction]
  norm_num

theorem value_lastAngle : value lastAngle = 7737125245533627 / 2 ^ 79 := by
  have hfraction : fraction lastAngle = (7737125245533627, 2 ^ 79) := by decide
  rw [value, hfraction]
  norm_num

section

variable {φ : Float} (hφ : φ.isFinite = true) (hfirst : firstAngle ≤ φ) (hlast : φ ≤ lastAngle)

include hφ hfirst hlast

theorem value_angle_bounds :
    (7011769753764849 / 2 ^ 79 : ℝ) ≤ value φ ∧ (value φ : ℝ) ≤ 7737125245533627 / 2 ^ 79 := by
  have hfinite : firstAngle.isFinite = true := by decide
  have hfinite' : lastAngle.isFinite = true := by decide
  rw [le_iff_value_le hfinite hφ, value_firstAngle, ← Rat.cast_le (K := ℝ)] at hfirst
  rw [le_iff_value_le hφ hfinite', value_lastAngle, ← Rat.cast_le (K := ℝ)] at hlast
  push_cast at hfirst hlast
  exact ⟨hfirst, hlast⟩

theorem value_angle_nonneg : 0 ≤ value φ := by
  have hpos : (0 : ℝ) ≤ value φ :=
    (value_angle_bounds hφ hfirst hlast).1.trans' (by positivity)
  exact_mod_cast hpos

/-- The sine is no more than the angle. -/
theorem sin_mul_sin_le : Trigonometry.rounded.sin φ * Trigonometry.rounded.sin φ ≤ φ * φ := by
  have hhigh := (value_angle_bounds hφ hfirst hlast).2
  have hpos : (0 : ℝ) ≤ value φ := by exact_mod_cast value_angle_nonneg hφ hfirst hlast
  have hsin := Trigonometry.faithful_rounded.sin hφ
  have hlower : value 0 ≤ value (Trigonometry.rounded.sin φ) := by
    apply hsin.le_value isInteger_zero.1
    rw [isInteger_zero.2]
    have hpi := Real.pi_gt_three
    norm_num at hhigh
    exact_mod_cast Real.sin_nonneg_of_nonneg_of_le_pi hpos (by linarith)
  have hupper : value (Trigonometry.rounded.sin φ) ≤ value φ :=
    hsin.value_le hφ (Real.sin_le hpos)
  rw [isInteger_zero.2, Int.cast_zero] at hlower
  apply mul_self_le_mul_self hsin.isFinite hφ
  rwa [abs_of_nonneg hlower, abs_of_nonneg (hlower.trans hupper)]

/-- The cosine is less than one. -/
theorem cos_mul_cos_le : Trigonometry.rounded.cos φ * Trigonometry.rounded.cos φ ≤
    Trigonometry.beforeOne * Trigonometry.beforeOne := by
  obtain ⟨hlow, hhigh⟩ := value_angle_bounds hφ hfirst hlast
  have hpos : (0 : ℝ) ≤ value φ := by exact_mod_cast value_angle_nonneg hφ hfirst hlast
  obtain ⟨hfinite, hnearest⟩ := isNearest_nearestDouble (Real.cos (value φ))
  have hle := hnearest Trigonometry.beforeOne Trigonometry.isFinite_beforeOne
  rw [Trigonometry.value_beforeOne] at hle
  push_cast at hle
  have hunit := lt_one_of_nearest_cos
    (calc (1.2 / 2 ^ 53 : ℝ) ≤ (7011769753764849 / 2 ^ 79) ^ 2 := by norm_num
      _ ≤ (value φ : ℝ) ^ 2 := by gcongr)
    (calc (value φ : ℝ) ^ 2 ≤ (7737125245533627 / 2 ^ 79) ^ 2 := by gcongr
      _ ≤ 1.5 / 2 ^ 53 := by norm_num) hle
  have hcosine : Trigonometry.rounded.cos φ = nearestDouble (Real.cos (value φ)) := rfl
  rw [hcosine]
  generalize nearestDouble (Real.cos (value φ)) = cosine at hfinite hunit
  have hvalue : 0 < value cosine ∧ value cosine < 1 := by exact_mod_cast hunit
  have hnonneg := nonNegative_of_value_pos hfinite hvalue.1
  have hone : ¬ 1 ≤ cosine := by
    rw [le_iff_value_le isInteger_one.1 hfinite, isInteger_one.2, not_le]
    exact_mod_cast hvalue.2
  have hbefore := Trigonometry.le_beforeOne hnonneg hone
  rw [le_iff_value_le hfinite Trigonometry.isFinite_beforeOne] at hbefore
  apply mul_self_le_mul_self hfinite Trigonometry.isFinite_beforeOne
  rwa [abs_of_nonneg hvalue.1.le, abs_of_nonneg (hvalue.1.le.trans hbefore)]

/-- Between the two angles the sum of squares falls short of one. -/
theorem not_one_le_squareSum_rounded : ¬ 1 ≤ squareSum .rounded φ := by
  have hlastFinite : lastAngle.isFinite = true := by decide
  have hbefore := nonNegative_mul_self Trigonometry.isFinite_beforeOne
  have hsin := nonNegative_mul_self (Trigonometry.faithful_rounded.sin hφ).isFinite
  have hcos := nonNegative_mul_self (Trigonometry.faithful_rounded.cos hφ).isFinite
  have hsquare : φ * φ ≤ lastAngle * lastAngle := by
    have hpos := value_angle_nonneg hφ hfirst hlast
    rw [le_iff_value_le hφ hlastFinite] at hlast
    apply mul_self_le_mul_self hφ hlastFinite
    rwa [abs_of_nonneg hpos, abs_of_nonneg (hpos.trans hlast)]
  have hsine := hsin.le_trans (nonNegative_mul_self hφ) (nonNegative_mul_self hlastFinite)
    (sin_mul_sin_le hφ hfirst hlast) hsquare
  have hsum := hsin.add_le_add (nonNegative_mul_self hlastFinite) hcos hbefore hsine
    (cos_mul_cos_le hφ hfirst hlast)
  have hshort : ¬ 1 ≤ lastAngle * lastAngle + Trigonometry.beforeOne * Trigonometry.beforeOne := by
    decide
  intro hone
  exact hshort (nonNegative_one.le_trans (hsin.add hcos)
    ((nonNegative_mul_self hlastFinite).add hbefore) hone hsum)

end

end FormExpr.GeoPoint
