import FormExpr.Proofs.Number.Faithful
import FormExpr.Proofs.Number.Integral
import FormExpr.Proofs.Number.Overflow

/-!
# Powers of ten

A power function is not computed exactly. What is known of it is that the powers of ten that doubles
reach are each one of the two doubles around the exact power, and that those from `10 ^ 309` on are
infinite.
-/

namespace FormExpr.Binary64

/-- The powers of ten with whole exponents are faithful as far as doubles go, and infinite beyond.
-/
structure FaithfulTens (pow : Float → Float → Float) : Prop where
  faithful {e : Float} {n : Nat} (he : IsInteger e n) (hn : n ≤ 308) :
    IsFaithful ((10 : ℝ) ^ n) (pow 10.0 e)
  infinite {e : Float} {n : Nat} (he : IsInteger e n) (hn : 308 < n) : pow 10.0 e = infinity

open Classical in
noncomputable def roundedPower (base exponent : Float) : Float :=
  if (value base : ℝ) ^ (value exponent : ℝ) < overflow then
    nearestDouble ((value base : ℝ) ^ (value exponent : ℝ))
  else infinity

/-- Powers that are rounded correctly are faithful. -/
theorem faithfulTens_roundedPower : FaithfulTens roundedPower := by
  have hten : value 10.0 = 10 := (by decide : IsInteger 10.0 10).2
  have hpower : ∀ {e : Float} {n : Nat}, IsInteger e n →
      (value 10.0 : ℝ) ^ (value e : ℝ) = ((10 ^ n : ℚ) : ℝ) := by
    intro e n he
    rw [hten, he.2]
    push_cast
    exact Real.rpow_natCast 10 n
  constructor
  · intro e n he hn
    have hpos : (0 : ℚ) < 10 ^ n := by positivity
    have hlt : (10 : ℚ) ^ n < overflow := by linarith [ten_pow_lt_overflow hn]
    rw [roundedPower, hpower he, if_pos (Rat.cast_lt.2 hlt), Rat.cast_pow]
    exact (isNearest_nearestDouble _).isFaithful
  · intro e n he hn
    have hpos : (0 : ℚ) < 10 ^ n := by positivity
    have hle : overflow ≤ 10 ^ n := by linarith [overflow_lt_ten_pow hn]
    rw [roundedPower, hpower he, if_neg]
    rw [Rat.cast_lt]
    exact not_lt.2 hle

namespace FaithfulTens

variable {pow : Float → Float → Float} (h : FaithfulTens pow) {e : Float} {n : Nat}
  (he : IsInteger e n) (hn : n ≤ 308)

include h he hn

theorem isFinite : (pow 10.0 e).isFinite = true :=
  (h.faithful he hn).isFinite

theorem one_le : 1 ≤ value (pow 10.0 e) := by
  have hone : (value 1 : ℚ) = 1 := isInteger_one.2
  rw [← hone]
  apply (h.faithful he hn).le_value isInteger_one.1
  rw [hone, Rat.cast_one]
  exact one_le_pow₀ (by norm_num)

/-- A faithful power is at most twice the exact one. -/
theorem le_two_mul : value (pow 10.0 e) ≤ 2 * 10 ^ n := by
  have hone : (1 : ℚ) ≤ 10 ^ n := one_le_pow₀ (by norm_num)
  have hlt := ten_pow_lt_overflow hn
  have hfits := (nearestTo_lt_infinityBits_iff (by positivity)).2 hlt
  -- The double of a number between the two bounds is no less than the exact power.
  have hnear := abs_value_nearestTo_sub_le (by linarith) hlt
  have hvalue := value_ofMagnitude false hfits.le
  rw [if_neg Bool.false_ne_true] at hvalue
  rw [← hvalue, abs_le] at hnear
  have hlow : (10 : ℚ) ^ n ≤ value (ofMagnitude false (nearestTo (3 / 2 * 10 ^ n))) := by
    linarith [hnear.1]
  have hpower : value (pow 10.0 e) ≤ value (ofMagnitude false (nearestTo (3 / 2 * 10 ^ n))) := by
    apply (h.faithful he hn).value_le (isFinite_ofMagnitude false hfits)
    exact_mod_cast hlow
  linarith [hnear.2]

end FaithfulTens

end FormExpr.Binary64
