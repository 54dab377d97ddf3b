import FormExpr.Geo
import FormExpr.Proofs.Number.Faithful

/-!
# Faithful functions of angles

The functions of angles are not computed exactly. What is known of them is that each result is one
of the two doubles around the exact one. A cosine that is less than one is therefore that of an
angle which is seen to be no less than `2 ^ -26`: near one the arc cosine is steep.
-/

namespace FormExpr

open Binary64

namespace Trigonometry

/-- Sine and cosine of every double and arc cosine of every cosine are faithful. -/
structure Faithful (trig : Trigonometry) : Prop where
  sin {x : Float} (hx : x.isFinite = true) : IsFaithful (Real.sin (value x)) (trig.sin x)
  cos {x : Float} (hx : x.isFinite = true) : IsFaithful (Real.cos (value x)) (trig.cos x)
  acos {x : Float} (hx : x.isFinite = true) (hvalue : |value x| ≤ 1) :
    IsFaithful (Real.arccos (value x)) (trig.acos x)

noncomputable def rounded : Trigonometry where
  sin x := nearestDouble (Real.sin (value x))
  cos x := nearestDouble (Real.cos (value x))
  acos x := nearestDouble (Real.arccos (value x))

/-- Functions that are rounded correctly are faithful. -/
theorem faithful_rounded : rounded.Faithful where
  sin _ := (isNearest_nearestDouble _).isFaithful
  cos _ := (isNearest_nearestDouble _).isFaithful
  acos _ _ := (isNearest_nearestDouble _).isFaithful

/-! ### Cosines next to one -/

def beforeOne : Float := 0.9999999999999999

/-- A lower bound for angles whose cosine is less than one. -/
def leastAngle : Float := 0.000000014901161193847656

theorem value_beforeOne : value beforeOne = 1 - 1 / 2 ^ 53 := by
  have hfraction : fraction beforeOne = (2 ^ 53 - 1, 2 ^ 53) := by decide
  rw [value, hfraction]
  norm_num

theorem value_leastAngle : value leastAngle = 1 / 2 ^ 26 := by
  have hfraction : fraction leastAngle = (2 ^ 52, 2 ^ 78) := by decide
  rw [value, hfraction]
  norm_num

theorem isFinite_beforeOne : beforeOne.isFinite = true := by decide

theorem isFinite_leastAngle : leastAngle.isFinite = true := by decide

theorem nonNegative_beforeOne : NonNegative beforeOne :=
  nonNegative_of_value_pos isFinite_beforeOne (by rw [value_beforeOne]; norm_num)

theorem nonNegative_leastAngle : NonNegative leastAngle :=
  nonNegative_of_value_pos isFinite_leastAngle (by rw [value_leastAngle]; norm_num)

theorem le_arccos {c : ℝ} (hc : c ≤ 1 - 1 / 2 ^ 53) : 1 / 2 ^ 26 ≤ Real.arccos c := by
  have hangle : (1 / 2 ^ 26 : ℝ) ≤ Real.pi := by
    have hpi := Real.pi_gt_three
    norm_num
    linarith
  have hcos : 1 - 1 / 2 ^ 53 ≤ Real.cos (1 / 2 ^ 26) := by
    have hbound := Real.one_sub_sq_div_two_le_cos (x := 1 / 2 ^ 26)
    norm_num at hbound ⊢
    linarith
  calc (1 / 2 ^ 26 : ℝ) = Real.arccos (Real.cos (1 / 2 ^ 26)) :=
        (Real.arccos_cos (by positivity) hangle).symm
    _ ≤ Real.arccos c := Real.antitone_arccos (hc.trans hcos)

/-- Below one there is no double after the last. -/
theorem le_beforeOne {c : Float} (hc : NonNegative c) (hlt : ¬ 1 ≤ c) : c ≤ beforeOne := by
  obtain ⟨a, ha, rfl⟩ := hc
  have hone : (1 : Float) = ofMagnitude false (magnitude beforeOne + 1) := by decide
  have hbefore : beforeOne = ofMagnitude false (magnitude beforeOne) := by decide
  have hbits : magnitude beforeOne + 1 ≤ infinityBits := by decide
  rw [hone, ofMagnitude_le_iff hbits ha] at hlt
  rw [hbefore, ofMagnitude_le_iff ha (by omega)]
  omega

namespace Faithful

variable {trig : Trigonometry} (h : trig.Faithful)

include h

theorem cos_zero : trig.cos 0 = 1 := by
  have hcos := h.cos isInteger_zero.1
  have hexact : (value 1 : ℝ) = Real.cos (value 0) := by
    rw [isInteger_zero.2, isInteger_one.2]
    simp
  apply eq_of_value_eq hcos.isFinite isInteger_one.1 (hcos.value_eq isInteger_one.1 hexact)
  rw [hcos.value_eq isInteger_one.1 hexact, isInteger_one.2]
  norm_num

theorem acos_one : ∃ negative, trig.acos 1 = ofMagnitude negative 0 := by
  have hacos := h.acos isInteger_one.1 (by rw [isInteger_one.2]; norm_num)
  apply eq_zero_of_value_eq_zero
  rw [hacos.value_eq isInteger_zero.1, isInteger_zero.2, Int.cast_zero]
  rw [isInteger_zero.2, isInteger_one.2]
  simp

/-- A cosine below one is that of an angle that is not zero. -/
theorem leastAngle_le_acos {c : Float} (hc : NonNegative c) (hlt : ¬ 1 ≤ c) :
    NonNegative (trig.acos c) ∧ leastAngle ≤ trig.acos c := by
  have hle := le_beforeOne hc hlt
  have hfinite := hc.isFinite_of_le nonNegative_beforeOne hle isFinite_beforeOne
  have hvalue : value c ≤ 1 - 1 / 2 ^ 53 := by
    rwa [le_iff_value_le hfinite isFinite_beforeOne, value_beforeOne] at hle
  have hunit : |value c| ≤ 1 := by
    rw [abs_of_nonneg hc.value_nonneg]
    linarith
  have hacos := h.acos hfinite hunit
  have hangle : value leastAngle ≤ value (trig.acos c) := by
    have hcast : (value c : ℝ) ≤ ((1 - 1 / 2 ^ 53 : ℚ) : ℝ) := Rat.cast_le.2 hvalue
    push_cast at hcast
    apply hacos.le_value isFinite_leastAngle
    rw [value_leastAngle]
    push_cast
    exact le_arccos hcast
  constructor
  · apply nonNegative_of_value_pos hacos.isFinite
    rw [value_leastAngle] at hangle
    linarith
  · rwa [le_iff_value_le isFinite_leastAngle hacos.isFinite]

end Faithful

end Trigonometry

end FormExpr
