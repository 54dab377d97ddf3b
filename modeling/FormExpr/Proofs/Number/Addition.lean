import FormExpr.Proofs.Number.Order
import FormExpr.Proofs.Number.Rounding

/-!
# Sums of positive numbers

The sum of two positive doubles is the double nearest to the sum of their values. So ones add up to
their number as long as it is a double, and then no more.
-/

namespace FormExpr.Binary64

open Float.Model (UnpackedFloat)
open Float.Model.Format (binary64)
open Float.Model.UnpackedFloat (decreaseExponent)

theorem add_eq_pack (x y : Float) : x + y =
    Float.ofModel (.pack (UnpackedFloat.add binary64 x.toModel.unpack y.toModel.unpack)) := rfl

theorem unpack_ofMagnitude_finite (negative : Bool) {bits : Nat} (hpos : 0 < bits)
    (hlt : bits < infinityBits) :
    (ofMagnitude negative bits).toModel.unpack = .finite (signOf negative)
      (Dyadic.ofBits bits).mantissa (Dyadic.ofBits bits).exponent
      (Dyadic.isCanonical_ofBits hpos).pos := by
  have hunpacked := isUnpacked_unpack_ofMagnitude negative hlt.le
  generalize (ofMagnitude negative bits).toModel.unpack = u at hunpacked
  cases hunpacked with
  | zero => exact absurd hpos (lt_irrefl 0)
  | finite => rfl
  | infinity => exact absurd hlt (lt_irrefl _)

/-- Widening a mantissa to a smaller exponent keeps its value. -/
theorem decreaseExponent_value (d : Dyadic) {t : Int} (ht : t ≤ d.exponent) :
    ((decreaseExponent d.mantissa d.exponent t).1 : ℚ) * 2 ^ t = d.value := by
  unfold decreaseExponent
  dsimp only
  rw [Nat.shiftLeft_eq, Dyadic.value]
  push_cast
  rw [← zpow_natCast, Int.toNat_of_nonneg (by omega), mul_assoc, ← zpow_add₀ two_ne_zero,
    sub_add_cancel]

/-- The sum of two positive doubles is the double nearest to the sum of their values. -/
theorem ofMagnitude_add {a b : Nat} (ha : 0 < a) (ha' : a < infinityBits) (hb : 0 < b)
    (hb' : b < infinityBits) {num den : Nat} (hden : 0 < den)
    (hvalue : (num / den : ℚ) = (Dyadic.ofBits a).value + (Dyadic.ofBits b).value) :
    ofMagnitude false a + ofMagnitude false b = ofMagnitude false (nearest num den) := by
  rw [add_eq_pack, unpack_ofMagnitude_finite false ha ha', unpack_ofMagnitude_finite false hb hb']
  have hmantissa := (Dyadic.isCanonical_ofBits ha).pos
  unfold UnpackedFloat.add
  dsimp only
  generalize Dyadic.ofBits a = c at hmantissa hvalue ⊢
  generalize Dyadic.ofBits b = d at hvalue ⊢
  have hleft := decreaseExponent_value c (min_le_left c.exponent d.exponent)
  have hright := decreaseExponent_value d (min_le_right c.exponent d.exponent)
  have hpos : 0 < (decreaseExponent c.mantissa c.exponent (min c.exponent d.exponent)).1 :=
    shiftLeft_pos hmantissa _
  generalize (decreaseExponent c.mantissa c.exponent (min c.exponent d.exponent)).1 = m at *
  generalize (decreaseExponent d.mantissa d.exponent (min c.exponent d.exponent)).1 = n at *
  have hsum : (signOf false).apply m + (signOf false).apply n = ((m + n : Nat) : Int) :=
    (Nat.cast_add m n).symm
  have hcompare : compare ((m + n : Nat) : Int) 0 = .gt := by
    rw [Int.compare_eq_gt]
    omega
  unfold UnpackedFloat.normalize
  rw [hsum, hcompare]
  dsimp only
  rw [Int.toNat_natCast]
  refine ofModel_pack_round false (by omega) hden ?_
  rw [hvalue, ← hleft, ← hright]
  push_cast
  ring

/-! ### Adding ones -/

/-- From here on the next natural number is no double. -/
def exactLimit : Nat := 2 ^ 53

/-- Below the limit adding one gives the next integer. -/
theorem ofMagnitude_add_one {n : Nat} (hn : n < exactLimit) :
    ofMagnitude false (nearest n 1) + 1 = ofMagnitude false (nearest (n + 1) 1) := by
  rcases Nat.eq_zero_or_pos n with rfl | hpos
  · decide
  · obtain ⟨hn', hfinite⟩ := nearest_one_bounds hpos hn
    obtain ⟨hone, hone'⟩ := nearest_one_bounds Nat.one_pos (by norm_num : 1 < 2 ^ 53)
    rw [one_eq_ofMagnitude]
    apply ofMagnitude_add hn' hfinite hone hone' Nat.one_pos
    rw [value_nearest_one hpos hn, value_nearest_one Nat.one_pos (by norm_num)]
    push_cast
    ring

/-- A sum of ones counts them up to the limit and stays there. -/
theorem sum_ones (n : Nat) :
    (List.replicate n (1 : Float)).foldl (· + ·) 0.0 = Float.ofNat (min n exactLimit) := by
  have hstuck : ofMagnitude false (nearest exactLimit 1) + 1 =
      ofMagnitude false (nearest exactLimit 1) := by
    decide
  rw [ofNat_eq_ofMagnitude]
  induction n with
  | zero => decide
  | succ n ih =>
    rw [List.replicate_succ', List.foldl_append, ih, List.foldl_cons, List.foldl_nil]
    rcases lt_or_ge n exactLimit with hlt | hge
    · rw [min_eq_left hlt.le, min_eq_left hlt, ofMagnitude_add_one hlt]
    · rw [min_eq_right hge, min_eq_right (hge.trans (Nat.le_succ n)), hstuck]

/-- What is not at least the limit compares alike with the limit and with every greater number. -/
theorem compare_ofNat_of_not_le {n : Nat} (hn : exactLimit ≤ n) {x : Float}
    (hx : ¬ Float.ofNat exactLimit ≤ x) :
    (x ≤ Float.ofNat exactLimit ↔ x ≤ Float.ofNat n) ∧
    (Float.ofNat exactLimit ≤ x ↔ Float.ofNat n ≤ x) := by
  have hlimit := nearest_le_infinityBits exactLimit 1
  have hbits := nearest_le_infinityBits n 1
  have hmono : nearest exactLimit 1 ≤ nearest n 1 := nearest_mono one_pos one_pos (by simpa using hn)
  rw [ofNat_eq_ofMagnitude] at hx
  rw [ofNat_eq_ofMagnitude, ofNat_eq_ofMagnitude]
  by_cases hnan : infinityBits < magnitude x
  · simp only [not_le_notANumber hnan, and_self]
  · have hx' := not_lt.1 hnan
    have hplace := place_ofMagnitude false hlimit
    have hplace' := place_ofMagnitude false hbits
    rw [le_iff_place_le (by rwa [magnitude_ofMagnitude false hlimit]) hx', hplace] at hx
    rw [le_iff_place_le hx' (by rwa [magnitude_ofMagnitude false hlimit]),
      le_iff_place_le hx' (by rwa [magnitude_ofMagnitude false hbits]),
      le_iff_place_le (by rwa [magnitude_ofMagnitude false hlimit]) hx',
      le_iff_place_le (by rwa [magnitude_ofMagnitude false hbits]) hx', hplace, hplace']
    simp only [Bool.false_eq_true, if_false] at hx ⊢
    omega

end FormExpr.Binary64
