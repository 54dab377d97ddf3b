import FormExpr.Proofs.Number.Faithful

/-!
# Sums of doubles of either sign

The sum of two finite doubles is the double nearest to the sum of their values, whatever their signs
are. So a sum is exact as soon as the exact sum is the value of a double, which for integers it is
up to 53 bits.
-/

namespace FormExpr.Binary64

open Float.Model (UnpackedFloat)
open Float.Model.Format (binary64)
open Float.Model.UnpackedFloat (decreaseExponent)

/-! ### Rounding to nearest -/

/-- The double is the one nearest to the fraction; for zero either sign will do. -/
def Rounds (q : ℚ) (x : Float) : Prop :=
  ∃ negative, x = ofMagnitude negative (nearestTo |q|) ∧ (q ≠ 0 → (negative = true ↔ q < 0))

theorem rounds_value {x : Float} (hx : x.isFinite = true) : Rounds (value x) x := by
  obtain ⟨negative, bits, hbits, rfl⟩ := exists_eq_ofMagnitude hx
  have hnonneg := (Dyadic.ofBits bits).value_nonneg
  refine ⟨negative, ?_, ?_⟩
  · rw [abs_value_ofMagnitude negative hbits.le, nearestTo_value hbits]
  · rw [value_ofMagnitude negative hbits.le]
    cases negative with
    | false => simp [hnonneg]
    | true =>
      intro hne
      simpa using hnonneg.lt_of_ne fun hzero => hne (by simp [← hzero])

/-- What rounds the value of a double has that value. -/
theorem Rounds.value_eq {x z : Float} (hx : Rounds (value z) x) (hz : z.isFinite = true) :
    x.isFinite = true ∧ value x = value z := by
  obtain ⟨negative, rfl, hsign⟩ := hx
  obtain ⟨negative', bits, hbits, rfl⟩ := exists_eq_ofMagnitude hz
  have habs := abs_value_ofMagnitude negative' hbits.le
  rw [habs, nearestTo_value hbits]
  refine ⟨isFinite_ofMagnitude negative hbits, ?_⟩
  rw [value_ofMagnitude negative hbits.le, ← habs]
  generalize value (ofMagnitude negative' bits) = q at hsign
  rcases lt_trichotomy q 0 with hneg | rfl | hpos
  · rw [if_pos ((hsign hneg.ne).2 hneg), abs_of_neg hneg, neg_neg]
  · rw [abs_zero, neg_zero, ite_self]
  · rw [if_neg (mt (hsign hpos.ne').1 hpos.not_gt), abs_of_pos hpos]

theorem rounds_normalize_of_ne {m : Int} (hm : m ≠ 0) (e : Int) :
    Rounds (m * 2 ^ e) (Float.ofModel (.pack (UnpackedFloat.normalize binary64 m e .positive))) := by
  have hpow : (0 : ℚ) < 2 ^ e := zpow_pos two_pos e
  have hvalue : |(m : ℚ) * 2 ^ e| = (m.natAbs : ℚ) * 2 ^ e := by
    rw [abs_mul, abs_of_pos hpow, Nat.cast_natAbs, Int.cast_abs]
  have hround := (toNat_num_div_den (abs_nonneg ((m : ℚ) * 2 ^ e))).trans hvalue
  have hsign : (m : ℚ) * 2 ^ e < 0 ↔ m < 0 := by
    rw [mul_neg_iff]
    simp [hpow, hpow.not_gt]
  unfold UnpackedFloat.normalize
  rcases lt_or_gt_of_ne hm with hneg | hpos
  · have hnat : (-m).toNat = m.natAbs := by omega
    rw [Int.compare_eq_lt.2 hneg]
    dsimp only
    rw [hnat]
    exact ⟨true, ofModel_pack_round true (by omega) (Rat.den_pos _) hround,
      fun _ => by simpa [hsign] using hneg⟩
  · have hnat : m.toNat = m.natAbs := by omega
    rw [Int.compare_eq_gt.2 hpos]
    dsimp only
    rw [hnat]
    exact ⟨false, ofModel_pack_round false (by omega) (Rat.den_pos _) hround,
      fun _ => by simpa [hsign] using hpos.le⟩

theorem rounds_normalize (m e : Int) :
    Rounds (m * 2 ^ e) (Float.ofModel (.pack (UnpackedFloat.normalize binary64 m e .positive))) := by
  rcases eq_or_ne m 0 with rfl | hm
  · refine ⟨false, ?_, fun hne => absurd (by simp) hne⟩
    rw [Int.cast_zero, zero_mul, abs_zero, nearestTo_zero, ← ofModel_pack_zero]
    rfl
  · exact rounds_normalize_of_ne hm e

/-! ### Addition -/

/-- The value of a mantissa that was widened to a smaller exponent and takes its sign. -/
theorem apply_decreaseExponent (negative : Bool) {bits : Nat} (hbits : bits ≤ infinityBits)
    {t : Int} (ht : t ≤ (Dyadic.ofBits bits).exponent) :
    (((signOf negative).apply (decreaseExponent (Dyadic.ofBits bits).mantissa
      (Dyadic.ofBits bits).exponent t).1 : Int) : ℚ) * 2 ^ t = value (ofMagnitude negative bits) := by
  have hvalue := decreaseExponent_value (Dyadic.ofBits bits) ht
  rw [value_ofMagnitude negative hbits]
  cases negative with
  | false => exact hvalue
  | true =>
    rw [if_pos rfl, ← hvalue, ← neg_mul]
    exact congrArg (· * _) (Int.cast_neg _)

theorem value_zero (negative : Bool) : value (ofMagnitude negative 0) = 0 := by
  rw [value_ofMagnitude negative (Nat.zero_le _), Dyadic.value_ofBits_zero, neg_zero, ite_self]

/-- A sum of finite doubles is rounded once, from the exact sum. -/
theorem rounds_add {x y : Float} (hx : x.isFinite = true) (hy : y.isFinite = true) :
    Rounds (value x + value y) (x + y) := by
  obtain ⟨s, a, ha, rfl⟩ := exists_eq_ofMagnitude hx
  obtain ⟨t, b, hb, rfl⟩ := exists_eq_ofMagnitude hy
  have hu := isUnpacked_unpack_ofMagnitude s ha.le
  have hv := isUnpacked_unpack_ofMagnitude t hb.le
  rw [add_eq_pack]
  generalize (ofMagnitude s a).toModel.unpack = u at hu
  generalize (ofMagnitude t b).toModel.unpack = v at hv
  cases hu with
  | infinity => exact absurd ha (lt_irrefl _)
  | zero =>
    rw [value_zero, zero_add]
    cases hv with
    | infinity => exact absurd hb (lt_irrefl _)
    | zero =>
      rw [value_zero]
      -- Zeros add up to a zero, negative if both are.
      refine ⟨s && t, ?_, fun hne => absurd rfl hne⟩
      rw [abs_zero, nearestTo_zero, ← ofModel_pack_zero]
      cases s <;> cases t <;> rfl
    | finite hpos hlt =>
      unfold UnpackedFloat.add
      dsimp only
      rw [(IsUnpacked.finite hpos hlt).ofModel_pack]
      exact rounds_value hy
  | finite hpos hlt =>
    cases hv with
    | infinity => exact absurd hb (lt_irrefl _)
    | zero =>
      unfold UnpackedFloat.add
      dsimp only
      rw [value_zero, add_zero, (IsUnpacked.finite hpos hlt).ofModel_pack]
      exact rounds_value hx
    | finite hpos' hlt' =>
      have hleft := apply_decreaseExponent s ha.le (min_le_left _ (Dyadic.ofBits b).exponent)
      have hright := apply_decreaseExponent t hb.le (min_le_right (Dyadic.ofBits a).exponent _)
      rw [← hleft, ← hright, ← add_mul, ← Int.cast_add]
      unfold UnpackedFloat.add
      dsimp only
      exact rounds_normalize _ _

/-! ### Integers -/

theorem isInteger_ofNat {n : Nat} (hn : n < exactLimit) : IsInteger (Float.ofNat n) n := by
  rcases Nat.eq_zero_or_pos n with rfl | hpos
  · exact isInteger_zero
  · obtain ⟨-, hbits⟩ := nearest_one_bounds hpos hn
    rw [ofNat_eq_ofMagnitude]
    refine ⟨isFinite_ofMagnitude false hbits, ?_⟩
    rw [value_ofMagnitude false hbits.le]
    exact value_nearest_one hpos hn

theorem nearestTo_natCast (n : Nat) : nearestTo n = nearest n 1 := by
  rw [nearestTo, Rat.num_natCast, Rat.den_natCast, Int.toNat_natCast]

namespace IsInteger

variable {x y z : Float} {m n : Int}

/-- A sum of integers is exact when it is a double. -/
theorem add {k : Int} (hx : IsInteger x m) (hy : IsInteger y n) (hz : IsInteger z k)
    (hk : m + n = k) : IsInteger (x + y) k := by
  subst hk
  have hrounds := rounds_add hx.1 hy.1
  rw [hx.2, hy.2, ← Int.cast_add, ← hz.2] at hrounds
  obtain ⟨hfinite, hvalue⟩ := hrounds.value_eq hz.1
  exact ⟨hfinite, hvalue.trans hz.2⟩

theorem roundHalfUp_eq (hx : IsInteger x n) : roundHalfUp x = x := by
  obtain ⟨hfinite, hvalue⟩ := hx
  have hround : roundHalfUpInt x = n := by
    rw [roundHalfUpInt_eq_floor, hvalue, Int.floor_intCast_add]
    norm_num
  rw [roundHalfUp, integral, if_pos hfinite, hround, ofSignedInt]
  obtain ⟨negative, bits, hbits, rfl⟩ := exists_eq_ofMagnitude hfinite
  have habs := abs_value_ofMagnitude negative hbits.le
  rw [hvalue, ← Int.cast_abs, ← Nat.cast_natAbs] at habs
  rw [isNegative_ofMagnitude negative hbits.le, ← nearestTo_natCast, habs, nearestTo_value hbits]

theorem eq_ofNat {n : Nat} (hx : IsInteger x n) (hpos : 0 < n) (hn : n < exactLimit) :
    x = Float.ofNat n := by
  have hofNat := isInteger_ofNat hn
  refine eq_of_value_eq hx.1 hofNat.1 (hx.2.trans hofNat.2.symm) ?_
  rw [hx.2]
  exact_mod_cast hpos.ne'

end IsInteger

/-! ### Counts -/

theorem isNaN_ofNat (n : Nat) : (Float.ofNat n).isNaN = false :=
  (nonNegative_ofNat n).isNaN

/-- Natural numbers keep their order as doubles. -/
theorem ofNat_le_ofNat {m n : Nat} (hmn : m ≤ n) : Float.ofNat m ≤ Float.ofNat n := by
  rw [ofNat_eq_ofMagnitude, ofNat_eq_ofMagnitude,
    ofMagnitude_le_iff (nearest_le_infinityBits m 1) (nearest_le_infinityBits n 1)]
  exact nearest_mono one_pos one_pos (by simpa using hmn)

/-- Counts are compared as numbers are, with a number that is a double. -/
theorem ofNat_le_ofNat_iff {m n : Nat} (hm : m < exactLimit) :
    Float.ofNat m ≤ Float.ofNat n ↔ m ≤ n := by
  refine ⟨fun hle => ?_, ofNat_le_ofNat⟩
  by_contra hlt
  rw [(isInteger_ofNat hm).le_iff (isInteger_ofNat ((not_le.1 hlt).trans hm))] at hle
  exact hlt (by exact_mod_cast hle)

end FormExpr.Binary64
