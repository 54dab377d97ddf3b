import FormExpr.Proofs.Number.NonNegative

/-!
# Rounding to an integer is exact

A double of `2 ^ 52` or more is an integer already, and every integer up to there is a double. So a
rounding that keeps integers and the order gives the very integer that the value is rounded to.
-/

namespace FormExpr.Binary64

variable {x : Float}

/-- Large doubles have no binary places after the point. -/
theorem exists_value_eq_intCast (hx : x.isFinite = true) (hlarge : 2 ^ 52 ≤ |value x|) :
    ∃ n : Int, value x = n := by
  obtain ⟨negative, bits, hbits, rfl⟩ := exists_eq_ofMagnitude hx
  rw [abs_value_ofMagnitude negative hbits.le, Dyadic.value] at hlarge
  have hmantissa : ((Dyadic.ofBits bits).mantissa : ℚ) < 2 ^ 53 := by
    exact_mod_cast Dyadic.mantissa_ofBits_lt bits
  have hexponent : 0 ≤ (Dyadic.ofBits bits).exponent := by
    by_contra hneg
    have hunit : (2 : ℚ) ^ (Dyadic.ofBits bits).exponent ≤ 2 ^ (-1 : Int) :=
      zpow_le_zpow_right₀ one_le_two (by omega)
    refine absurd hlarge (not_le.2 ?_)
    calc (Dyadic.ofBits bits).mantissa * (2 : ℚ) ^ (Dyadic.ofBits bits).exponent
        ≤ (Dyadic.ofBits bits).mantissa * 2 ^ (-1 : Int) := by gcongr
      _ < 2 ^ 53 * 2 ^ (-1 : Int) := by gcongr
      _ = 2 ^ 52 := by norm_num
  have hnat : (Dyadic.ofBits bits).value =
      ((Dyadic.ofBits bits).mantissa * 2 ^ (Dyadic.ofBits bits).exponent.toNat : Nat) := by
    rw [Dyadic.value, ← Int.toNat_of_nonneg hexponent, zpow_natCast, Int.toNat_natCast]
    push_cast
    rfl
  rw [value_ofMagnitude negative hbits.le, hnat]
  cases negative with
  | false => exact ⟨_, (Int.cast_natCast _).symm⟩
  | true => exact ⟨-_, by rw [Int.cast_neg, Int.cast_natCast]; rfl⟩

/-- An integer that is small, or the value of a double, is rounded to itself. -/
theorem value_nearest_eq {n : Nat}
    (hn : n < 2 ^ 53 ∨ ∃ bits < infinityBits, (Dyadic.ofBits bits).value = n) :
    nearest n 1 < infinityBits ∧ (Dyadic.ofBits (nearest n 1)).value = n := by
  rcases hn with hsmall | ⟨bits, hbits, hvalue⟩
  · rcases Nat.eq_zero_or_pos n with rfl | hpos
    · exact ⟨by decide, Dyadic.value_ofBits_zero⟩
    · exact ⟨(nearest_one_bounds hpos hsmall).2, value_nearest_one hpos hsmall⟩
  · have hnearest : nearest n 1 = bits := by
      have hbits' := nearestTo_value hbits
      rwa [hvalue, nearestTo, Rat.num_natCast, Rat.den_natCast, Int.toNat_natCast] at hbits'
    rw [hnearest]
    exact ⟨hbits, hvalue⟩

theorem isInteger_ofSignedInt {negative : Bool} {n : Int}
    (hn : n.natAbs < 2 ^ 53 ∨ ∃ bits < infinityBits, (Dyadic.ofBits bits).value = n.natAbs)
    (hsign : if negative then n ≤ 0 else 0 ≤ n) : IsInteger (ofSignedInt negative n) n := by
  obtain ⟨hfits, hvalue⟩ := value_nearest_eq hn
  refine ⟨isFinite_ofMagnitude _ hfits, ?_⟩
  rw [ofSignedInt, value_ofMagnitude _ hfits.le, hvalue, Nat.cast_natAbs]
  cases negative with
  | true =>
    have hle : n ≤ 0 := hsign
    rw [if_pos rfl, abs_of_nonpos hle, Int.cast_neg, neg_neg]
  | false =>
    have hge : 0 ≤ n := hsign
    rw [if_neg Bool.false_ne_true, abs_of_nonneg hge]

theorem isInteger_integral {round : Float → Int} {g : ℚ → Int}
    (hround : ∀ x, round x = g (value x)) (hmono : Monotone g) (hfix : ∀ n : Int, g n = n)
    (hx : x.isFinite = true) : IsInteger (integral round x) (round x) := by
  rw [integral, if_pos hx]
  apply isInteger_ofSignedInt
  · by_cases hlarge : 2 ^ 52 ≤ |value x|
    · obtain ⟨n, hn⟩ := exists_value_eq_intCast hx hlarge
      obtain ⟨negative, bits, hbits, rfl⟩ := exists_eq_ofMagnitude hx
      refine Or.inr ⟨bits, hbits, ?_⟩
      rw [hround, hn, hfix, ← abs_value_ofMagnitude negative hbits.le, hn, Nat.cast_natAbs,
        Int.cast_abs]
    · rw [not_le, abs_lt] at hlarge
      have hlow := hmono (hlarge.1.le.trans' (by norm_num : ((-2 ^ 52 : Int) : ℚ) ≤ -2 ^ 52))
      have hhigh := hmono (hlarge.2.le.trans (by norm_num : (2 ^ 52 : ℚ) ≤ (2 ^ 52 : Int)))
      rw [hfix, ← hround] at hlow hhigh
      exact Or.inl (by omega)
  · -- The integer lies on the same side of zero as the double.
    have hzero : g 0 = 0 := by exact_mod_cast hfix 0
    have habs := (Dyadic.ofBits (magnitude x)).value_nonneg
    have hside := value_eq x
    rw [absValue] at hside
    rw [hround, ← hzero]
    split_ifs at hside ⊢
    · exact hmono (by linarith)
    · exact hmono (by linarith)

/-- Rounding a finite double gives the floor of its value and a half. -/
theorem isInteger_roundHalfUp (hx : x.isFinite = true) :
    IsInteger (roundHalfUp x) ⌊value x + 1 / 2⌋ := by
  rw [← roundHalfUpInt_eq_floor]
  refine isInteger_integral (g := fun q => ⌊q + 1 / 2⌋) roundHalfUpInt_eq_floor ?_ ?_ hx
  · intro p q hpq
    exact Int.floor_le_floor (by linarith)
  · intro n
    rw [Int.floor_intCast_add]
    norm_num

theorem roundHalfUp_of_not_isFinite (hx : x.isFinite = false) : roundHalfUp x = x :=
  if_neg (Bool.not_eq_true _ ▸ hx)

/-! ### Towards zero -/

def towardsZero (q : ℚ) : Int :=
  if 0 ≤ q then ⌊q⌋ else ⌈q⌉

theorem truncInt_eq_towardsZero (x : Float) : truncInt x = towardsZero (value x) := by
  have hden : (0 : ℚ) < (fraction x).2 := by exact_mod_cast Dyadic.den_pos _
  have htrunc : truncInt x = (fraction x).1.tdiv (fraction x).2 := rfl
  have hsign : 0 ≤ value x ↔ 0 ≤ (fraction x).1 := by
    rw [value, le_div_iff₀ hden, zero_mul]
    exact Int.cast_nonneg_iff
  rw [htrunc, towardsZero]
  split_ifs with hnonneg
  · rw [value, Rat.floor_intCast_div_natCast, Int.tdiv_eq_ediv_of_nonneg (hsign.1 hnonneg)]
  · have hneg : (fraction x).1 < 0 := not_le.1 (mt hsign.2 hnonneg)
    rw [value, ← neg_neg ⌈_⌉, ← Int.floor_neg, ← neg_div, ← Int.cast_neg, Rat.floor_intCast_div_natCast,
      ← Int.tdiv_eq_ediv_of_nonneg (by omega), Int.neg_tdiv, neg_neg]

/-- The integer part goes up with the number. -/
theorem monotone_towardsZero : Monotone towardsZero := by
  intro p q hpq
  unfold towardsZero
  split_ifs with hp hq hq
  · exact Int.floor_le_floor hpq
  · exact absurd (hp.trans hpq) hq
  · exact (Int.ceil_le.2 (by exact_mod_cast (not_le.1 hp).le)).trans (Int.floor_nonneg.2 hq)
  · exact Int.ceil_le_ceil hpq

/-- Cutting off the fraction of a finite double gives its integer part. -/
theorem isInteger_trunc (hx : x.isFinite = true) : IsInteger (trunc x) (truncInt x) := by
  refine isInteger_integral truncInt_eq_towardsZero monotone_towardsZero (fun n => ?_) hx
  rw [towardsZero, Int.floor_intCast, Int.ceil_intCast, ite_self]

theorem IsInteger.abs {n : Int} (h : IsInteger x n) : IsInteger x.abs n.natAbs := by
  obtain ⟨hx, hvalue⟩ := h
  obtain ⟨negative, bits, hbits, rfl⟩ := exists_eq_ofMagnitude hx
  have habs := abs_value_ofMagnitude negative hbits.le
  rw [abs_ofMagnitude negative hbits.le]
  refine ⟨isFinite_ofMagnitude false hbits, ?_⟩
  rw [value_ofMagnitude false hbits.le, if_neg Bool.false_ne_true, ← habs, hvalue,
    Int.natCast_natAbs, Int.cast_abs]

end FormExpr.Binary64
