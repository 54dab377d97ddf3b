import FormExpr.Number.Numeral
import FormExpr.Proofs.Number.Rounding
import FormExpr.Proofs.Text.Digit

/-!
# The shortest decimal rounds to its double

The search only stops at a decimal in the rounding interval, and without a hit the double's own
decimal is taken. So the decimal that is written rounds to the double, on whichever grid it was
found.
-/

namespace FormExpr

open Binary64

/-! ### Decimals -/

namespace Decimal

def value (d : Decimal) : ℚ :=
  d.digits * 10 ^ d.exponent

/-- A power with an integer exponent as a quotient of two with natural ones. -/
theorem pow_toNat_div_pow_toNat (e : Int) :
    ((Nat.pow 10 e.toNat : Nat) : ℚ) / (Nat.pow 10 (-e).toNat : Nat) = 10 ^ e := by
  obtain ⟨n, rfl | rfl⟩ := e.eq_nat_or_neg
  · have hden : (-(n : Int)).toNat = 0 := by omega
    have hnum : (n : Int).toNat = n := by omega
    rw [hden, hnum, zpow_natCast]
    simp
  · have hnum : (-(n : Int)).toNat = 0 := by omega
    have hden : (-(-(n : Int))).toNat = n := by omega
    rw [hden, hnum, zpow_neg, zpow_natCast]
    simp

theorem den_pos (d : Decimal) : 0 < d.den :=
  Nat.pow_pos (by norm_num)

theorem num_div_den (d : Decimal) : (d.num / d.den : ℚ) = d.value := by
  rw [value, ← pow_toNat_div_pow_toNat, num, den]
  push_cast
  rw [mul_div_assoc]

theorem digits_bounds {d : Decimal} (hd : 0 < d.digits) :
    10 ^ ((Nat.toDigits 10 d.digits).length - 1) ≤ d.digits ∧
    d.digits < 10 ^ (Nat.toDigits 10 d.digits).length := by
  have hlength : 0 < (Nat.toDigits 10 d.digits).length := Nat.length_toDigits_pos
  constructor
  · rcases Nat.eq_zero_or_pos ((Nat.toDigits 10 d.digits).length - 1) with hone | hmore
    · rw [hone]
      exact hd
    · have hle := (Nat.length_toDigits_le_iff (n := d.digits) (by norm_num : 1 < 10) hmore).not
      omega
  · exact (Nat.length_toDigits_le_iff (by norm_num) hlength).1 le_rfl

/-- A decimal lies in the decade that its order names. -/
theorem decade_bounds {d : Decimal} (hd : 0 < d.digits) :
    (10 : ℚ) ^ ((Nat.toDigits 10 d.digits).length + d.exponent - 1) ≤ d.num / d.den ∧
    (d.num / d.den : ℚ) ≤ 10 ^ ((Nat.toDigits 10 d.digits).length + d.exponent) := by
  obtain ⟨hlow, hhigh⟩ := digits_bounds hd
  have hlength : 0 < (Nat.toDigits 10 d.digits).length := Nat.length_toDigits_pos
  generalize (Nat.toDigits 10 d.digits).length = length at *
  rw [num_div_den, value]
  constructor
  · have horder : (length : Int) + d.exponent - 1 = (length - 1 : Nat) + d.exponent := by omega
    rw [horder, zpow_add₀ (by norm_num), zpow_natCast]
    gcongr
    exact_mod_cast hlow
  · rw [zpow_add₀ (by norm_num), zpow_natCast]
    gcongr
    exact_mod_cast hhigh.le

/-- Beyond the bounds on the order the nearest double is infinity or zero anyway. -/
theorem toMagnitude_eq_nearest (d : Decimal) : d.toMagnitude = nearest d.num d.den := by
  unfold toMagnitude
  dsimp only
  rcases Nat.eq_zero_or_pos d.digits with hzero | hpos
  · have hnum : d.num = 0 := by rw [num, hzero, Nat.zero_mul]
    rw [if_pos hzero, hnum]
    rfl
  obtain ⟨hlow, hhigh⟩ := decade_bounds hpos
  rw [if_neg hpos.ne']
  split_ifs with hlarge hsmall
  · have hinfinite : nearest (10 ^ 310) 1 = infinityBits := by decide +kernel
    have hle : ((10 ^ 310 : Nat) / (1 : Nat) : ℚ) ≤ d.num / d.den := by
      refine le_trans ?_ hlow
      rw [Nat.cast_one, div_one, Nat.cast_pow, Nat.cast_ofNat, ← zpow_natCast]
      exact zpow_le_zpow_right₀ (by norm_num) (by omega)
    exact Nat.le_antisymm (hinfinite ▸ nearest_mono Nat.one_pos d.den_pos hle)
      (nearest_le_infinityBits _ _)
  · have hvanishing : nearest 1 (10 ^ 331) = 0 := by decide +kernel
    have hle : (d.num / d.den : ℚ) ≤ (1 : Nat) / (10 ^ 331 : Nat) := by
      refine hhigh.trans ?_
      rw [Nat.cast_one, Nat.cast_pow, Nat.cast_ofNat, one_div, ← zpow_natCast, ← zpow_neg]
      exact zpow_le_zpow_right₀ (by norm_num) (by omega)
    have hzero := nearest_mono d.den_pos (by positivity) hle
    omega
  · rfl

theorem toMagnitude_congr {c d : Decimal} (hvalue : c.value = d.value) :
    c.toMagnitude = d.toMagnitude := by
  rw [toMagnitude_eq_nearest, toMagnitude_eq_nearest]
  apply nearest_congr c.den_pos d.den_pos
  rw [num_div_den, num_div_den, hvalue]

end Decimal

/-! ### The rounding interval -/

namespace RoundingInterval

/-- The value of a grid point in units of the interval. -/
theorem scales_div (r : RoundingInterval) (e : Int) :
    0 < (r.scales e).1 ∧
    ((r.scales e).2 : ℚ) / (r.scales e).1 = 10 ^ e / 2 ^ r.exponent := by
  have hpow : ∀ k : Nat, 0 < Nat.pow 10 k := fun k => Nat.pow_pos (by norm_num)
  refine ⟨shiftLeft_pos (hpow _) _, ?_⟩
  unfold scales
  dsimp only
  rw [shiftLeft_div_shiftLeft, Decimal.pow_toNat_div_pow_toNat]

theorem holds_iff (r : RoundingInterval) (n : Nat) (e : Int) :
    r.holds n e = true ↔
      if r.closed then r.low ≤ (n * 10 ^ e / 2 ^ r.exponent : ℚ) ∧
        (n * 10 ^ e / 2 ^ r.exponent : ℚ) ≤ r.high
      else r.low < (n * 10 ^ e / 2 ^ r.exponent : ℚ) ∧
        (n * 10 ^ e / 2 ^ r.exponent : ℚ) < r.high := by
  obtain ⟨hunit, hratio⟩ := r.scales_div e
  have hunitQ : (0 : ℚ) < (r.scales e).1 := by exact_mod_cast hunit
  unfold holds
  dsimp only
  rw [mul_div_assoc, ← hratio, ← mul_div_assoc]
  generalize (r.scales e).1 = unit at *
  generalize (r.scales e).2 = grid at *
  rw [le_div_iff₀ hunitQ, div_le_iff₀ hunitQ, lt_div_iff₀ hunitQ, div_lt_iff₀ hunitQ]
  cases r.closed <;>
    simp only [Bool.false_eq_true, if_false, if_true, Bool.and_eq_true, decide_eq_true_eq] <;>
    norm_cast

theorem holds_of_onGrid? {r : RoundingInterval} {e : Int} {n : Nat} (h : r.onGrid? e = some n) :
    r.holds n e = true := by
  unfold onGrid? at h
  dsimp only at h
  split at h
  · rename_i hbelow habove
    split_ifs at h
    · rwa [← Option.some.inj h]
    · rwa [← Option.some.inj h]
  · rename_i hbelow habove
    rwa [← Option.some.inj h]
  · rename_i hbelow habove
    rwa [← Option.some.inj h]
  · cases h

/-- What the search finds is rounded to the double. -/
theorem holds_of_search {r : RoundingInterval} {steps : Nat} {e : Int} {d : Decimal}
    (h : r.search steps e = some d) : r.holds d.digits d.exponent = true := by
  induction steps generalizing e with
  | zero => cases h
  | succ steps ih =>
    rw [search] at h
    split at h
    · rename_i n hgrid
      rw [← Option.some.inj h]
      exact holds_of_onGrid? hgrid
    · exact ih h

theorem attracts_of_holds {d : Binary64.Dyadic} (hpos : 0 < d.mantissa) {n : Nat} {e : Int}
    (h : (ofDyadic d).holds n e = true) : d.Attracts (Decimal.value ⟨n, e⟩) := by
  rw [holds_iff] at h
  have hquarter : (n * 10 ^ e / 2 ^ (ofDyadic d).exponent : ℚ) =
      Decimal.value ⟨n, e⟩ / 2 ^ d.exponent * 4 := by
    unfold ofDyadic Decimal.value
    dsimp only
    rw [zpow_sub₀ two_ne_zero]
    field_simp
    norm_num
  have hlow : ((ofDyadic d).low : ℚ) = (d.mantissa - d.lowerReach) * 4 := by
    unfold ofDyadic Dyadic.lowerReach
    dsimp only
    split_ifs <;> rw [Nat.cast_sub (by omega)] <;> push_cast <;> ring
  have hhigh : ((ofDyadic d).high : ℚ) = (d.mantissa + 1 / 2) * 4 := by
    unfold ofDyadic
    push_cast
    ring
  have hclosed : (ofDyadic d).closed = decide (d.mantissa % 2 = 0) := rfl
  rw [hquarter, hlow, hhigh, hclosed] at h
  generalize Decimal.value ⟨n, e⟩ = v at *
  by_cases heven : d.mantissa % 2 = 0
  · rw [decide_eq_true heven, if_pos rfl] at h
    exact ⟨by linarith, by linarith, Or.inl heven⟩
  · rw [decide_eq_false heven, if_neg Bool.false_ne_true] at h
    exact ⟨by linarith, by linarith, Or.inr ⟨by linarith, by linarith⟩⟩

end RoundingInterval

/-! ### The decimal that is written -/

namespace Binary64.Dyadic

theorem value_toDecimal (d : Dyadic) : d.toDecimal.value = d.value := by
  unfold toDecimal
  split
  · rename_i hexponent
    have hden : d.den = 1 := by
      rw [den, Int.toNat_of_nonpos (by omega)]
      rfl
    rw [Decimal.value, value_eq_div, hden]
    simp
  · rename_i hexponent
    obtain ⟨k, hk⟩ : ∃ k : Nat, d.exponent = -(k : Int) := ⟨(-d.exponent).toNat, by omega⟩
    have hfives : (-d.exponent).toNat = k := by omega
    unfold Decimal.value value
    dsimp only
    rw [hfives, hk, zpow_neg, zpow_neg, zpow_natCast, zpow_natCast, Nat.pow_eq]
    push_cast
    rw [show (10 : ℚ) = 5 * 2 by norm_num, mul_pow]
    field_simp

/-- The shortest decimal is rounded to the double. -/
theorem attracts_shortest {d : Dyadic} (hpos : 0 < d.mantissa) : d.Attracts d.shortest.value := by
  unfold shortest
  dsimp only
  cases hsearch : (RoundingInterval.ofDyadic d).search
      ((d.decimalOrder - min d.exponent 0).toNat + 1) d.decimalOrder with
  | none =>
    rw [Option.getD_none, value_toDecimal]
    exact d.attracts_value
  | some found =>
    exact RoundingInterval.attracts_of_holds hpos (RoundingInterval.holds_of_search hsearch)

/-- The shortest decimal of a double rounds to that double. -/
theorem toMagnitude_shortest {d : Dyadic} (hd : d.IsCanonical) (hfits : d.toBits < infinityBits) :
    d.shortest.toMagnitude = d.toBits := by
  rw [Decimal.toMagnitude_eq_nearest]
  apply nearest_eq_toBits d.shortest.den_pos hd hfits
  rw [Decimal.num_div_den]
  exact attracts_shortest hd.pos

end Binary64.Dyadic

end FormExpr
