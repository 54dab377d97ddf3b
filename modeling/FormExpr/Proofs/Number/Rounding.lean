import FormExpr.Proofs.Number.Arithmetic
import FormExpr.Proofs.Number.Order

/-!
# What rounds to a double, and how far

A quotient rounds to a double exactly when it lies in the double's rounding interval. Below a power
of two the neighbour is half as far away as above it, so there the interval reaches into the binade
below, where mantissas are counted in halves of the unit above. In turn the nearest double is within
half a unit of its last place, which for normal numbers bounds the relative error.
-/

namespace FormExpr.Binary64

/-! ### Rounding to an integer -/

theorem div_eq_floor_add {den : Nat} (hden : 0 < den) (num : Nat) :
    (num / den : ℚ) = (num / den : Nat) + (num % den : Nat) / den := by
  have hdenQ : (den : ℚ) ≠ 0 := by exact_mod_cast hden.ne'
  rw [eq_comm, eq_div_iff hdenQ, add_mul, div_mul_cancel₀ _ hdenQ]
  exact_mod_cast Nat.div_add_mod' num den

section

variable {den : Nat} (hden : 0 < den)

include hden

theorem rest_div_lt_half_iff (rest : Nat) : (rest / den : ℚ) < 1 / 2 ↔ 2 * rest < den := by
  have hdenQ : (0 : ℚ) < den := by exact_mod_cast hden
  rw [div_lt_div_iff₀ hdenQ two_pos, one_mul, mul_comm]
  norm_cast

theorem half_lt_rest_div_iff (rest : Nat) : (1 / 2 : ℚ) < rest / den ↔ den < 2 * rest := by
  have hdenQ : (0 : ℚ) < den := by exact_mod_cast hden
  rw [div_lt_div_iff₀ two_pos hdenQ, one_mul, mul_comm]
  norm_cast

theorem rest_div_bounds (num : Nat) :
    (0 : ℚ) ≤ (num % den : Nat) / den ∧ ((num % den : Nat) / den : ℚ) < 1 := by
  have hdenQ : (0 : ℚ) < den := by exact_mod_cast hden
  refine ⟨by positivity, ?_⟩
  rw [div_lt_one hdenQ]
  exact_mod_cast Nat.mod_lt num hden

/-- An integer is rounded to from less than half away, an even one from half way as well. -/
theorem roundHalfEven_eq {num m : Nat} (hlow : (m : ℚ) - 1 / 2 ≤ num / den)
    (hhigh : (num / den : ℚ) ≤ m + 1 / 2)
    (htie : m % 2 = 0 ∨ ((m : ℚ) - 1 / 2 < num / den ∧ (num / den : ℚ) < m + 1 / 2)) :
    roundHalfEven num den = m := by
  obtain ⟨hrest, hrest'⟩ := rest_div_bounds hden num
  rw [div_eq_floor_add hden num] at hlow hhigh htie
  unfold roundHalfEven
  dsimp only
  have hless := rest_div_lt_half_iff hden (num % den)
  have hmore := half_lt_rest_div_iff hden (num % den)
  generalize num / den = floor at *
  generalize num % den = rest at *
  have hfloor : floor ≤ m := by
    have hlt : (floor : ℚ) < m + 1 := by linarith
    exact Nat.lt_succ_iff.1 (by exact_mod_cast hlt)
  have hceil : m ≤ floor + 1 := by
    have hlt : (m : ℚ) < floor + 2 := by linarith
    exact Nat.lt_succ_iff.1 (by exact_mod_cast hlt)
  obtain rfl | rfl : m = floor ∨ m = floor + 1 := by omega
  · have hle : ¬ den < 2 * rest := by
      rw [← hmore]
      linarith
    rcases htie with heven | ⟨-, hlt⟩
    · split_ifs <;> omega
    · rw [if_pos (hless.1 (by linarith))]
  · push_cast at hlow htie
    have hle : ¬ 2 * rest < den := by
      rw [← hless]
      linarith
    rcases htie with heven | ⟨hlt, -⟩
    · split_ifs <;> omega
    · rw [if_neg hle, if_pos (hmore.1 (by linarith))]

/-- Rounding moves a quotient by a half at most. -/
theorem abs_roundHalfEven_sub_le (num : Nat) :
    |(roundHalfEven num den : ℚ) - num / den| ≤ 1 / 2 := by
  obtain ⟨hrest, hrest'⟩ := rest_div_bounds hden num
  rw [div_eq_floor_add hden num, abs_le]
  unfold roundHalfEven
  dsimp only
  have hless := rest_div_lt_half_iff hden (num % den)
  have hmore := half_lt_rest_div_iff hden (num % den)
  generalize num / den = floor at *
  generalize num % den = rest at *
  split_ifs with hdown hup
  · have hle := hless.2 hdown
    constructor <;> linarith
  · have hge := hmore.2 hup
    push_cast
    constructor <;> linarith
  · rw [← hless, not_lt] at hdown
    rw [← hmore, not_lt] at hup
    rcases Nat.mod_two_eq_zero_or_one floor with heven | hodd
    · rw [heven, Nat.add_zero]
      constructor <;> linarith
    · rw [hodd]
      push_cast
      constructor <;> linarith

end

/-! ### Rounding intervals -/

namespace Dyadic

def lowerReach (d : Dyadic) : ℚ :=
  if d.mantissa = hiddenBit ∧ -1074 < d.exponent then 1 / 4 else 1 / 2

/-- The value lies in the rounding interval; an even mantissa has the ends of its own as well. -/
structure Attracts (d : Dyadic) (v : ℚ) : Prop where
  low : d.mantissa - d.lowerReach ≤ v / 2 ^ d.exponent
  high : v / 2 ^ d.exponent ≤ d.mantissa + 1 / 2
  interior : d.mantissa % 2 = 0 ∨
    (d.mantissa - d.lowerReach < v / 2 ^ d.exponent ∧ v / 2 ^ d.exponent < d.mantissa + 1 / 2)

theorem lowerReach_pos (d : Dyadic) : 0 < d.lowerReach := by
  unfold lowerReach
  split_ifs <;> norm_num

theorem lowerReach_le (d : Dyadic) : d.lowerReach ≤ 1 / 2 := by
  unfold lowerReach
  split_ifs <;> norm_num

/-- The rounding interval has the value of its double. -/
theorem attracts_value (d : Dyadic) : d.Attracts d.value := by
  have hvalue : d.value / 2 ^ d.exponent = d.mantissa := by
    rw [value, mul_div_cancel_right₀ _ (zpow_ne_zero _ two_ne_zero)]
  have hreach := d.lowerReach_pos
  constructor
  · rw [hvalue]
    linarith
  · rw [hvalue]
    linarith
  · rw [hvalue]
    exact Or.inr ⟨by linarith, by linarith⟩

variable {d : Dyadic}

theorem Attracts.lt_two_pow {v : ℚ} (hd : d.IsCanonical) (hv : d.Attracts v) :
    v / 2 ^ d.exponent < 2 ^ 53 := by
  have hlt := hd.lt
  by_cases hlast : d.mantissa = 2 ^ 53 - 1
  · rcases hv.interior with heven | ⟨-, hhigh⟩
    · omega
    · rw [hlast] at hhigh
      norm_num at hhigh ⊢
      linarith
  · have hle : (d.mantissa : ℚ) ≤ 2 ^ 53 - 2 := by
      have hle : d.mantissa + 2 ≤ 2 ^ 53 := by omega
      have hleQ : (d.mantissa : ℚ) + 2 ≤ 2 ^ 53 := by exact_mod_cast hle
      linarith
    linarith [hv.high]

theorem Attracts.pos {v : ℚ} (hd : d.IsCanonical) (hv : d.Attracts v) : 0 < v := by
  have hpow : (0 : ℚ) < 2 ^ d.exponent := zpow_pos two_pos _
  have hpos : (1 : ℚ) ≤ d.mantissa := by exact_mod_cast hd.pos
  have hreach := d.lowerReach_le
  have hlow := hv.low
  have hquotient : 0 < v / 2 ^ d.exponent := by linarith
  exact (div_pos_iff_of_pos_right hpow).1 hquotient

/-- Only the first mantissa of a binade attracts numbers from the binade below. -/
theorem Attracts.mantissa_eq {v : ℚ} (hd : d.IsCanonical) (hv : d.Attracts v)
    (hbelow : v / 2 ^ d.exponent < 2 ^ 52) (hnormal : -1074 < d.exponent) :
    d.mantissa = 2 ^ 52 ∧ 2 ^ 52 - 1 / 4 ≤ v / 2 ^ d.exponent := by
  have hlow := hv.low
  have hfirst : d.mantissa = 2 ^ 52 := by
    have hge : 2 ^ 52 ≤ d.mantissa := by
      rcases hd.normal with hge | hsubnormal
      · exact hge
      · omega
    have hlt : (d.mantissa : ℚ) < 2 ^ 52 + 1 := by linarith [d.lowerReach_le]
    have hltNat : d.mantissa < 2 ^ 52 + 1 := by exact_mod_cast hlt
    omega
  have hreach : d.lowerReach = 1 / 4 := if_pos ⟨hfirst, hnormal⟩
  rw [hreach, hfirst] at hlow
  exact ⟨hfirst, by exact_mod_cast hlow⟩

end Dyadic

section

variable {num den : Nat} (hden : 0 < den) {d : Dyadic}

include hden

theorem quantum_of_same_unit (hnum : 0 < num) (hd : d.IsCanonical) (hv : d.Attracts (num / den))
    (hsame : (2 : ℚ) ^ 52 ≤ num / den / 2 ^ d.exponent ∨ d.exponent = -1074) :
    quantum num den = d.exponent := by
  have hpow : (0 : ℚ) < 2 ^ d.exponent := zpow_pos two_pos _
  have hbelow := hv.lt_two_pow hd
  rw [div_lt_iff₀ hpow] at hbelow
  have hhigh : (num / den : ℚ) < 2 ^ (53 + d.exponent) := by
    rw [zpow_add₀ two_ne_zero]
    exact_mod_cast hbelow
  have horder : binaryOrder num den ≤ 52 + d.exponent := by
    have hlt := two_zpow_lt_two_zpow_iff.1 ((binaryOrder_spec hnum hden).1.trans_lt hhigh)
    omega
  have hsmallest := hd.smallest
  rcases hsame with hbinade | hsubnormal
  · rw [le_div_iff₀ hpow] at hbinade
    have hle : (2 : ℚ) ^ (52 + d.exponent) ≤ num / den := by
      rw [zpow_add₀ two_ne_zero]
      exact_mod_cast hbinade
    have hge := le_binaryOrder hnum hden hle
    unfold quantum
    omega
  · unfold quantum
    omega

/-- In the binade of the double, and below all normal binades, the unit is the double's own. -/
theorem nearest_of_same_unit (hnum : 0 < num) (hd : d.IsCanonical)
    (hfits : d.toBits < infinityBits) (hv : d.Attracts (num / den))
    (hsame : (2 : ℚ) ^ 52 ≤ num / den / 2 ^ d.exponent ∨ d.exponent = -1074) :
    nearest num den = d.toBits := by
  have hquantum := quantum_of_same_unit hden hnum hd hv hsame
  have hreach := d.lowerReach_le
  have hmantissa : nearestMantissa num den = d.mantissa := by
    unfold nearestMantissa
    rw [hquantum]
    apply roundHalfEven_eq (shiftLeft_pos hden _)
    · rw [shiftLeft_div_shiftLeft]
      linarith [hv.low]
    · rw [shiftLeft_div_shiftLeft]
      exact hv.high
    · rw [shiftLeft_div_shiftLeft]
      rcases hv.interior with heven | ⟨hlow, hhigh⟩
      · exact Or.inl heven
      · exact Or.inr ⟨by linarith, hhigh⟩
  rw [nearest_eq hnum, hmantissa, hquantum, min_eq_left hfits.le]

/-- Just below a power of two the nearest double has the smaller unit. -/
theorem quantum_of_lower_unit (hnum : 0 < num) {q : Int} (hq : -1074 < q)
    (hlow : (2 : ℚ) ^ 52 - 1 / 4 ≤ num / den / 2 ^ q) (hbelow : (num / den : ℚ) / 2 ^ q < 2 ^ 52) :
    quantum num den = q - 1 := by
  have hpow : (0 : ℚ) < 2 ^ q := zpow_pos two_pos _
  have horder : binaryOrder num den = 51 + q := by
    apply binaryOrder_eq hnum hden
    · rw [zpow_add₀ two_ne_zero, ← le_div_iff₀ hpow]
      norm_num at hlow ⊢
      linarith
    · rw [show 51 + q + 1 = 52 + q by ring, zpow_add₀ two_ne_zero, ← div_lt_iff₀ hpow]
      exact_mod_cast hbelow
  unfold quantum
  omega

/-- Just below a power of two the mantissa is rounded up to the end of the lower binade. -/
theorem nearest_of_lower_unit (hnum : 0 < num) (hd : d.IsCanonical)
    (hfits : d.toBits < infinityBits) (hv : d.Attracts (num / den))
    (hbelow : (num / den : ℚ) / 2 ^ d.exponent < 2 ^ 52) (hnormal : -1074 < d.exponent) :
    nearest num den = d.toBits := by
  obtain ⟨hfirst, hlow⟩ := hv.mantissa_eq hd hbelow hnormal
  have hquantum := quantum_of_lower_unit hden hnum hnormal hlow hbelow
  have hdouble : (num / den : ℚ) / 2 ^ (d.exponent - 1) = num / den / 2 ^ d.exponent * 2 := by
    rw [zpow_sub_one₀ two_ne_zero]
    field_simp
  have hmantissa : nearestMantissa num den = 2 ^ 53 := by
    unfold nearestMantissa
    rw [hquantum]
    apply roundHalfEven_eq (shiftLeft_pos hden _)
    · rw [shiftLeft_div_shiftLeft, hdouble]
      norm_num at hlow ⊢
      linarith
    · rw [shiftLeft_div_shiftLeft, hdouble]
      norm_num at hbelow ⊢
      linarith
    · exact Or.inl rfl
  have hbits : Dyadic.toBits ⟨2 ^ 53, d.exponent - 1⟩ = d.toBits := by
    unfold Dyadic.toBits hiddenBit
    dsimp only
    omega
  rw [nearest_eq hnum, hmantissa, hquantum, hbits, min_eq_left hfits.le]

/-- A quotient rounds to each double whose rounding interval it lies in. -/
theorem nearest_eq_toBits (hd : d.IsCanonical) (hfits : d.toBits < infinityBits)
    (hv : d.Attracts (num / den)) : nearest num den = d.toBits := by
  have hnum := pos_of_div_pos hden (hv.pos hd)
  by_cases hsame : (2 : ℚ) ^ 52 ≤ num / den / 2 ^ d.exponent ∨ d.exponent = -1074
  · exact nearest_of_same_unit hden hnum hd hfits hv hsame
  · rw [not_or, not_le] at hsame
    exact nearest_of_lower_unit hden hnum hd hfits hv hsame.1
      (lt_of_le_of_ne hd.smallest (Ne.symm hsame.2))

/-! ### Rounding errors -/

/-- The nearest double is within half a unit of its last place. -/
theorem abs_value_nearest_sub_le (hnum : 0 < num) (hfits : nearest num den < infinityBits) :
    |(Dyadic.ofBits (nearest num den)).value - num / den| ≤ 2 ^ quantum num den / 2 := by
  have hpow : (0 : ℚ) < 2 ^ quantum num den := zpow_pos two_pos _
  have hround := abs_roundHalfEven_sub_le (shiftLeft_pos hden (quantum num den).toNat)
    (num <<< (-quantum num den).toNat)
  rw [shiftLeft_div_shiftLeft] at hround
  calc |(Dyadic.ofBits (nearest num den)).value - num / den|
      = |(nearestMantissa num den : ℚ) - num / den / 2 ^ quantum num den| *
          2 ^ quantum num den := by
        rw [value_ofBits_nearest hnum hden hfits]
        nth_rewrite 3 [← abs_of_pos hpow]
        rw [← abs_mul, sub_mul, div_mul_cancel₀ _ hpow.ne']
    _ ≤ 1 / 2 * 2 ^ quantum num den := by
        gcongr
        exact hround
    _ = 2 ^ quantum num den / 2 := by ring

/-- For a normal number that is a relative error of at most one half of the last of 53 bits. -/
theorem abs_value_nearest_sub_le_div (hnormal : (2 : ℚ) ^ (-1022 : Int) ≤ num / den)
    (hfits : nearest num den < infinityBits) :
    |(Dyadic.ofBits (nearest num den)).value - num / den| ≤ num / den / 2 ^ 53 := by
  have hnum := pos_of_div_pos hden ((zpow_pos two_pos _).trans_le hnormal)
  have hquantum : quantum num den + 52 = binaryOrder num den := by
    have horder := le_binaryOrder hnum hden hnormal
    unfold quantum
    omega
  have hunit : (2 : ℚ) ^ quantum num den * 2 ^ 52 ≤ num / den := by
    have hle := (binaryOrder_spec hnum hden).1
    rw [← hquantum, zpow_add₀ two_ne_zero] at hle
    exact_mod_cast hle
  refine (abs_value_nearest_sub_le hden hnum hfits).trans ?_
  rw [div_le_div_iff₀ two_pos (by positivity)]
  linarith

end

theorem two_zpow_le_of_le {v : ℚ} (hv : 1 / 2 ^ 53 ≤ v) : (2 : ℚ) ^ (-1022 : Int) ≤ v := by
  refine le_trans ?_ hv
  rw [one_div, ← zpow_natCast, ← zpow_neg]
  exact zpow_le_zpow_right₀ one_le_two (by norm_num)

/-! ### Rounding a double to an integer -/

theorem Dyadic.value_eq_div (d : Dyadic) : d.value = d.num / d.den := by
  have hshift := shiftLeft_div_shiftLeft d.mantissa 1 (-d.exponent)
  rw [neg_neg, Nat.cast_one, div_one, zpow_neg, div_inv_eq_mul] at hshift
  exact hshift.symm

theorem Dyadic.den_pos (d : Dyadic) : 0 < d.den :=
  shiftLeft_pos Nat.one_pos _

theorem div_two_mul_eq {num den n : Nat} (hden : 0 < den)
    (hnear : |(num / den : ℚ) - n| < 1 / 2) : (2 * num + den) / (2 * den) = n := by
  have hdenQ : (0 : ℚ) < den := by exact_mod_cast hden
  rw [abs_lt] at hnear
  obtain ⟨hlow, hhigh⟩ := hnear
  have hbelow : ((n : ℚ) - 1 / 2) * den < num := by
    rw [← lt_div_iff₀ hdenQ]
    linarith
  have habove : (num : ℚ) < (n + 1 / 2) * den := by
    rw [← div_lt_iff₀ hdenQ]
    linarith
  apply Nat.div_eq_of_lt_le
  · have hle : (n : ℚ) * (2 * den) ≤ 2 * num + den := by linarith
    exact_mod_cast hle
  · have hlt : (2 * num + den : ℚ) < (n + 1) * (2 * den) := by linarith
    exact_mod_cast hlt

/-- Less than half away from a whole number a double is rounded to it. -/
theorem roundHalfAwayInt_ofMagnitude (negative : Bool) {bits n : Nat} (hbits : bits ≤ infinityBits)
    (hnear : |(Dyadic.ofBits bits).value - n| < 1 / 2) :
    roundHalfAwayInt (ofMagnitude negative bits) = if negative then -(n : Int) else n := by
  have hden := (Dyadic.ofBits bits).den_pos
  rw [Dyadic.value_eq_div] at hnear
  unfold roundHalfAwayInt fraction
  dsimp only
  rw [magnitude_ofMagnitude negative hbits, isNegative_ofMagnitude negative hbits]
  generalize (Dyadic.ofBits bits).num = num at *
  generalize (Dyadic.ofBits bits).den = den at *
  have hround := div_two_mul_eq hden hnear
  have hdiv : (2 * (num : Int) + den).tdiv (2 * den) = n := by
    rw [Int.tdiv_eq_ediv_of_nonneg (by omega)]
    exact_mod_cast hround
  rcases Nat.eq_zero_or_pos num with rfl | hpos
  · have hzero : n = 0 := by
      rw [← hround, Nat.mul_zero, Nat.zero_add]
      exact Nat.div_eq_of_lt (by omega)
    subst hzero
    cases negative <;> simp
  · have hsign : (num : Int).sign = 1 := Int.sign_eq_one_of_pos (by exact_mod_cast hpos)
    cases negative with
    | false =>
      simp only [Bool.false_eq_true, if_false, hsign, one_mul]
      exact hdiv
    | true =>
      simp only [if_true, Int.sign_neg, hsign]
      rw [show 2 * -(num : Int) + -1 * den = -(2 * num + den) by ring, Int.neg_tdiv, hdiv]

/-! ### Whole numbers -/

theorem ofInt_eq_ofMagnitude {n : Int} (hn : n.natAbs < 2 ^ 53) :
    Float.ofInt n = ofMagnitude (n < 0) (nearest n.natAbs 1) := by
  cases n with
  | ofNat n =>
    have hsign : decide (Int.ofNat n < 0) = false := decide_eq_false (Int.natCast_nonneg n).not_gt
    rw [hsign]
    exact ofNat_eq_ofMagnitude _
  | negSucc n =>
    have hsign : decide (Int.negSucc n < 0) = true := decide_eq_true (Int.negSucc_lt_zero n)
    have hneg : Float.ofInt (Int.negSucc n) = -Float.ofNat (n + 1) := rfl
    have hsucc : n + 1 < 2 ^ 53 := hn
    rw [hsign, hneg, ofNat_eq_ofMagnitude,
      neg_ofMagnitude false (nearest_le_infinityBits _ _)]
    rfl

section

variable {n : Int} {d : Nat} (hd : 0 < d) (hd' : d < 2 ^ 53)

include hd hd'

theorem ofInt_div_ofNat (hn : n.natAbs < 2 ^ 53) :
    Float.ofInt n / Float.ofNat d = ofMagnitude (n < 0) (nearest n.natAbs d) := by
  rcases Nat.eq_zero_or_pos n.natAbs with hzero | hpos
  · obtain rfl := Int.natAbs_eq_zero.1 hzero
    exact ofNat_div_ofNat (by norm_num) hd hd'
  · rw [ofInt_eq_ofMagnitude hn, ofNat_eq_ofMagnitude,
      ofMagnitude_div_ofMagnitude hpos hn hd hd', Bool.xor_false]

theorem zero_mul_ofNat : ofMagnitude false 0 * Float.ofNat d = ofMagnitude false 0 := by
  have hzero : (ofMagnitude false 0).toModel.unpack = .zero (signOf false) := rfl
  obtain ⟨hy, hy'⟩ := nearest_one_bounds hd hd'
  have hfactor := unpack_toModel_finite (x := ofMagnitude false (nearest d 1))
    (by rwa [magnitude_ofMagnitude false hy'.le]) (by rwa [magnitude_ofMagnitude false hy'.le])
  rw [ofNat_eq_ofMagnitude, mul_eq_pack, hzero, hfactor, Float.Model.UnpackedFloat.mul,
    signOf_mul_signOf, isNegative_ofMagnitude false hy'.le, ofModel_pack_zero]
  rfl

section

variable {n : Nat} (hn : 0 < n) (hn' : n < 2 ^ 50)

include hn hn'

/-- What the quotient by `d` loses to rounding is little even when it is multiplied back. -/
theorem quotient_near :
    0 < nearest n d ∧ nearest n d < infinityBits ∧
    |(Dyadic.ofBits (nearest n d)).value * d - n| ≤ n / 2 ^ 53 := by
  have hdQ : (0 : ℚ) < d := by exact_mod_cast hd
  have hnQ : (1 : ℚ) ≤ n := by exact_mod_cast hn
  have hlow : ((1 : Nat) / (2 ^ 53 : Nat) : ℚ) ≤ n / d := by
    rw [div_le_div_iff₀ (by norm_num) hdQ]
    exact_mod_cast (Nat.mul_le_mul hn hd'.le)
  have hhigh : (n / d : ℚ) ≤ n / (1 : Nat) := by
    gcongr
    exact hd
  have hpos := nearest_mono (by norm_num) hd hlow
  have hfits := (nearest_mono hd Nat.one_pos hhigh).trans_lt
    (nearest_one_bounds hn (hn'.trans (by norm_num))).2
  have hfirst : 0 < nearest 1 (2 ^ 53) := by decide
  have hsmallest : (2 : ℚ) ^ (-1022 : Int) ≤ n / d := by
    refine two_zpow_le_of_le ?_
    exact_mod_cast hlow
  have herror := abs_value_nearest_sub_le_div hd hsmallest hfits
  refine ⟨hfirst.trans_le hpos, hfits, ?_⟩
  calc |(Dyadic.ofBits (nearest n d)).value * d - n|
      = |(Dyadic.ofBits (nearest n d)).value - n / d| * d := by
        nth_rewrite 3 [← abs_of_pos hdQ]
        rw [← abs_mul, sub_mul, div_mul_cancel₀ _ hdQ.ne']
    _ ≤ n / d / 2 ^ 53 * d := by gcongr
    _ = n / 2 ^ 53 := by field_simp

/-- The product is less than a half off and so rounds to the whole number. -/
theorem roundHalfAwayInt_mul_ofNat (negative : Bool) {bits : Nat} (hbits : 0 < bits)
    (hbits' : bits < infinityBits)
    (hnear : |(Dyadic.ofBits bits).value * d - n| ≤ n / 2 ^ 53) :
    (ofMagnitude negative bits * Float.ofNat d).isFinite = true ∧
    roundHalfAwayInt (ofMagnitude negative bits * Float.ofNat d) =
      if negative then -(n : Int) else n := by
  obtain ⟨hy, hy'⟩ := nearest_one_bounds hd hd'
  obtain ⟨q, hq⟩ : ∃ q, q = Dyadic.ofBits bits := ⟨_, rfl⟩
  have hproduct : ((q.num * d : Nat) / q.den : ℚ) = q.value * d := by
    rw [Dyadic.value_eq_div]
    push_cast
    ring
  have hvalue : ((q.num * d : Nat) / q.den : ℚ) =
      (Dyadic.ofBits bits).value * (Dyadic.ofBits (nearest d 1)).value := by
    rw [value_nearest_one hd hd', ← hq, hproduct]
  have hone : (1 : ℚ) ≤ n := by exact_mod_cast hn
  have hbound : (n : ℚ) < 2 ^ 50 := by exact_mod_cast hn'
  rw [← hq, ← hproduct, abs_le] at hnear
  rw [ofNat_eq_ofMagnitude, ofMagnitude_mul hbits hbits' hy hy' q.den_pos negative false hvalue,
    Bool.xor_false]
  have hfits : nearest (q.num * d) q.den < infinityBits := by
    have hlast : nearest (2 ^ 53) 1 < infinityBits := by decide
    have hle : ((q.num * d : Nat) / q.den : ℚ) ≤ (2 ^ 53 : Nat) / (1 : Nat) := by
      push_cast at hnear ⊢
      linarith
    exact (nearest_mono q.den_pos Nat.one_pos hle).trans_lt hlast
  have hsmallest : (2 : ℚ) ^ (-1022 : Int) ≤ (q.num * d : Nat) / q.den := by
    apply two_zpow_le_of_le
    linarith
  have herror := abs_value_nearest_sub_le_div q.den_pos hsmallest hfits
  rw [abs_le] at herror
  constructor
  · rw [isFinite_eq, magnitude_ofMagnitude negative hfits.le, decide_eq_true hfits]
  · apply roundHalfAwayInt_ofMagnitude negative hfits.le
    rw [abs_lt]
    constructor <;> linarith

end

/-- A whole number is found again when it is divided, multiplied back and rounded. -/
theorem roundHalfAwayInt_div_mul_ofNat (hn : n.natAbs < 2 ^ 50) :
    (Float.ofInt n / Float.ofNat d * Float.ofNat d).isFinite = true ∧
    roundHalfAwayInt (Float.ofInt n / Float.ofNat d * Float.ofNat d) = n := by
  rw [ofInt_div_ofNat hd hd' (hn.trans (by norm_num))]
  rcases Nat.eq_zero_or_pos n.natAbs with hzero | hpos
  · obtain rfl := Int.natAbs_eq_zero.1 hzero
    have hquotient : ofMagnitude (decide ((0 : Int) < 0)) (nearest (0 : Int).natAbs d) =
        ofMagnitude false 0 := rfl
    rw [hquotient, zero_mul_ofNat hd hd']
    exact ⟨by decide, by decide +kernel⟩
  · obtain ⟨hbits, hbits', hnear⟩ := quotient_near hd hd' hpos hn
    obtain ⟨hfinite, hround⟩ := roundHalfAwayInt_mul_ofNat hd hd' hpos hn (n < 0) hbits hbits' hnear
    refine ⟨hfinite, hround.trans ?_⟩
    by_cases hsign : n < 0
    · rw [decide_eq_true hsign, if_pos rfl]
      omega
    · rw [decide_eq_false hsign, if_neg Bool.false_ne_true]
      omega

end

end FormExpr.Binary64
