import FormExpr.Proofs.Number.NonNegative

/-!
# Overflow

A number is rounded to a finite double exactly if it lies below the middle between the largest
double and the power of two that would follow it. So the product of two finite doubles is finite or
infinite as its exact value lies below that bound or not. Only an operation on an infinity can end
in what is not a number.
-/

namespace FormExpr.Binary64

open Float.Model (UnpackedFloat)
open Float.Model.Format (binary64)

/-! ### The bound -/

/-- The least number that is rounded to infinity. -/
def overflow : ℚ := 2 ^ 1024 - 2 ^ 970

def Dyadic.last : Dyadic := ⟨2 ^ 53 - 1, 971⟩

theorem Dyadic.isCanonical_last : last.IsCanonical where
  pos := by decide
  lt := by decide
  smallest := by decide
  normal := Or.inl (by decide)

theorem overflow_eq_mul : overflow = (2 ^ 54 - 1) * 2 ^ 970 := by
  have hhigh : (2 : ℚ) ^ 1024 = 2 ^ 54 * 2 ^ 970 := pow_add 2 54 970
  rw [overflow, hhigh, sub_one_mul]

theorem overflow_eq_natCast : overflow = ((2 ^ 54 - 1) <<< 970 : Nat) := by
  have hshift : ∀ k : Nat, (((2 ^ 54 - 1) <<< k : Nat) : ℚ) = (2 ^ 54 - 1) * 2 ^ k := by
    intro k
    rw [Nat.shiftLeft_eq]
    norm_num
  rw [overflow_eq_mul, hshift]

/-- The bound is half a unit beyond the largest double. -/
theorem overflow_eq : overflow = (Dyadic.last.mantissa + 1 / 2) * 2 ^ Dyadic.last.exponent := by
  have hunit : (2 : ℚ) ^ Dyadic.last.exponent = 2 ^ 970 * 2 :=
    (zpow_natCast 2 971).trans (pow_succ 2 970)
  rw [overflow_eq_mul, hunit]
  generalize (2 : ℚ) ^ 970 = unit
  norm_num [Dyadic.last]
  ring

theorem Dyadic.value_last_add_half_lt : last.value + 1 / 2 < overflow := by
  have hunit : (1 : ℚ) < 2 ^ last.exponent := one_lt_zpow₀ one_lt_two (by decide)
  rw [overflow_eq, value, add_mul]
  linarith

theorem Dyadic.value_last_lt_overflow : last.value < overflow := by
  have hlt := value_last_add_half_lt
  linarith

/-- From the largest double up to the bound numbers are rounded to it. -/
theorem Dyadic.attracts_last {q : ℚ} (hlow : last.value ≤ q) (hhigh : q < overflow) :
    last.Attracts q := by
  have hpow : (0 : ℚ) < 2 ^ last.exponent := zpow_pos two_pos _
  have hreach := last.lowerReach_pos
  rw [overflow_eq, ← div_lt_iff₀ hpow] at hhigh
  rw [Dyadic.value, ← le_div_iff₀ hpow] at hlow
  exact ⟨by linarith, hhigh.le, Or.inr ⟨by linarith, hhigh⟩⟩

/-- A fraction is rounded to a finite double exactly below the overflow. -/
theorem nearestTo_lt_infinityBits_iff {q : ℚ} (hq : 0 ≤ q) :
    nearestTo q < infinityBits ↔ q < overflow := by
  constructor
  · intro hlt
    by_contra hle
    have hinfinity : nearest ((2 ^ 54 - 1) <<< 970) 1 = infinityBits := by decide +kernel
    have hmono : nearest ((2 ^ 54 - 1) <<< 970) 1 ≤ nearestTo q := by
      apply nearest_mono Nat.one_pos q.den_pos
      rwa [toNat_num_div_den hq, Nat.cast_one, div_one, ← overflow_eq_natCast, ← not_lt]
    omega
  · intro hlt
    have hmax := hq.trans (le_max_left q Dyadic.last.value)
    have hattracts :=
      Dyadic.attracts_last (le_max_right q _) (max_lt hlt Dyadic.value_last_lt_overflow)
    rw [← toNat_num_div_den hmax] at hattracts
    have hfits : Dyadic.last.toBits < infinityBits := by decide
    calc nearestTo q ≤ nearestTo (max q Dyadic.last.value) := nearestTo_mono hq (le_max_left _ _)
      _ = Dyadic.last.toBits :=
        nearest_eq_toBits (Rat.den_pos _) Dyadic.isCanonical_last hfits hattracts
      _ < infinityBits := hfits

/-- Below the bound a number that is not tiny is rounded with a small relative error. -/
theorem abs_value_nearestTo_sub_le {q : ℚ} (hq : 1 / 2 ^ 53 ≤ q) (hlt : q < overflow) :
    |(Dyadic.ofBits (nearestTo q)).value - q| ≤ q / 2 ^ 53 := by
  have hnonneg : 0 ≤ q := le_trans (by positivity) hq
  have hnormal := two_zpow_le_of_le hq
  have hfits := (nearestTo_lt_infinityBits_iff hnonneg).2 hlt
  rw [← toNat_num_div_den hnonneg] at hnormal
  have hnear := abs_value_nearest_sub_le_div q.den_pos hnormal hfits
  rwa [toNat_num_div_den hnonneg] at hnear

theorem abs_value_le_last {x : Float} (hx : x.isFinite = true) :
    |value x| ≤ Dyadic.last.value := by
  obtain ⟨negative, bits, hbits, rfl⟩ := exists_eq_ofMagnitude hx
  have hlast : Dyadic.ofBits (infinityBits - 1) = Dyadic.last := by decide
  rw [abs_value_ofMagnitude negative hbits.le, ← hlast]
  exact value_ofBits_le (Nat.le_sub_one_of_lt hbits)

theorem abs_value_lt_overflow {x : Float} (hx : x.isFinite = true) : |value x| < overflow :=
  (abs_value_le_last hx).trans_lt Dyadic.value_last_lt_overflow

/-! ### Decimal powers -/

/-- The powers of ten up to `10 ^ 308` lie well below the bound. -/
theorem ten_pow_lt_overflow {n : Nat} (hn : n ≤ 308) : 3 / 2 * 10 ^ n < overflow := by
  have hlast : (10 : ℚ) ^ 308 = 10 ^ 154 * 10 ^ 154 := pow_add 10 154 154
  have hunit : (2 : ℚ) ^ 970 = (2 ^ 194) ^ 5 := pow_mul 2 194 5
  calc 3 / 2 * (10 : ℚ) ^ n ≤ 3 / 2 * 10 ^ 308 := by
        gcongr
        norm_num
    _ < overflow := by
        rw [overflow_eq_mul, hlast, hunit]
        norm_num

/-- The later powers of ten lie well above it. -/
theorem overflow_lt_ten_pow {n : Nat} (hn : 308 < n) : 2 * overflow < 10 ^ n := by
  have hnext : (10 : ℚ) ^ 309 = 10 ^ 154 * 10 ^ 155 := pow_add 10 154 155
  have hunit : (2 : ℚ) ^ 970 = (2 ^ 194) ^ 5 := pow_mul 2 194 5
  calc 2 * overflow < (10 : ℚ) ^ 309 := by
        rw [overflow_eq_mul, hnext, hunit]
        norm_num
    _ ≤ 10 ^ n := pow_le_pow_right₀ (by norm_num) hn

/-! ### Finite operands -/

theorem isFinite_ofMagnitude_nearestTo (negative : Bool) {q : ℚ} (hq : 0 ≤ q) :
    (ofMagnitude negative (nearestTo q)).isFinite = true ↔ q < overflow := by
  rw [isFinite_eq, magnitude_ofMagnitude negative (nearestTo_le_infinityBits q), decide_eq_true_iff,
    nearestTo_lt_infinityBits_iff hq]

/-- A divisor of one or more does not lead beyond the dividend. -/
theorem abs_value_div_value_lt {x y : Float} (hx : x.isFinite = true) (hone : 1 ≤ |value y|) :
    |value x / value y| < overflow := by
  rw [abs_div]
  exact (div_le_self (abs_nonneg _) hone).trans_lt (abs_value_lt_overflow hx)

section

variable {x y : Float} (hx : x.isFinite = true) (hy : y.isFinite = true)

include hx hy

theorem exists_mul_eq_ofMagnitude :
    ∃ negative, x * y = ofMagnitude negative (nearestTo |value x * value y|) := by
  obtain ⟨s, a, ha, rfl⟩ := exists_eq_ofMagnitude hx
  obtain ⟨t, b, hb, rfl⟩ := exists_eq_ofMagnitude hy
  rw [abs_mul, abs_value_ofMagnitude s ha.le, abs_value_ofMagnitude t hb.le]
  exact ⟨_, ofMagnitude_mul_nearestTo ha hb s t⟩

theorem exists_div_eq_ofMagnitude (hne : value y ≠ 0) :
    ∃ negative, x / y = ofMagnitude negative (nearestTo |value x / value y|) := by
  obtain ⟨s, a, ha, rfl⟩ := exists_eq_ofMagnitude hx
  obtain ⟨t, b, hb, rfl⟩ := exists_eq_ofMagnitude hy
  have hpos : 0 < b := by
    refine Nat.pos_of_ne_zero fun hzero => hne ?_
    rw [value_ofMagnitude t hb.le, hzero, Dyadic.value_ofBits_zero, neg_zero, ite_self]
  rw [abs_div, abs_value_ofMagnitude s ha.le, abs_value_ofMagnitude t hb.le]
  exact ⟨_, ofMagnitude_div_nearestTo ha hb hpos s t⟩

/-- A product is finite exactly if the exact product is below the overflow. -/
theorem isFinite_mul_iff : (x * y).isFinite = true ↔ |value x * value y| < overflow := by
  obtain ⟨negative, hmul⟩ := exists_mul_eq_ofMagnitude hx hy
  rw [hmul, isFinite_ofMagnitude_nearestTo negative (abs_nonneg _)]

theorem isNaN_mul : (x * y).isNaN = false := by
  obtain ⟨negative, hmul⟩ := exists_mul_eq_ofMagnitude hx hy
  have hle := nearestTo_le_infinityBits |value x * value y|
  rw [hmul, isNaN_eq, magnitude_ofMagnitude negative hle, decide_eq_false hle.not_gt]

/-- A quotient by a number of at least one is finite. -/
theorem isFinite_div (hone : 1 ≤ |value y|) : (x / y).isFinite = true := by
  have hne : value y ≠ 0 := abs_pos.1 (one_pos.trans_le hone)
  obtain ⟨negative, hdiv⟩ := exists_div_eq_ofMagnitude hx hy hne
  rw [hdiv, isFinite_ofMagnitude_nearestTo negative (abs_nonneg _)]
  exact abs_value_div_value_lt hx hone

/-- A quotient that is not tiny is at most twice the exact one. -/
theorem abs_value_div_le (hone : 1 ≤ |value y|) (hhalf : 1 / 2 ≤ |value (x / y)|) :
    |value (x / y)| ≤ 2 * |value x / value y| := by
  have hne : value y ≠ 0 := abs_pos.1 (one_pos.trans_le hone)
  obtain ⟨negative, hdiv⟩ := exists_div_eq_ofMagnitude hx hy hne
  have hlt := abs_value_div_value_lt hx hone
  rw [hdiv, abs_value_ofMagnitude negative (nearestTo_le_infinityBits _)] at hhalf ⊢
  have hquarter : 1 / 4 ≤ |value x / value y| := by
    by_contra hsmall
    have hmono := value_ofBits_le (nearestTo_mono (abs_nonneg _) (not_le.1 hsmall).le)
    have hlast : (1 / 4 : ℚ) < overflow := by linarith [ten_pow_lt_overflow (Nat.zero_le 308)]
    have hnear := abs_value_nearestTo_sub_le (by norm_num) hlast
    rw [abs_le] at hnear
    linarith [hnear.2]
  have hnear := abs_value_nearestTo_sub_le (by linarith) hlt
  rw [abs_le] at hnear
  linarith [hnear.2]

end

/-! ### Infinite operands -/

theorem infinity_eq_ofMagnitude : infinity = ofMagnitude false infinityBits := by decide

theorem unpack_infinity_double : infinity.toModel.unpack = .infinity (signOf false) := by
  rw [infinity_eq_ofMagnitude, unpack_ofMagnitude_infinity]

theorem kind_notANumber :
    (Float.ofModel (.pack .notANumber)).isFinite = false ∧
    (Float.ofModel (.pack .notANumber)).isNaN = true := by
  decide

theorem kind_infinity (s : UnpackedFloat.Sign) :
    (Float.ofModel (.pack (.infinity s))).isFinite = false ∧
    (Float.ofModel (.pack (.infinity s))).isNaN = false := by
  cases s <;> decide

/-- Nothing finite comes of multiplying with infinity. -/
theorem isFinite_mul_infinity (x : Float) : (x * infinity).isFinite = false := by
  rw [mul_eq_pack, unpack_infinity_double]
  cases x.toModel.unpack with
  | notANumber | zero => exact kind_notANumber.1
  | infinity | finite => exact (kind_infinity _).1

/-- An infinity over another is not a number. -/
theorem isNaN_div_infinity {p : Float} (hp : p.isFinite = false) : (p / infinity).isNaN = true := by
  change p.toModel.unpack.isFinite = false at hp
  rw [div_eq_pack, unpack_infinity_double]
  cases hunpack : p.toModel.unpack with
  | notANumber | infinity => exact kind_notANumber.2
  | zero | finite =>
    rw [hunpack] at hp
    cases hp

theorem div_infinity {x : Float} (hx : x.isFinite = true) :
    ∃ negative, x / infinity = ofMagnitude negative 0 := by
  obtain ⟨negative, bits, hbits, rfl⟩ := exists_eq_ofMagnitude hx
  have hu := isUnpacked_unpack_ofMagnitude negative hbits.le
  refine ⟨negative, ?_⟩
  rw [div_eq_pack, unpack_infinity_double, ← ofModel_pack_zero]
  generalize (ofMagnitude negative bits).toModel.unpack = u at hu
  cases hu with
  | zero | finite => cases negative <;> rfl
  | infinity => exact absurd hbits (lt_irrefl _)

/-- An infinity stays one when it is divided by a finite number. -/
theorem div_of_not_isFinite {p y : Float} (hp : p.isFinite = false) (hy : y.isFinite = true) :
    (p / y).isFinite = false ∧ (p / y).isNaN = p.isNaN := by
  change p.toModel.unpack.isFinite = false at hp
  change y.toModel.unpack.isFinite = true at hy
  change _ ∧ _ = p.toModel.unpack.isNaN
  rw [div_eq_pack]
  generalize p.toModel.unpack = u at hp ⊢
  generalize y.toModel.unpack = v at hy ⊢
  cases u with
  | zero | finite => cases hp
  | notANumber => exact kind_notANumber
  | infinity s =>
    cases v with
    | notANumber | infinity => cases hy
    | zero | finite => exact kind_infinity _

end FormExpr.Binary64
