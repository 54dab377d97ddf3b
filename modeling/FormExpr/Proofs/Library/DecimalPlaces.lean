import FormExpr.Library.Arithmetic
import FormExpr.Proofs.Number.PowerOfTen

/-!
# Rounding to decimal places

Rounding to decimal places scales with a power of ten and scales back. The number itself is finite
to every place after the point, but the power can overflow, and what is multiplied with it can. Then
scaling back does not undo the overflow: infinity divided by the power stays infinite, and an
infinite power gives what is not a number.
-/

namespace FormExpr.Library

open Binary64

variable {F : Forest} {pow : Float → Float → Float} {x digits : Float}

def toPlaces (q : ℚ) (d : Int) : ℚ :=
  ⌊q * 10 ^ d + 1 / 2⌋ / 10 ^ d

def scale (pow : Float → Float → Float) (digits : Float) : Float :=
  pow 10.0 (trunc digits).abs

/-- What is multiplied with the power of ten: the number itself, or how many units it has of a place
before the point. -/
def multiplicand (x scale : Float) (d : Int) : ℚ :=
  if 0 ≤ d then value x else ⌊value (x / scale) + 1 / 2⌋

/-! ### The number to a place -/

/-- Rounding moves a number by half a unit of the place at most. -/
theorem abs_toPlaces_sub_le (q : ℚ) (d : Int) : |toPlaces q d - q| ≤ 1 / 2 / 10 ^ d := by
  have hpow : (0 : ℚ) < 10 ^ d := zpow_pos (by norm_num) d
  have hround := abs_sub_round (q * 10 ^ d)
  rw [round_eq, abs_sub_comm] at hround
  rw [le_div_iff₀ hpow]
  calc |toPlaces q d - q| * 10 ^ d = |⌊q * 10 ^ d + 1 / 2⌋ - q * 10 ^ d| := by
        rw [toPlaces, ← abs_of_pos hpow, ← abs_mul, sub_mul, abs_of_pos hpow,
          div_mul_cancel₀ _ hpow.ne']
    _ ≤ 1 / 2 := hround

/-- After the point no number is rounded beyond the doubles. -/
theorem abs_toPlaces_lt_overflow_of_nonneg (hx : x.isFinite = true) {d : Int} (hd : 0 ≤ d) :
    |toPlaces (value x) d| < overflow := by
  have hunit : 1 / 2 / (10 : ℚ) ^ d ≤ 1 / 2 :=
    div_le_self (by norm_num) (one_le_zpow₀ (by norm_num) hd)
  calc |toPlaces (value x) d| ≤ |toPlaces (value x) d - value x| + |value x| := by
        have htriangle := abs_add_le (toPlaces (value x) d - value x) (value x)
        rwa [sub_add_cancel] at htriangle
    _ ≤ 1 / 2 + Dyadic.last.value :=
        add_le_add ((abs_toPlaces_sub_le _ _).trans hunit) (abs_value_le_last hx)
    _ < overflow := by linarith [Dyadic.value_last_add_half_lt]

/-- Every double is rounded to none of a place that is larger than all doubles. -/
theorem toPlaces_eq_zero (hx : x.isFinite = true) {d : Int} (hd : d < 0) (hfar : 308 < d.natAbs) :
    toPlaces (value x) d = 0 := by
  have hpow : (10 : ℚ) ^ d = (10 ^ d.natAbs)⁻¹ := by
    rw [← zpow_natCast, ← zpow_neg]
    congr 1
    omega
  have hpos : (0 : ℚ) < 10 ^ d.natAbs := by positivity
  have hhalf : |value x * 10 ^ d| < 1 / 2 := by
    rw [hpow, ← div_eq_mul_inv, abs_div, abs_of_pos hpos, div_lt_iff₀ hpos]
    linarith [abs_value_lt_overflow hx, overflow_lt_ten_pow hfar]
  rw [abs_lt] at hhalf
  have hfloor : ⌊value x * 10 ^ d + 1 / 2⌋ = 0 := by
    rw [Int.floor_eq_zero_iff, Set.mem_Ico]
    constructor <;> linarith
  rw [toPlaces, hfloor, Int.cast_zero, zero_div]

theorem abs_toPlaces_lt_overflow (hx : x.isFinite = true) {d : Int}
    (hd : 0 ≤ d ∨ 308 < d.natAbs) : |toPlaces (value x) d| < overflow := by
  by_cases hnonneg : 0 ≤ d
  · exact abs_toPlaces_lt_overflow_of_nonneg hx hnonneg
  · rw [toPlaces_eq_zero hx (not_le.1 hnonneg) (hd.resolve_left hnonneg), abs_zero]
    exact (abs_nonneg _).trans_lt (abs_value_lt_overflow hx)

/-- An integer has no places after the point to lose. -/
theorem toPlaces_intCast (n : Int) (d : Nat) : toPlaces n d = n := by
  have hpow : (10 : ℚ) ^ d ≠ 0 := by positivity
  have hscaled : (n : ℚ) * 10 ^ (d : Int) = ((n * 10 ^ d : Int) : ℚ) := by
    rw [zpow_natCast]
    push_cast
    rfl
  have hhalf : ⌊(1 / 2 : ℚ)⌋ = 0 := by norm_num
  rw [toPlaces, hscaled, Int.floor_intCast_add, hhalf, add_zero, ← hscaled, zpow_natCast,
    mul_div_cancel_right₀ _ hpow]

/-! ### Scaling -/

section

variable (hpow : FaithfulTens pow) (hdigits : digits.isFinite = true)

include hdigits in
theorem roundTo_of_nonneg (hd : 0 ≤ truncInt digits) :
    roundTo pow x digits = roundHalfUp (x * scale pow digits) / scale pow digits :=
  if_pos ((isInteger_trunc hdigits).nonneg_iff.2 hd)

include hdigits in
theorem roundTo_of_neg (hd : ¬ 0 ≤ truncInt digits) :
    roundTo pow x digits = roundHalfUp (x / scale pow digits) * scale pow digits :=
  if_neg (mt (isInteger_trunc hdigits).nonneg_iff.1 hd)

include hpow hdigits

/-- With an infinite power of ten nothing is left of the number. -/
theorem isNaN_roundTo (hx : x.isFinite = true) (hfar : 308 < (truncInt digits).natAbs) :
    (roundTo pow x digits).isNaN = true := by
  have hscale : scale pow digits = infinity := hpow.infinite (isInteger_trunc hdigits).abs hfar
  by_cases hd : 0 ≤ truncInt digits
  · have hproduct := isFinite_mul_infinity x
    rw [roundTo_of_nonneg hdigits hd, hscale, roundHalfUp_of_not_isFinite hproduct]
    exact isNaN_div_infinity hproduct
  · obtain ⟨negative, hquotient⟩ := div_infinity hx
    rw [roundTo_of_neg hdigits hd, hscale, hquotient]
    cases negative <;> decide

section

variable (hnear : (truncInt digits).natAbs ≤ 308)

include hnear

/-- The power of ten is finite as long as its number of places is within the range of doubles. -/
theorem scale_bounds : (scale pow digits).isFinite = true ∧ 1 ≤ value (scale pow digits) ∧
    value (scale pow digits) ≤ 2 * 10 ^ (truncInt digits).natAbs :=
  ⟨hpow.isFinite (isInteger_trunc hdigits).abs hnear,
    hpow.one_le (isInteger_trunc hdigits).abs hnear,
    hpow.le_two_mul (isInteger_trunc hdigits).abs hnear⟩

/-- With a finite power of ten the number is lost exactly if the product with it overflows. -/
theorem isFinite_roundTo_iff (hx : x.isFinite = true) :
    (roundTo pow x digits).isNaN = false ∧
    ((roundTo pow x digits).isFinite = true ↔
      |multiplicand x (scale pow digits) (truncInt digits) * value (scale pow digits)| <
        overflow) := by
  obtain ⟨hscale, hone, -⟩ := scale_bounds hpow hdigits hnear
  have habs : 1 ≤ |value (scale pow digits)| := hone.trans (le_abs_self _)
  by_cases hd : 0 ≤ truncInt digits
  · rw [roundTo_of_nonneg hdigits hd, multiplicand, if_pos hd, ← isFinite_mul_iff hx hscale]
    cases hproduct : (x * scale pow digits).isFinite with
    | true =>
      have hquotient := isFinite_div (isInteger_roundHalfUp hproduct).1 hscale habs
      exact ⟨isNaN_of_isFinite hquotient, iff_of_true hquotient rfl⟩
    | false =>
      have hkind := div_of_not_isFinite hproduct hscale
      rw [roundHalfUp_of_not_isFinite hproduct, hkind.1, hkind.2]
      exact ⟨isNaN_mul hx hscale, Iff.rfl⟩
  · have hunits := isInteger_roundHalfUp (isFinite_div hx hscale habs)
    rw [roundTo_of_neg hdigits hd, multiplicand, if_neg hd, ← hunits.2]
    exact ⟨isNaN_mul hunits.1 hscale, isFinite_mul_iff hunits.1 hscale⟩

/-- The units of a place before the point make up at most twice the number, but for half a unit. -/
theorem abs_units_mul_scale_le (hx : x.isFinite = true) :
    |(⌊value (x / scale pow digits) + 1 / 2⌋ : ℚ) * value (scale pow digits)| ≤
      2 * |value x| + value (scale pow digits) / 2 := by
  obtain ⟨hscale, hone, -⟩ := scale_bounds hpow hdigits hnear
  have hpos : 0 < value (scale pow digits) := one_pos.trans_le hone
  have hunits := abs_sub_round (value (x / scale pow digits))
  rw [round_eq, abs_le] at hunits
  rw [abs_mul, abs_of_pos hpos]
  by_cases hhalf : 1 / 2 ≤ |value (x / scale pow digits)|
  · have hquotient := abs_value_div_le hx hscale (hone.trans (le_abs_self _)) hhalf
    rw [abs_div, abs_of_pos hpos, mul_div_assoc', le_div_iff₀ hpos] at hquotient
    calc |(⌊value (x / scale pow digits) + 1 / 2⌋ : ℚ)| * value (scale pow digits)
        ≤ (|value (x / scale pow digits)| + 1 / 2) * value (scale pow digits) := by
          gcongr
          rw [abs_le]
          constructor
          · linarith [neg_abs_le (value (x / scale pow digits))]
          · linarith [le_abs_self (value (x / scale pow digits))]
      _ ≤ 2 * |value x| + value (scale pow digits) / 2 := by linarith
  · -- A smaller quotient is rounded to no unit at all.
    have hzero : ⌊value (x / scale pow digits) + 1 / 2⌋ = 0 := by
      rw [not_le, abs_lt] at hhalf
      rw [Int.floor_eq_zero_iff, Set.mem_Ico]
      constructor <;> linarith
    rw [hzero, Int.cast_zero, abs_zero, zero_mul]
    positivity

/-- Well below the largest double nothing overflows. -/
theorem abs_multiplicand_mul_scale_lt (hx : x.isFinite = true)
    (hsmall : |value x| * 10 ^ (truncInt digits).toNat ≤ 10 ^ 307) :
    |multiplicand x (scale pow digits) (truncInt digits) * value (scale pow digits)| <
      overflow := by
  obtain ⟨-, hone, htwice⟩ := scale_bounds hpow hdigits hnear
  have hpos : 0 < value (scale pow digits) := one_pos.trans_le hone
  have hlast : (10 : ℚ) ^ (truncInt digits).natAbs ≤ 10 ^ 307 * 10 := by
    rw [← pow_succ]
    exact pow_le_pow_right₀ (by norm_num) hnear
  have hbound : 3 / 2 * (10 ^ 307 * 10) < overflow := by
    rw [← pow_succ]
    exact ten_pow_lt_overflow le_rfl
  have hunit : (0 : ℚ) < 10 ^ 307 := by positivity
  generalize (10 : ℚ) ^ 307 = unit at hsmall hlast hbound hunit
  rw [multiplicand]
  split_ifs with hd
  · have hplaces : (truncInt digits).natAbs = (truncInt digits).toNat := by omega
    rw [hplaces] at htwice
    calc |value x * value (scale pow digits)| = |value x| * value (scale pow digits) := by
          rw [abs_mul, abs_of_pos hpos]
      _ ≤ |value x| * (2 * 10 ^ (truncInt digits).toNat) := by gcongr
      _ < overflow := by linarith
  · have hplaces : (truncInt digits).toNat = 0 := by omega
    rw [hplaces, pow_zero, mul_one] at hsmall
    have hunits := abs_units_mul_scale_le hpow hdigits hnear hx
    linarith

end

end

/-- With two numbers `round` always answers with a number. It is finite exactly if the places are at
most 308 and the product with the power of ten does not overflow, and it is not a number exactly if
they are more; but the number to the place is a finite double for all places after the point and for
all beyond 308. Nothing is lost as long as the scaled number is at most `10 ^ 307`. -/
theorem round_isFinite_iff {pow : Float → Float → Float} (hpow : FaithfulTens pow) (call : Call F)
    {v places : Value F} {x digits : Float} (hv : v.toNumber call.zone = x)
    (hplaces : places.toNumber call.zone = digits) (hx : x.isFinite = true)
    (hdigits : digits.isFinite = true) :
    ∃ y, round pow call v (some places) = .ok (.number y) ∧
      (y.isFinite = true ↔ (truncInt digits).natAbs ≤ 308 ∧
        |multiplicand x (scale pow digits) (truncInt digits) * value (scale pow digits)| <
          overflow) ∧
      (y.isNaN = true ↔ 308 < (truncInt digits).natAbs) ∧
      (0 ≤ truncInt digits ∨ 308 < (truncInt digits).natAbs →
        |toPlaces (value x) (truncInt digits)| < overflow) ∧
      ((truncInt digits).natAbs ≤ 308 → |value x| * 10 ^ (truncInt digits).toNat ≤ 10 ^ 307 →
        y.isFinite = true) := by
  refine ⟨roundTo pow x digits, by rw [round, hv, hplaces], ?_, ?_,
    abs_toPlaces_lt_overflow hx, ?_⟩
  · by_cases hnear : (truncInt digits).natAbs ≤ 308
    · rw [(isFinite_roundTo_iff hpow hdigits hnear hx).2, and_iff_right hnear]
    · have hnan := isNaN_roundTo hpow hdigits hx (not_le.1 hnear)
      refine iff_of_false (fun hfinite => ?_) (fun h => hnear h.1)
      rw [isNaN_of_isFinite hfinite] at hnan
      cases hnan
  · by_cases hnear : (truncInt digits).natAbs ≤ 308
    · rw [(isFinite_roundTo_iff hpow hdigits hnear hx).1]
      exact iff_of_false Bool.false_ne_true (not_lt.2 hnear)
    · exact iff_of_true (isNaN_roundTo hpow hdigits hx (not_le.1 hnear)) (not_le.1 hnear)
  · intro hnear hsmall
    rw [(isFinite_roundTo_iff hpow hdigits hnear hx).2]
    exact abs_multiplicand_mul_scale_lt hpow hdigits hnear hx hsmall

theorem round_isFinite_iff_hundreds :
    let call : Call ⟨[]⟩ := ⟨"round", ⟨none, 0, 0⟩, (.standard (.fixed 0) ⟨0, 0, 0⟩ fun _ => 0)⟩
    FaithfulTens roundedPower ∧ (1234 : Float).isFinite = true ∧ (-2 : Float).isFinite = true ∧
    ∃ y, round roundedPower call (.number 1234) (some (.number (-2))) = .ok (.number y) ∧
      y.isFinite = true := by
  intro call
  have hx : IsInteger 1234 1234 := by decide
  have hdigits : IsInteger (-2) (-2) := by decide
  have hv : (Value.number 1234 : Value ⟨[]⟩).toNumber call.zone = 1234 := rfl
  have hplaces : (Value.number (-2) : Value ⟨[]⟩).toNumber call.zone = -2 := rfl
  obtain ⟨y, hround, -, -, -, hfinite⟩ :=
    round_isFinite_iff faithfulTens_roundedPower call hv hplaces hx.1 hdigits.1
  refine ⟨faithfulTens_roundedPower, hx.1, hdigits.1, y, hround, hfinite ?_ ?_⟩
  · rw [hdigits.truncInt_eq]
    decide
  · have hle : (10 : ℚ) ^ 4 ≤ 10 ^ 307 := pow_le_pow_right₀ (by norm_num) (by norm_num)
    have hnone : (-2 : Int).toNat = 0 := rfl
    rw [hdigits.truncInt_eq, hx.2, hnone, pow_zero, mul_one]
    refine le_trans ?_ hle
    norm_num

/-- An integer of three hundred digits has no places after the point, but rounded to ten of them it
becomes infinite, even if each power is the double nearest to the exact one. -/
theorem not_forall_round_isFinite :
    ¬ ∀ pow : Float → Float → Float, FaithfulTens pow → ∀ (F : Forest) (call : Call F)
      (x digits : Float), x.isFinite = true → digits.isFinite = true →
      (∃ z : Float, z.isFinite = true ∧ value z = toPlaces (value x) (truncInt digits)) →
      ∃ y, round pow call (.number x) (some (.number digits)) = .ok (.number y) ∧
        y.isFinite = true := by
  intro hall
  have hx : (1e300 : Float).isFinite = true := by decide +kernel
  have hdigits : IsInteger 10 10 := by decide
  have hden : (fraction 1e300).2 = 1 := by decide +kernel
  have hvalue : value 1e300 = (fraction 1e300).1 := by
    rw [value, hden, Nat.cast_one, div_one]
  let call : Call ⟨[]⟩ := ⟨"round", ⟨none, 0, 0⟩, (.standard (.fixed 0) ⟨0, 0, 0⟩ fun _ => 0)⟩
  have hv : (Value.number 1e300 : Value ⟨[]⟩).toNumber call.zone = 1e300 := rfl
  have hplaces : (Value.number 10 : Value ⟨[]⟩).toNumber call.zone = 10 := rfl
  have hpower := faithfulTens_roundedPower
  obtain ⟨y, hround, hfinite⟩ := hall _ hpower ⟨[]⟩ call 1e300 10 hx hdigits.1
    ⟨1e300, hx, by rw [hdigits.truncInt_eq, hvalue]; exact (toPlaces_intCast _ 10).symm⟩
  obtain ⟨z, hz, hiff, -⟩ := round_isFinite_iff hpower call hv hplaces hx hdigits.1
  obtain rfl : y = z := Value.number.inj (Except.ok.inj (hround.symm.trans hz))
  have hlt := (hiff.1 hfinite).2
  -- The power is exact, and with it the product has more than three hundred and nine digits.
  have hscale : value (scale roundedPower 10) = 10 ^ 10 := by
    have htrunc : (truncInt 10).natAbs = 10 := by
      rw [hdigits.truncInt_eq]
      rfl
    have hfaithful := hpower.faithful (isInteger_trunc hdigits.1).abs (by rw [htrunc]; norm_num)
    have hexact : IsInteger 10000000000 10000000000 := by decide
    rw [htrunc] at hfaithful
    rw [scale, hfaithful.value_eq hexact.1, hexact.2]
    · norm_num
    · rw [hexact.2]
      norm_num
  rw [hdigits.truncInt_eq, multiplicand, if_pos (by norm_num), hscale, hvalue, abs_lt] at hlt
  have hlarge : (10 : Int) ^ 299 ≤ (fraction 1e300).1 := by decide +kernel
  rw [← Int.cast_le (R := ℚ), Int.cast_pow, Int.cast_ofNat] at hlarge
  have hbeyond : 2 * overflow < 10 ^ 299 * 10 ^ 10 := by
    rw [← pow_add]
    exact overflow_lt_ten_pow (by norm_num)
  have hpos : (0 : ℚ) < 10 ^ 299 := by positivity
  generalize (10 : ℚ) ^ 299 = unit at hlarge hbeyond hpos
  linarith [hlt.2]

end FormExpr.Library
