import FormExpr.Proofs.Number.Encoding
import FormExpr.Proofs.Number.Nearest

/-!
# Arithmetic rounds to the nearest double

Floating-point operations find a mantissa with a round bit and a sticky bit, shift it to the
exponent of its binade and round. The two bits are just what rounding half to even has to know of
the exact quotient, so an operation gives the double nearest to its exact result.
-/

namespace FormExpr.Binary64

open Float.Model (UnpackedFloat totalExponent)
open Float.Model.Format (binary64)
open Float.Model.UnpackedFloat (Accuracy ExtendedMantissa accuracyOfFraction roundWithAccuracy
  shiftToExponent shiftToTargetExponent)

/-! ### Mantissas with residual bits -/

/-- The mantissa is the floor of the quotient, and the bits say whether the rest is at least a half
and whether it is neither zero nor a half. -/
structure Represents (em : ExtendedMantissa) (num den : Nat) : Prop where
  mantissa : em.mantissa = num / den
  roundBit : em.roundBit = true ↔ den ≤ 2 * (num % den)
  stickyBit : em.stickyBit = true ↔ num % den ≠ 0 ∧ 2 * (num % den) ≠ den

theorem represents_exact (m : Nat) :
    Represents (ExtendedMantissa.ofMantissaAndAccuracy m .exact) m 1 := by
  constructor <;> simp [ExtendedMantissa.ofMantissaAndAccuracy, Nat.mod_one]

theorem represents_accuracyOfFraction (num den : Nat) (hden : 0 < den) :
    Represents
      (ExtendedMantissa.ofMantissaAndAccuracy (num / den) (accuracyOfFraction (num % den) den))
      num den := by
  unfold accuracyOfFraction
  by_cases hexact : num % den = 0
  · rw [if_pos hexact]
    constructor <;> simp [ExtendedMantissa.ofMantissaAndAccuracy, hexact]
    omega
  · rw [if_neg hexact]
    cases hcompare : compare (2 * (num % den)) den with
    | lt =>
      rw [Nat.compare_eq_lt] at hcompare
      constructor <;> simp [ExtendedMantissa.ofMantissaAndAccuracy] <;> omega
    | eq =>
      rw [Nat.compare_eq_eq] at hcompare
      constructor <;> simp [ExtendedMantissa.ofMantissaAndAccuracy] <;> omega
    | gt =>
      rw [Nat.compare_eq_gt] at hcompare
      constructor <;> simp [ExtendedMantissa.ofMantissaAndAccuracy] <;> omega

namespace Represents

variable {em : ExtendedMantissa} {num den : Nat}

theorem roundedMantissa (h : Represents em num den) :
    em.roundedMantissa = roundHalfEven num den := by
  obtain ⟨m, roundBit, stickyBit⟩ := em
  obtain ⟨hmantissa, hround, hsticky⟩ := h
  dsimp only at hmantissa hround hsticky
  subst hmantissa
  unfold ExtendedMantissa.roundedMantissa roundHalfEven
  cases roundBit <;> cases stickyBit <;>
    simp only [Bool.false_eq_true, false_iff, true_iff] at hround hsticky <;>
    simp only [ExtendedMantissa.accuracy, Accuracy.roundToNearestEven]
  · rw [if_pos (by omega)]
  · rw [if_pos (by omega)]
  · rw [if_neg (by omega), if_neg (by omega)]
  · rw [if_neg (by omega), if_pos (by omega)]

theorem shiftRightOne (hden : 0 < den) (h : Represents em num den) :
    Represents em.shiftRightOne num (den * 2) := by
  have hrest : num % (den * 2) = num % den + den * (num / den % 2) := Nat.mod_mul
  have hlt : num % den < den := Nat.mod_lt num hden
  have hbit : num / den % 2 = 0 ∨ num / den % 2 = 1 := Nat.mod_two_eq_zero_or_one _
  constructor
  · rw [ExtendedMantissa.shiftRightOne, h.mantissa, Nat.div_div_eq_div_mul]
  · rw [ExtendedMantissa.shiftRightOne, h.mantissa, hrest, bne_iff_ne]
    rcases hbit with hbit | hbit <;> rw [hbit] <;> omega
  · rw [ExtendedMantissa.shiftRightOne, Bool.or_eq_true, h.roundBit, h.stickyBit, hrest]
    rcases hbit with hbit | hbit <;> rw [hbit] <;> omega

theorem shiftRight (hden : 0 < den) (h : Represents em num den) (n : Nat) :
    Represents (em >>> n) num (den * 2 ^ n) := by
  change Represents (n.repeat ExtendedMantissa.shiftRightOne em) num (den * 2 ^ n)
  induction n with
  | zero => simpa [Nat.repeat] using h
  | succ n ih =>
    rw [Nat.repeat, pow_succ, ← Nat.mul_assoc]
    exact ih.shiftRightOne (Nat.mul_pos hden (Nat.two_pow_pos n))

end Represents

/-! ### Values -/

def Dyadic.value (d : Dyadic) : ℚ :=
  d.mantissa * 2 ^ d.exponent

def absValue (x : Float) : ℚ :=
  (Dyadic.ofBits (magnitude x)).value

theorem Dyadic.value_pos {d : Dyadic} (hd : d.IsCanonical) : 0 < d.value := by
  have hpos : (0 : ℚ) < d.mantissa := by exact_mod_cast hd.pos
  exact mul_pos hpos (zpow_pos two_pos _)

/-- A mantissa that was rounded up to the end of its binade carries into the exponent. -/
theorem Dyadic.value_ofBits_toBits {d : Dyadic} (hlt : d.mantissa ≤ 2 ^ 53)
    (hsmallest : -1074 ≤ d.exponent) (hnormal : 2 ^ 52 ≤ d.mantissa ∨ d.exponent = -1074) :
    (ofBits d.toBits).value = d.value := by
  obtain ⟨m, q⟩ := d
  dsimp only at hlt hsmallest hnormal
  rcases hlt.lt_or_eq with hlt | rfl
  · have heq : ofBits (toBits ⟨m, q⟩) = ⟨m, q⟩ := by
      unfold ofBits toBits hiddenBit
      dsimp only
      split
      · rw [Dyadic.mk.injEq]
        omega
      · rw [Dyadic.mk.injEq]
        omega
    rw [heq]
  · have heq : ofBits (toBits ⟨2 ^ 53, q⟩) = ⟨2 ^ 52, q + 1⟩ := by
      unfold ofBits toBits hiddenBit
      dsimp only
      rw [if_neg (by omega), Dyadic.mk.injEq]
      omega
    rw [heq, value, value, zpow_add_one₀ two_ne_zero]
    push_cast
    ring

theorem roundHalfEven_congr {num den num' den' : Nat} (hden : 0 < den) (hden' : 0 < den')
    (heq : (num / den : ℚ) = num' / den') : roundHalfEven num den = roundHalfEven num' den' :=
  Nat.le_antisymm (roundHalfEven_mono hden hden' heq.le) (roundHalfEven_mono hden' hden heq.ge)

/-- The mantissa has its full length unless the exponent is the least one. -/
theorem nearestMantissa_normal {num den : Nat} (hnum : 0 < num) (hden : 0 < den) :
    2 ^ 52 ≤ nearestMantissa num den ∨ quantum num den = -1074 := by
  have hsmallest : -1074 ≤ quantum num den := le_max_right _ _
  rcases hsmallest.lt_or_eq with hlt | heq
  · exact Or.inl (le_nearestMantissa hnum hden hlt)
  · exact Or.inr heq.symm

/-- The value of the nearest double, when it is finite. -/
theorem value_ofBits_nearest {num den : Nat} (hnum : 0 < num) (hden : 0 < den)
    (hfits : nearest num den < infinityBits) :
    (Dyadic.ofBits (nearest num den)).value =
      nearestMantissa num den * 2 ^ quantum num den := by
  rw [nearest_eq hnum] at hfits ⊢
  rw [min_eq_left (by omega), Dyadic.value_ofBits_toBits]
  · rfl
  · exact nearestMantissa_le hnum hden
  · exact le_max_right _ _
  · exact nearestMantissa_normal hnum hden

/-! ### Rounding the result of an operation -/

theorem mantissa_ofMantissaAndAccuracy (m : Nat) (acc : Accuracy) :
    (ExtendedMantissa.ofMantissaAndAccuracy m acc).mantissa = m := by
  rcases acc with _ | (_ | _ | _) <;> rfl

theorem targetExponent_totalExponent (m : Nat) (e : Int) :
    binary64.targetExponent (totalExponent m e) = max ((m.log2 : Int) + e - 52) (-1074) := by
  have hbits : (binary64.mantissaBits : Int) = 53 := rfl
  have hsmallest : binary64.minExponent = -1074 := rfl
  unfold Float.Model.Format.targetExponent totalExponent
  rw [hbits, hsmallest]
  congr 1
  omega

theorem pos_of_div_pos {num den : Nat} (hden : 0 < den) (hpos : (0 : ℚ) < num / den) : 0 < num := by
  have hnum := (div_pos_iff_of_pos_right (by exact_mod_cast hden : (0 : ℚ) < den)).1 hpos
  exact_mod_cast hnum

theorem le_binaryOrder {num den : Nat} (hnum : 0 < num) (hden : 0 < den) {k : Int}
    (hle : (2 : ℚ) ^ k ≤ num / den) : k ≤ binaryOrder num den := by
  have hlt := two_zpow_lt_two_zpow_iff.1 (hle.trans_lt (binaryOrder_spec hnum hden).2)
  omega

/-- The operation and the nearest double choose the same exponent. -/
theorem targetExponent_eq_quantum {num den m : Nat} (hnum : 0 < num) (hden : 0 < den) {e : Int}
    (hm : 0 < m ∨ e ≤ -1074) (hlow : (m : ℚ) * 2 ^ e ≤ num / den)
    (hhigh : (num / den : ℚ) < (m + 1) * 2 ^ e) :
    binary64.targetExponent (totalExponent m e) = quantum num den := by
  rw [targetExponent_totalExponent, quantum]
  rcases Nat.eq_zero_or_pos m with rfl | hpos
  · have horder : binaryOrder num den < e := by
      rw [← two_zpow_lt_two_zpow_iff]
      refine (binaryOrder_spec hnum hden).1.trans_lt ?_
      simpa using hhigh
    have hlog : (0 : Nat).log2 = 0 := rfl
    omega
  have horder : binaryOrder num den = (m.log2 : Int) + e := by
    apply binaryOrder_eq hnum hden
    · calc (2 : ℚ) ^ ((m.log2 : Int) + e) = 2 ^ (m.log2 : Int) * 2 ^ e := zpow_add₀ two_ne_zero _ _
        _ ≤ m * 2 ^ e := by
            gcongr
            exact two_zpow_log2_le hpos
        _ ≤ num / den := hlow
    · have hsucc : (m : ℚ) + 1 ≤ 2 ^ ((m.log2 : Int) + 1) := by
        have hlt : m + 1 ≤ 2 ^ (m.log2 + 1) := Nat.lt_log2_self
        rw [← Nat.cast_one (R := Int), ← Nat.cast_add, zpow_natCast]
        exact_mod_cast hlt
      calc (num / den : ℚ) < (m + 1) * 2 ^ e := hhigh
        _ ≤ 2 ^ ((m.log2 : Int) + 1) * 2 ^ e := by gcongr
        _ = 2 ^ ((m.log2 : Int) + e + 1) := by
            rw [← zpow_add₀ two_ne_zero]
            congr 1
            omega
  rw [horder]

theorem shiftToTargetExponent_of_lt {m : Nat} (hm : m < 2 ^ 53) {q : Int} (hq : -1074 ≤ q) :
    shiftToTargetExponent binary64 m q .exact = (⟨m, false, false⟩, q) := by
  have hlog : m.log2 ≤ 52 := by
    rcases Nat.eq_zero_or_pos m with rfl | hpos
    · simp
    · have hlt := (Nat.log2_lt (Nat.ne_of_gt hpos)).2 hm
      omega
  have hshift : (max ((m.log2 : Int) + q - 52) (-1074) - q).toNat = 0 := by omega
  unfold shiftToTargetExponent shiftToExponent
  rw [targetExponent_totalExponent]
  dsimp only
  rw [hshift]
  simp [HShiftRight.hShiftRight, Nat.repeat, ExtendedMantissa.ofMantissaAndAccuracy]

theorem shiftToTargetExponent_carry {q : Int} (hq : -1074 ≤ q) :
    shiftToTargetExponent binary64 (2 ^ 53) q .exact = (⟨2 ^ 52, false, false⟩, q + 1) := by
  have hshift : (max (((2 ^ 53 : Nat).log2 : Int) + q - 52) (-1074) - q).toNat = 1 := by
    rw [Nat.log2_two_pow]
    omega
  unfold shiftToTargetExponent shiftToExponent
  rw [targetExponent_totalExponent]
  dsimp only
  rw [hshift]
  rfl

/-- The second shift of rounding only carries a mantissa that was rounded up to a power of two. -/
theorem roundWithAccuracy_eq (sign : UnpackedFloat.Sign) {m rounded : Nat} {e q : Int}
    {acc : Accuracy} {em : ExtendedMantissa}
    (hshift : shiftToTargetExponent binary64 m e acc = (em, q))
    (hrounded : em.roundedMantissa = rounded) (hle : rounded ≤ 2 ^ 53) (hq : -1074 ≤ q) :
    roundWithAccuracy binary64 sign m e acc =
      if hzero : rounded = 0 then .zero sign
      else if rounded < 2 ^ 53 then .finite sign rounded q (Nat.pos_of_ne_zero hzero)
      else .finite sign (2 ^ 52) (q + 1) (Nat.two_pow_pos 52) := by
  unfold roundWithAccuracy
  rw [hshift]
  dsimp only
  rw [hrounded]
  rcases hle.lt_or_eq with hlt | rfl
  · rw [shiftToTargetExponent_of_lt hlt hq]
    simp only [hlt, if_true]
  · rw [shiftToTargetExponent_carry hq]
    rfl

theorem ofModel_pack_rounded (negative : Bool) {rounded : Nat} {q : Int} (hle : rounded ≤ 2 ^ 53)
    (hq : -1074 ≤ q) (hnormal : 2 ^ 52 ≤ rounded ∨ q = -1074) :
    Float.ofModel (.pack
      (if hzero : rounded = 0 then .zero (signOf negative)
      else if rounded < 2 ^ 53 then .finite (signOf negative) rounded q (Nat.pos_of_ne_zero hzero)
      else .finite (signOf negative) (2 ^ 52) (q + 1) (Nat.two_pow_pos 52))) =
      ofMagnitude negative (min (Dyadic.toBits ⟨rounded, q⟩) infinityBits) := by
  by_cases hzero : rounded = 0
  · have hbits : Dyadic.toBits ⟨rounded, q⟩ = 0 := by
      unfold Dyadic.toBits hiddenBit
      dsimp only
      omega
    rw [dif_pos hzero, ofModel_pack_zero, hbits, Nat.zero_min]
  rw [dif_neg hzero]
  by_cases hlt : rounded < 2 ^ 53
  · rw [if_pos hlt]
    exact ofModel_pack_finite negative (d := ⟨rounded, q⟩)
      ⟨Nat.pos_of_ne_zero hzero, hlt, hq, hnormal⟩
  · have hbits : Dyadic.toBits ⟨rounded, q⟩ = Dyadic.toBits ⟨2 ^ 52, q + 1⟩ := by
      unfold Dyadic.toBits hiddenBit
      dsimp only
      omega
    rw [if_neg hlt, hbits]
    exact ofModel_pack_finite negative (d := ⟨2 ^ 52, q + 1⟩)
      ⟨by norm_num, by norm_num, by dsimp only; omega, Or.inl le_rfl⟩

theorem floor_mul_two_zpow_bounds (a : Nat) {b : Nat} (hb : 0 < b) (e : Int) :
    ((a / b : Nat) : ℚ) * 2 ^ e ≤ a / b * 2 ^ e ∧
    (a / b * 2 ^ e : ℚ) < ((a / b : Nat) + 1) * 2 ^ e := by
  have hpow : (0 : ℚ) < 2 ^ e := zpow_pos two_pos e
  have hbQ : (0 : ℚ) < b := by exact_mod_cast hb
  constructor
  · gcongr
    rw [le_div_iff₀ hbQ]
    exact_mod_cast Nat.div_mul_le_self a b
  · gcongr
    rw [div_lt_iff₀ hbQ, mul_comm]
    exact_mod_cast Nat.lt_mul_div_succ a hb

/-- A mantissa with residual bits is rounded to the double nearest to what it stands for, as long as
its exponent does not exceed the one that it is rounded to. -/
theorem ofModel_pack_roundWithAccuracy (negative : Bool) {m : Nat} {e : Int}
    (hm : 0 < m ∨ e ≤ -1074) {acc : Accuracy} {a b : Nat} (ha : 0 < a) (hb : 0 < b)
    (hrepresents : Represents (ExtendedMantissa.ofMantissaAndAccuracy m acc) a b)
    {num den : Nat} (hden : 0 < den) (hvalue : (num / den : ℚ) = a / b * 2 ^ e)
    (he : e ≤ quantum num den) :
    Float.ofModel (.pack (roundWithAccuracy binary64 (signOf negative) m e acc)) =
      ofMagnitude negative (nearest num den) := by
  have haQ : (0 : ℚ) < a := by exact_mod_cast ha
  have hbQ : (0 : ℚ) < b := by exact_mod_cast hb
  have hfloor : m = a / b := by
    rw [← hrepresents.mantissa, mantissa_ofMantissaAndAccuracy]
  obtain ⟨hlow, hhigh⟩ := floor_mul_two_zpow_bounds a hb e
  rw [← hvalue, ← hfloor] at hlow hhigh
  have hnum : 0 < num := by
    apply pos_of_div_pos hden
    rw [hvalue]
    positivity
  have hsmallest : -1074 ≤ quantum num den := le_max_right _ _
  have hshift : shiftToTargetExponent binary64 m e acc =
      (ExtendedMantissa.ofMantissaAndAccuracy m acc >>> (quantum num den - e).toNat,
        quantum num den) := by
    unfold shiftToTargetExponent shiftToExponent
    rw [targetExponent_eq_quantum hnum hden hm hlow hhigh]
    dsimp only
    rw [Int.toNat_of_nonneg (by omega), add_sub_cancel]
  have hrounded : (ExtendedMantissa.ofMantissaAndAccuracy m acc >>>
      (quantum num den - e).toNat).roundedMantissa = nearestMantissa num den := by
    rw [(hrepresents.shiftRight hb _).roundedMantissa, nearestMantissa]
    apply roundHalfEven_congr (Nat.mul_pos hb (Nat.two_pow_pos _)) (shiftLeft_pos hden _)
    rw [shiftLeft_div_shiftLeft, hvalue]
    push_cast
    rw [← zpow_natCast, Int.toNat_of_nonneg (by omega), zpow_sub₀ two_ne_zero]
    field_simp
  rw [roundWithAccuracy_eq _ hshift hrounded (nearestMantissa_le hnum hden) hsmallest,
    ofModel_pack_rounded negative (nearestMantissa_le hnum hden) hsmallest
      (nearestMantissa_normal hnum hden), nearest_eq hnum]

/-- A mantissa without residual bits is rounded to the double nearest to its value. -/
theorem ofModel_pack_round (negative : Bool) {m : Nat} (hm : 0 < m) {e : Int} {num den : Nat}
    (hden : 0 < den) (hvalue : (num / den : ℚ) = m * 2 ^ e) :
    Float.ofModel (.pack (UnpackedFloat.round binary64 (signOf negative) m e)) =
      ofMagnitude negative (nearest num den) := by
  have hmQ : (0 : ℚ) < m := by exact_mod_cast hm
  have hpow : (0 : ℚ) < 2 ^ e := zpow_pos two_pos e
  have hnum : 0 < num := by
    apply pos_of_div_pos hden
    rw [hvalue]
    exact mul_pos hmQ hpow
  have htarget : binary64.targetExponent (totalExponent m e) = quantum num den := by
    apply targetExponent_eq_quantum hnum hden (Or.inl hm)
    · exact hvalue.ge
    · rw [hvalue]
      gcongr
      exact lt_add_one _
  unfold UnpackedFloat.round UnpackedFloat.decreaseExponent
  dsimp only
  rw [htarget]
  have hshift := shiftLeft_pos hm (e - quantum num den).toNat
  refine ofModel_pack_roundWithAccuracy negative (Or.inl hshift) hshift Nat.one_pos
    (represents_exact _) hden ?_ ?_
  · rw [hvalue, Nat.shiftLeft_eq, zpow_sub₀ two_ne_zero, zpow_natCast]
    push_cast
    field_simp
  · omega

/-! ### Division and multiplication -/

theorem signOf_div_signOf (a b : Bool) : signOf a / signOf b = signOf (a ^^ b) := by
  cases a <;> cases b <;> rfl

theorem signOf_mul_signOf (a b : Bool) : signOf a * signOf b = signOf (a ^^ b) := by
  cases a <;> cases b <;> rfl

theorem div_eq_pack (x y : Float) : x / y =
    Float.ofModel (.pack (UnpackedFloat.div binary64 x.toModel.unpack y.toModel.unpack)) := rfl

theorem mul_eq_pack (x y : Float) : x * y =
    Float.ofModel (.pack (UnpackedFloat.mul binary64 x.toModel.unpack y.toModel.unpack)) := rfl

/-- A quotient of values is at least half the quotient of the powers of two below them. -/
theorem totalExponent_sub_le_binaryOrder {c d : Dyadic} (hc : 0 < c.mantissa) (hd : 0 < d.mantissa)
    {num den : Nat} (hnum : 0 < num) (hden : 0 < den)
    (hvalue : (num / den : ℚ) = c.value / d.value) :
    (c.mantissa.log2 : Int) + c.exponent - (d.mantissa.log2 + d.exponent) - 1 ≤
      binaryOrder num den := by
  have hdpos : (0 : ℚ) < d.mantissa := by exact_mod_cast hd
  apply le_binaryOrder hnum hden
  rw [hvalue, Dyadic.value, Dyadic.value, le_div_iff₀ (mul_pos hdpos (zpow_pos two_pos _))]
  calc (2 : ℚ) ^ ((c.mantissa.log2 : Int) + c.exponent - (d.mantissa.log2 + d.exponent) - 1) *
        (d.mantissa * 2 ^ d.exponent)
      ≤ 2 ^ ((c.mantissa.log2 : Int) + c.exponent - (d.mantissa.log2 + d.exponent) - 1) *
        (2 ^ ((d.mantissa.log2 : Int) + 1) * 2 ^ d.exponent) := by
        gcongr
        exact (lt_two_zpow_log2_add_one _).le
    _ = 2 ^ (c.mantissa.log2 : Int) * 2 ^ c.exponent := by
        rw [← zpow_add₀ two_ne_zero, ← zpow_add₀ two_ne_zero, ← zpow_add₀ two_ne_zero]
        congr 1
        omega
    _ ≤ c.mantissa * 2 ^ c.exponent := by
        gcongr
        exact two_zpow_log2_le hc

def quotientExponent (c d : Dyadic) : Int :=
  min (c.exponent - d.exponent)
    (binary64.targetExponent
      (totalExponent c.mantissa c.exponent - totalExponent d.mantissa d.exponent))

theorem quotientExponent_le {c d : Dyadic} (hc : 0 < c.mantissa) (hd : 0 < d.mantissa)
    {num den : Nat} (hnum : 0 < num) (hden : 0 < den)
    (hvalue : (num / den : ℚ) = c.value / d.value) :
    quotientExponent c d ≤ quantum num den ∧ quotientExponent c d ≤ c.exponent - d.exponent := by
  have horder := totalExponent_sub_le_binaryOrder hc hd hnum hden hvalue
  have hbits : (binary64.mantissaBits : Int) = 53 := rfl
  have hsmallest : binary64.minExponent = -1074 := rfl
  unfold quotientExponent quantum Float.Model.Format.targetExponent totalExponent
  rw [hbits, hsmallest]
  omega

/-- The dividend is widened until its quotient has the exponent asked for. -/
theorem value_div_value (c d : Dyadic) {t : Int} (ht : t ≤ c.exponent - d.exponent) :
    c.value / d.value =
      (c.mantissa <<< (c.exponent - d.exponent - t).toNat : Nat) / d.mantissa * 2 ^ t := by
  rw [Dyadic.value, Dyadic.value, Nat.shiftLeft_eq]
  push_cast
  rw [← zpow_natCast, Int.toNat_of_nonneg (by omega), zpow_sub₀ two_ne_zero, zpow_sub₀ two_ne_zero]
  field_simp

section

variable {x y : Float} (hx : 0 < magnitude x) (hx' : magnitude x < infinityBits)
  (hy : 0 < magnitude y) (hy' : magnitude y < infinityBits)

include hx hx' hy hy'

/-- The quotient of two doubles is the double nearest to the quotient of their values. -/
theorem div_eq_ofMagnitude {num den : Nat} (hden : 0 < den)
    (hvalue : (num / den : ℚ) = absValue x / absValue y) :
    x / y = ofMagnitude (isNegative x ^^ isNegative y) (nearest num den) := by
  rw [div_eq_pack, unpack_toModel_finite hx hx', unpack_toModel_finite hy hy', UnpackedFloat.div,
    signOf_div_signOf]
  have hc := Dyadic.isCanonical_ofBits hx
  have hd := Dyadic.isCanonical_ofBits hy
  unfold absValue at hvalue
  generalize Dyadic.ofBits (magnitude x) = c at hc hvalue
  generalize Dyadic.ofBits (magnitude y) = d at hd hvalue
  have hnum : 0 < num := by
    apply pos_of_div_pos hden
    rw [hvalue]
    exact div_pos (Dyadic.value_pos hc) (Dyadic.value_pos hd)
  obtain ⟨hquantum, hexponent⟩ := quotientExponent_le hc.pos hd.pos hnum hden hvalue
  have hquotient := hvalue.trans (value_div_value c d hexponent)
  have hdividend := shiftLeft_pos hc.pos (c.exponent - d.exponent - quotientExponent c d).toNat
  refine ofModel_pack_roundWithAccuracy _ ?_ hdividend hd.pos
    (represents_accuracyOfFraction _ _ hd.pos) hden hquotient hquantum
  by_cases hsmall : quotientExponent c d ≤ -1074
  · exact Or.inr hsmall
  · -- Above the smallest exponent the quotient has a mantissa.
    have hle : (2 : ℚ) ^ quotientExponent c d ≤ num / den := by
      unfold quantum at hquantum
      calc (2 : ℚ) ^ quotientExponent c d ≤ 2 ^ binaryOrder num den :=
            zpow_le_zpow_right₀ one_le_two (by omega)
        _ ≤ num / den := (binaryOrder_spec hnum hden).1
    have hdQ : (0 : ℚ) < d.mantissa := by exact_mod_cast hd.pos
    rw [hquotient, le_mul_iff_one_le_left (zpow_pos two_pos _), one_le_div hdQ] at hle
    exact Or.inl (Nat.div_pos (by exact_mod_cast hle) hd.pos)

/-- The product of two doubles is the double nearest to the product of their values. -/
theorem mul_eq_ofMagnitude {num den : Nat} (hden : 0 < den)
    (hvalue : (num / den : ℚ) = absValue x * absValue y) :
    x * y = ofMagnitude (isNegative x ^^ isNegative y) (nearest num den) := by
  rw [mul_eq_pack, unpack_toModel_finite hx hx', unpack_toModel_finite hy hy', UnpackedFloat.mul,
    signOf_mul_signOf]
  have hc := Dyadic.isCanonical_ofBits hx
  have hd := Dyadic.isCanonical_ofBits hy
  unfold absValue at hvalue
  generalize Dyadic.ofBits (magnitude x) = c at hc hvalue
  generalize Dyadic.ofBits (magnitude y) = d at hd hvalue
  have hnum : 0 < num := by
    apply pos_of_div_pos hden
    rw [hvalue]
    exact mul_pos (Dyadic.value_pos hc) (Dyadic.value_pos hd)
  have hpos : 0 < c.mantissa * d.mantissa := Nat.mul_pos hc.pos hd.pos
  have hquotient : (num / den : ℚ) =
      (c.mantissa * d.mantissa : Nat) / (1 : Nat) * 2 ^ (c.exponent + d.exponent) := by
    rw [hvalue, Dyadic.value, Dyadic.value, zpow_add₀ two_ne_zero]
    push_cast
    ring
  refine ofModel_pack_roundWithAccuracy _ (Or.inl hpos) hpos Nat.one_pos
    (represents_exact _) hden hquotient ?_
  -- One of the mantissas is normal, or both numbers are subnormal.
  by_cases hnormal : 2 ^ 52 ≤ c.mantissa * d.mantissa
  · have horder : 52 + (c.exponent + d.exponent) ≤ binaryOrder num den := by
      apply le_binaryOrder hnum hden
      rw [hquotient, Nat.cast_one, div_one, zpow_add₀ two_ne_zero]
      gcongr
      exact_mod_cast hnormal
    unfold quantum
    omega
  · have hc' := hc.normal
    have hd' := hd.normal
    have hleft := Nat.le_mul_of_pos_right c.mantissa hd.pos
    have hright := Nat.le_mul_of_pos_left d.mantissa hc.pos
    unfold quantum
    omega

end

/-! ### Natural numbers -/

theorem binaryOrder_one {n : Nat} (hn : 0 < n) : binaryOrder n 1 = n.log2 := by
  apply binaryOrder_eq hn Nat.one_pos
  · simpa using two_zpow_log2_le hn
  · simpa using lt_two_zpow_log2_add_one n

/-- The integer is widened to the exponent of its binade before it is rounded. -/
theorem toFloat_eq_ofMagnitude (n : UInt64) :
    n.toFloat = ofMagnitude false (nearest n.toNat 1) := by
  have hunfold : n.toFloat = Float.ofModel (.pack (UnpackedFloat.ofInt binary64 n.toNat)) := rfl
  rw [hunfold]
  generalize n.toNat = n
  unfold UnpackedFloat.ofInt UnpackedFloat.normalize
  rcases Nat.eq_zero_or_pos n with rfl | hpos
  · exact ofModel_pack_zero false
  have hcompare : compare (n : Int) 0 = .gt := by
    rw [Int.compare_eq_gt]
    exact_mod_cast hpos
  rw [hcompare]
  dsimp only
  rw [Int.toNat_natCast]
  refine ofModel_pack_round false hpos Nat.one_pos ?_
  rw [Nat.cast_one, div_one, zpow_zero, mul_one]

section

variable {n : Nat} (hn : 0 < n) (hlt : n < 2 ^ 53)

include hn hlt

theorem nearest_one_bounds : 0 < nearest n 1 ∧ nearest n 1 < infinityBits := by
  have hfirst : (0 : Nat) < nearest 1 1 := by decide
  have hlast : nearest (2 ^ 53) 1 < infinityBits := by decide
  have hlow : nearest 1 1 ≤ nearest n 1 := by
    apply nearest_mono Nat.one_pos Nat.one_pos
    gcongr
    exact hn
  have hhigh : nearest n 1 ≤ nearest (2 ^ 53) 1 := by
    apply nearest_mono Nat.one_pos Nat.one_pos
    gcongr
  exact ⟨hfirst.trans_le hlow, hhigh.trans_lt hlast⟩

/-- A natural number of at most 53 bits is a double. -/
theorem value_nearest_one : (Dyadic.ofBits (nearest n 1)).value = n := by
  have hlog : n.log2 < 53 := (Nat.log2_lt (Nat.ne_of_gt hn)).2 hlt
  have hquantum : quantum n 1 ≤ 0 := by
    rw [quantum, binaryOrder_one hn]
    omega
  have hden : (quantum n 1).toNat = 0 := by omega
  rw [value_ofBits_nearest hn Nat.one_pos (nearest_one_bounds hn hlt).2, nearestMantissa, hden,
    Nat.shiftLeft_zero, roundHalfEven_one, Nat.shiftLeft_eq]
  push_cast
  rw [← zpow_natCast, Int.toNat_of_nonneg (by omega), mul_assoc, ← zpow_add₀ two_ne_zero,
    neg_add_cancel, zpow_zero, mul_one]

end

theorem absValue_ofMagnitude (negative : Bool) {bits : Nat} (hbits : bits ≤ infinityBits) :
    absValue (ofMagnitude negative bits) = (Dyadic.ofBits bits).value := by
  rw [absValue, magnitude_ofMagnitude negative hbits]

section

variable {a b : Nat} (ha : 0 < a) (ha' : a < infinityBits) (hb : 0 < b) (hb' : b < infinityBits)
  {num den : Nat} (hden : 0 < den) (s t : Bool)

include ha ha' hb hb' hden

/-- Products are rounded once, from the exact product. -/
theorem ofMagnitude_mul
    (hvalue : (num / den : ℚ) = (Dyadic.ofBits a).value * (Dyadic.ofBits b).value) :
    ofMagnitude s a * ofMagnitude t b = ofMagnitude (s ^^ t) (nearest num den) := by
  rw [← absValue_ofMagnitude s ha'.le, ← absValue_ofMagnitude t hb'.le] at hvalue
  rw [mul_eq_ofMagnitude (by rwa [magnitude_ofMagnitude s ha'.le])
    (by rwa [magnitude_ofMagnitude s ha'.le]) (by rwa [magnitude_ofMagnitude t hb'.le])
    (by rwa [magnitude_ofMagnitude t hb'.le]) hden hvalue,
    isNegative_ofMagnitude s ha'.le, isNegative_ofMagnitude t hb'.le]

/-- Quotients are rounded once, from the exact quotient. -/
theorem ofMagnitude_div
    (hvalue : (num / den : ℚ) = (Dyadic.ofBits a).value / (Dyadic.ofBits b).value) :
    ofMagnitude s a / ofMagnitude t b = ofMagnitude (s ^^ t) (nearest num den) := by
  rw [← absValue_ofMagnitude s ha'.le, ← absValue_ofMagnitude t hb'.le] at hvalue
  rw [div_eq_ofMagnitude (by rwa [magnitude_ofMagnitude s ha'.le])
    (by rwa [magnitude_ofMagnitude s ha'.le]) (by rwa [magnitude_ofMagnitude t hb'.le])
    (by rwa [magnitude_ofMagnitude t hb'.le]) hden hvalue,
    isNegative_ofMagnitude s ha'.le, isNegative_ofMagnitude t hb'.le]

end

section

variable {n d : Nat} (hn : 0 < n) (hn' : n < 2 ^ 53) (hd : 0 < d) (hd' : d < 2 ^ 53)

include hn hn' hd hd'

theorem ofMagnitude_mul_ofMagnitude (s t : Bool) :
    ofMagnitude s (nearest n 1) * ofMagnitude t (nearest d 1) =
      ofMagnitude (s ^^ t) (nearest (n * d) 1) := by
  obtain ⟨hx, hx'⟩ := nearest_one_bounds hn hn'
  obtain ⟨hy, hy'⟩ := nearest_one_bounds hd hd'
  apply ofMagnitude_mul hx hx' hy hy' Nat.one_pos
  rw [value_nearest_one hn hn', value_nearest_one hd hd', Nat.cast_one, div_one, Nat.cast_mul]

theorem ofMagnitude_div_ofMagnitude (s t : Bool) :
    ofMagnitude s (nearest n 1) / ofMagnitude t (nearest d 1) =
      ofMagnitude (s ^^ t) (nearest n d) := by
  obtain ⟨hx, hx'⟩ := nearest_one_bounds hn hn'
  obtain ⟨hy, hy'⟩ := nearest_one_bounds hd hd'
  apply ofMagnitude_div hx hx' hy hy' hd
  rw [value_nearest_one hn hn', value_nearest_one hd hd']

end

/-- Numbers that do not fit a mantissa are widened by as many bits before they are rounded. -/
theorem ofModel_pack_ofScientific {n : Nat} (hn : 0 < n) :
    Float.ofModel (.pack (UnpackedFloat.ofScientific binary64 n 0)) =
      ofMagnitude false (nearest n 1) := by
  have hunfold : UnpackedFloat.ofScientific binary64 n 0 =
      roundWithAccuracy binary64 (signOf false) (n <<< 53 * 1) (-53 + 0) .exact := by
    have hlog : ¬ (0 : Int) < -(2 ^ binary64.exponentBits + (n.log2 : Int)) := by
      have hpow : (0 : Int) < 2 ^ binary64.exponentBits := by positivity
      omega
    have hbits : ¬ (0 : Int) > 2 ^ binary64.exponentBits := by decide
    unfold UnpackedFloat.ofScientific
    rw [dif_neg (Nat.ne_of_gt hn), if_neg hbits, if_neg hlog, if_pos le_rfl]
    rfl
  have hshift : 0 < n <<< 53 * 1 := Nat.mul_pos (shiftLeft_pos hn 53) Nat.one_pos
  rw [hunfold]
  refine ofModel_pack_roundWithAccuracy false (Or.inl hshift) hshift Nat.one_pos
    (represents_exact _) Nat.one_pos ?_ ?_
  · rw [Nat.shiftLeft_eq, add_zero]
    push_cast
    rw [zpow_neg]
    field_simp
    norm_cast
  · rw [quantum, binaryOrder_one hn]
    omega

/-- A natural number is rounded to the nearest double. -/
theorem ofNat_eq_ofMagnitude (n : Nat) : Float.ofNat n = ofMagnitude false (nearest n 1) := by
  by_cases hn : n < 2 ^ 53
  · have hfast : Float.ofNat n = n.toUInt64.toFloat * Float.exactlyRepresentablePowersOfTen[0] :=
      dif_pos ⟨hn, by norm_num⟩
    have hone : Float.exactlyRepresentablePowersOfTen[0] = ofMagnitude false (nearest 1 1) := by
      decide
    have htoNat : n.toUInt64.toNat = n := Nat.mod_eq_of_lt (by omega)
    rcases Nat.eq_zero_or_pos n with rfl | hpos
    · decide
    · rw [hfast, toFloat_eq_ofMagnitude, htoNat, hone,
        ofMagnitude_mul_ofMagnitude hpos hn Nat.one_pos (by norm_num), Nat.mul_one, Bool.xor_self]
  · have hslow : Float.ofNat n = Float.ofModel (.pack (UnpackedFloat.ofScientific binary64 n 0)) :=
      dif_neg fun h => hn h.1
    rw [hslow, ofModel_pack_ofScientific (by omega)]

theorem zero_eq_ofMagnitude : (0 : Float) = ofMagnitude false 0 := ofNat_eq_ofMagnitude 0

theorem one_eq_ofMagnitude : (1 : Float) = ofMagnitude false (nearest 1 1) := ofNat_eq_ofMagnitude 1

theorem ofInt_natCast (n : Nat) : Float.ofInt n = Float.ofNat n := rfl

/-- The quotient of two whole numbers is the double nearest to it. -/
theorem ofNat_div_ofNat {n d : Nat} (hn : n < 2 ^ 53) (hd : 0 < d) (hd' : d < 2 ^ 53) :
    Float.ofNat n / Float.ofNat d = ofMagnitude false (nearest n d) := by
  rw [ofNat_eq_ofMagnitude, ofNat_eq_ofMagnitude]
  rcases Nat.eq_zero_or_pos n with rfl | hpos
  · have hdividend : (ofMagnitude false (nearest 0 1)).toModel.unpack = .zero (signOf false) := by
      rfl
    obtain ⟨hy, hy'⟩ := nearest_one_bounds hd hd'
    have hdivisor := unpack_toModel_finite (x := ofMagnitude false (nearest d 1))
      (by rwa [magnitude_ofMagnitude false hy'.le]) (by rwa [magnitude_ofMagnitude false hy'.le])
    rw [div_eq_pack, hdividend, hdivisor, UnpackedFloat.div, signOf_div_signOf,
      isNegative_ofMagnitude false hy'.le, ofModel_pack_zero]
    rfl
  · exact ofMagnitude_div_ofMagnitude hpos hn hd hd' false false

end FormExpr.Binary64
