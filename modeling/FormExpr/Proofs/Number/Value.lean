import FormExpr.Proofs.Number.Rounding

/-!
# The values of doubles

A finite double has an exact value, a fraction whose denominator is a power of two. Values go up
with the bits of a magnitude, so finite doubles are compared as their values are.
-/

namespace FormExpr.Binary64

def value (x : Float) : ℚ :=
  (fraction x).1 / (fraction x).2

theorem value_eq (x : Float) : value x = if isNegative x then -absValue x else absValue x := by
  unfold value fraction absValue
  dsimp only
  rw [Dyadic.value_eq_div]
  split_ifs
  · push_cast
    rw [neg_div]
  · rfl

/-! ### Magnitudes -/

theorem Dyadic.mantissa_ofBits_lt (bits : Nat) : (ofBits bits).mantissa < 2 ^ 53 := by
  unfold ofBits hiddenBit
  split <;> dsimp only <;> omega

theorem Dyadic.value_nonneg (d : Dyadic) : 0 ≤ d.value :=
  mul_nonneg (Nat.cast_nonneg _) (zpow_nonneg two_pos.le _)

theorem Dyadic.value_ofBits_zero : (ofBits 0).value = 0 := by
  rw [value, ofBits, if_pos (by decide), Nat.cast_zero, zero_mul]

/-- Below a larger exponent every mantissa is worth less. -/
theorem Dyadic.value_ofBits_lt {a b : Nat} (hab : a < b) :
    (ofBits a).value < (ofBits b).value := by
  have ha := mantissa_ofBits_lt a
  have hb := isCanonical_ofBits (Nat.zero_lt_of_lt hab)
  unfold value
  rcases ofBits_lex hab with hexponent | ⟨hexponent, hmantissa⟩
  · have hsmallest : -1074 ≤ (ofBits a).exponent := by
      unfold ofBits hiddenBit
      split <;> dsimp only <;> omega
    have hnormal : 2 ^ 52 ≤ (ofBits b).mantissa := hb.normal.resolve_right (by omega)
    calc ((ofBits a).mantissa : ℚ) * 2 ^ (ofBits a).exponent
        < 2 ^ (53 : Int) * 2 ^ (ofBits a).exponent := by
          gcongr
          exact_mod_cast ha
      _ = 2 ^ (53 + (ofBits a).exponent) := (zpow_add₀ two_ne_zero _ _).symm
      _ ≤ 2 ^ (52 + (ofBits b).exponent) := zpow_le_zpow_right₀ one_le_two (by omega)
      _ = 2 ^ (52 : Int) * 2 ^ (ofBits b).exponent := zpow_add₀ two_ne_zero _ _
      _ ≤ (ofBits b).mantissa * 2 ^ (ofBits b).exponent := by
          gcongr
          exact_mod_cast hnormal
  · rw [hexponent]
    gcongr

/-! ### Places -/

def valueAt (place : Int) : ℚ :=
  if place < 0 then -(Dyadic.ofBits place.natAbs).value else (Dyadic.ofBits place.natAbs).value

theorem value_eq_valueAt (x : Float) : value x = valueAt (place x) := by
  rw [value_eq, valueAt, place, absValue]
  cases isNegative x with
  | false => simp
  | true =>
    rcases Nat.eq_zero_or_pos (magnitude x) with hzero | hpos
    · simp [hzero, Dyadic.value_ofBits_zero]
    · simp [hpos]

/-- Values go up with the places. -/
theorem strictMono_valueAt : StrictMono valueAt := by
  intro a b hab
  unfold valueAt
  split_ifs with ha hb hb
  · exact neg_lt_neg (Dyadic.value_ofBits_lt (by omega))
  · -- Zero lies between the two.
    have hpos := Dyadic.value_ofBits_lt (show 0 < a.natAbs by omega)
    have hnonneg := (Dyadic.ofBits b.natAbs).value_nonneg
    rw [Dyadic.value_ofBits_zero] at hpos
    linarith
  · omega
  · exact Dyadic.value_ofBits_lt (by omega)

/-- Finite doubles are ordered as their values. -/
theorem le_iff_value_le {x y : Float} (hx : x.isFinite = true) (hy : y.isFinite = true) :
    x ≤ y ↔ value x ≤ value y := by
  rw [isFinite_eq, decide_eq_true_iff] at hx hy
  rw [le_iff_place_le hx.le hy.le, value_eq_valueAt, value_eq_valueAt, strictMono_valueAt.le_iff_le]

/-! ### Integers -/

def IsInteger (x : Float) (n : Int) : Prop :=
  x.isFinite = true ∧ value x = n

theorem isInteger_iff {x : Float} {n : Int} :
    IsInteger x n ↔ x.isFinite = true ∧ (fraction x).1 = n * (fraction x).2 := by
  have hden : ((fraction x).2 : ℚ) ≠ 0 := by exact_mod_cast (Dyadic.den_pos _).ne'
  rw [IsInteger, value, div_eq_iff hden]
  norm_cast

instance (x : Float) (n : Int) : Decidable (IsInteger x n) :=
  decidable_of_iff' _ isInteger_iff

theorem isInteger_zero : IsInteger 0 0 := by decide

theorem isInteger_one : IsInteger 1 1 := by decide

namespace IsInteger

variable {x : Float} {n : Int}

/-- Integers are ordered as doubles as they are themselves. -/
theorem le_iff {y : Float} {m : Int} (h : IsInteger x n) (h' : IsInteger y m) : x ≤ y ↔ n ≤ m := by
  rw [le_iff_value_le h.1 h'.1, h.2, h'.2]
  exact Int.cast_le

theorem nonneg_iff (h : IsInteger x n) : x ≥ 0 ↔ 0 ≤ n :=
  isInteger_zero.le_iff h

theorem truncInt_eq (h : IsInteger x n) : truncInt x = n := by
  have htrunc : truncInt x = (fraction x).1.tdiv (fraction x).2 := rfl
  have hden : ((fraction x).2 : Int) ≠ 0 := by exact_mod_cast (Dyadic.den_pos _).ne'
  rw [htrunc, (isInteger_iff.1 h).2, Int.mul_tdiv_cancel _ hden]

/-- An index is the integer itself, up to the last that a machine word holds. -/
theorem toIndex_eq (h : IsInteger x n) : toIndex x = min n.toNat (2 ^ 64 - 1) := by
  have hfinite := h.1
  rw [isFinite_eq, decide_eq_true_iff] at hfinite
  unfold toIndex
  rw [isNaN_eq, isInf_eq, decide_eq_false hfinite.le.not_gt, decide_eq_false hfinite.ne, Bool.false_or,
    h.truncInt_eq]
  cases hnegative : isNegative x with
  | false => rfl
  | true =>
    have hvalue := h.2
    rw [value_eq, if_pos hnegative, absValue] at hvalue
    have habs := (Dyadic.ofBits (magnitude x)).value_nonneg
    have hle : (n : ℚ) ≤ 0 := by linarith
    have hzero : n.toNat = 0 := Int.toNat_of_nonpos (by exact_mod_cast hle)
    rw [hzero]
    rfl

end IsInteger

end FormExpr.Binary64
