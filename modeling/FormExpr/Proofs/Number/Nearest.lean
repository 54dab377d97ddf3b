import FormExpr.Number.Binary64
import Mathlib.Algebra.Order.Field.Power
import Mathlib.Data.Nat.Log
import Mathlib.Data.Rat.Cast.Order
import Mathlib.Tactic.FieldSimp
import Mathlib.Tactic.GCongr
import Mathlib.Tactic.Linarith
import Mathlib.Tactic.Positivity
import Mathlib.Tactic.Ring

/-!
# The double nearest to a quotient

The bits of the double nearest to a quotient depend on the quotient alone and go up with it. The
reason is that inside a binade rounding to an integer does so, and that a mantissa stays between the
ends of its binade, where the bits of one binade meet those of the next.
-/

namespace FormExpr.Binary64

/-! ### Rounding to an integer -/

theorem roundHalfEven_mul_right {k : Nat} (hk : 0 < k) (num den : Nat) :
    roundHalfEven (num * k) (den * k) = roundHalfEven num den := by
  have hlt : ∀ a b : Nat, 2 * (a * k) < b * k ↔ 2 * a < b := by
    intro a b
    rw [← Nat.mul_assoc]
    exact Nat.mul_lt_mul_right hk
  have hgt : ∀ a b : Nat, b * k < 2 * (a * k) ↔ b < 2 * a := by
    intro a b
    rw [← Nat.mul_assoc]
    exact Nat.mul_lt_mul_right hk
  simp only [roundHalfEven, Nat.mul_div_mul_right num den hk, Nat.mul_mod_mul_right, hlt, hgt]

theorem roundHalfEven_le_roundHalfEven_of_le {a b : Nat} (den : Nat) (hab : a ≤ b) :
    roundHalfEven a den ≤ roundHalfEven b den := by
  have hfloor : a / den ≤ b / den := Nat.div_le_div_right hab
  have ha := Nat.div_add_mod a den
  have hb := Nat.div_add_mod b den
  simp only [roundHalfEven]
  by_cases hsame : a / den = b / den
  · rw [hsame] at ha ⊢
    have hrest : a % den ≤ b % den := by omega
    split_ifs <;> omega
  · have hup : a / den + 1 ≤ b / den := by omega
    split_ifs <;> omega

theorem roundHalfEven_mono {num den num' den' : Nat} (hden : 0 < den) (hden' : 0 < den')
    (hle : (num / den : ℚ) ≤ num' / den') : roundHalfEven num den ≤ roundHalfEven num' den' := by
  have hcross : num * den' ≤ num' * den := by
    rw [div_le_div_iff₀ (by exact_mod_cast hden) (by exact_mod_cast hden')] at hle
    exact_mod_cast hle
  rw [← roundHalfEven_mul_right hden' num den, ← roundHalfEven_mul_right hden num' den',
    Nat.mul_comm den' den]
  exact roundHalfEven_le_roundHalfEven_of_le (den * den') hcross

theorem roundHalfEven_one (n : Nat) : roundHalfEven n 1 = n := by
  simp [roundHalfEven, Nat.mod_one]

theorem roundHalfEven_le {num den n : Nat} (hden : 0 < den) (hle : (num / den : ℚ) ≤ n) :
    roundHalfEven num den ≤ n := by
  rw [← roundHalfEven_one n]
  exact roundHalfEven_mono hden Nat.one_pos (by simpa using hle)

theorem le_roundHalfEven {num den n : Nat} (hden : 0 < den) (hle : (n : ℚ) ≤ num / den) :
    n ≤ roundHalfEven num den := by
  rw [← roundHalfEven_one n]
  exact roundHalfEven_mono Nat.one_pos hden (by simpa using hle)

/-! ### The binade of a quotient -/

/-- Shifting either side of a quotient divides it by a power of two. -/
theorem shiftLeft_div_shiftLeft (num den : Nat) (q : Int) :
    ((num <<< (-q).toNat : Nat) : ℚ) / (den <<< q.toNat : Nat) = num / den / 2 ^ q := by
  obtain ⟨n, rfl | rfl⟩ := q.eq_nat_or_neg
  · have hleft : (-(n : Int)).toNat = 0 := by omega
    have hright : (n : Int).toNat = n := by omega
    rw [hleft, hright, Nat.shiftLeft_zero, Nat.shiftLeft_eq, zpow_natCast]
    push_cast
    rw [div_div]
  · have hleft : (-(-(n : Int))).toNat = n := by omega
    have hright : (-(n : Int)).toNat = 0 := by omega
    rw [hleft, hright, Nat.shiftLeft_zero, Nat.shiftLeft_eq, zpow_neg, zpow_natCast]
    push_cast
    rw [div_inv_eq_mul]
    ring

theorem two_zpow_log2_le {n : Nat} (hn : 0 < n) : (2 : ℚ) ^ (n.log2 : Int) ≤ n := by
  rw [zpow_natCast]
  exact_mod_cast Nat.log2_self_le (Nat.ne_of_gt hn)

theorem lt_two_zpow_log2_add_one (n : Nat) : (n : ℚ) < 2 ^ ((n.log2 : Int) + 1) := by
  have hlt : n < 2 ^ (n.log2 + 1) := Nat.lt_log2_self
  rw [← Nat.cast_one (R := Int), ← Nat.cast_add, zpow_natCast]
  exact_mod_cast hlt

/-- The quotient lies in the binade that its binary order names. -/
theorem binaryOrder_spec {num den : Nat} (hnum : 0 < num) (hden : 0 < den) :
    (2 : ℚ) ^ binaryOrder num den ≤ num / den ∧
    (num / den : ℚ) < 2 ^ (binaryOrder num den + 1) := by
  have htwo : (2 : ℚ) ≠ 0 := two_ne_zero
  have hdenQ : (0 : ℚ) < den := by exact_mod_cast hden
  set k : Int := (num.log2 : Int) - den.log2 with hk
  have hlow : (2 : ℚ) ^ (k - 1) ≤ num / den := by
    rw [le_div_iff₀ hdenQ]
    calc (2 : ℚ) ^ (k - 1) * den
        ≤ 2 ^ (k - 1) * 2 ^ ((den.log2 : Int) + 1) := by
          gcongr
          exact (lt_two_zpow_log2_add_one den).le
      _ = 2 ^ (num.log2 : Int) := by
          rw [← zpow_add₀ htwo]
          congr 1
          omega
      _ ≤ num := two_zpow_log2_le hnum
  have hhigh : (num / den : ℚ) < 2 ^ (k + 1) := by
    rw [div_lt_iff₀ hdenQ]
    calc (num : ℚ) < 2 ^ ((num.log2 : Int) + 1) := lt_two_zpow_log2_add_one num
      _ = 2 ^ (k + 1) * 2 ^ (den.log2 : Int) := by
          rw [← zpow_add₀ htwo]
          congr 1
          omega
      _ ≤ 2 ^ (k + 1) * den := by
          gcongr
          exact two_zpow_log2_le hden
  have hguard : den <<< k.toNat ≤ num <<< (-k).toNat ↔ (2 : ℚ) ^ k ≤ num / den := by
    have hshift : (0 : ℚ) < (den <<< k.toNat : Nat) := by
      rw [Nat.shiftLeft_eq]
      exact_mod_cast Nat.mul_pos hden (Nat.two_pow_pos _)
    rw [← one_le_div (zpow_pos (by norm_num) k : (0 : ℚ) < 2 ^ k), ← shiftLeft_div_shiftLeft,
      one_le_div hshift]
    exact_mod_cast Iff.rfl
  rw [binaryOrder]
  by_cases hle : (2 : ℚ) ^ k ≤ num / den
  · rw [if_pos (hguard.2 hle)]
    exact ⟨hle, hhigh⟩
  · rw [if_neg (mt hguard.1 hle), sub_add_cancel]
    exact ⟨hlow, not_le.1 hle⟩

theorem two_zpow_lt_two_zpow_iff {a b : Int} : (2 : ℚ) ^ a < 2 ^ b ↔ a < b :=
  zpow_lt_zpow_iff_right₀ one_lt_two

/-- Only one binade holds a quotient. -/
theorem binaryOrder_eq {num den : Nat} (hnum : 0 < num) (hden : 0 < den) {k : Int}
    (hlow : (2 : ℚ) ^ k ≤ num / den) (hhigh : (num / den : ℚ) < 2 ^ (k + 1)) :
    binaryOrder num den = k := by
  obtain ⟨hlow', hhigh'⟩ := binaryOrder_spec hnum hden
  have hup := two_zpow_lt_two_zpow_iff.1 (hlow.trans_lt hhigh')
  have hdown := two_zpow_lt_two_zpow_iff.1 (hlow'.trans_lt hhigh)
  omega

theorem binaryOrder_mono {num den num' den' : Nat} (hnum : 0 < num) (hden : 0 < den)
    (hnum' : 0 < num') (hden' : 0 < den') (hle : (num / den : ℚ) ≤ num' / den') :
    binaryOrder num den ≤ binaryOrder num' den' := by
  have hlow := (binaryOrder_spec hnum hden).1
  have hhigh := (binaryOrder_spec hnum' hden').2
  have hlt := two_zpow_lt_two_zpow_iff.1 ((hlow.trans hle).trans_lt hhigh)
  omega

/-! ### The nearest double -/

/-- The exponent of the mantissa that the double nearest to a quotient has. -/
def quantum (num den : Nat) : Int :=
  max (binaryOrder num den - 52) (-1074)

def nearestMantissa (num den : Nat) : Nat :=
  roundHalfEven (num <<< (-quantum num den).toNat) (den <<< (quantum num den).toNat)

theorem nearest_eq {num : Nat} (hnum : 0 < num) (den : Nat) :
    nearest num den =
      min (Dyadic.toBits ⟨nearestMantissa num den, quantum num den⟩) infinityBits := by
  rw [nearest, if_neg (Nat.ne_of_gt hnum)]
  rfl

theorem shiftLeft_pos {n : Nat} (hn : 0 < n) (k : Nat) : 0 < n <<< k := by
  rw [Nat.shiftLeft_eq]
  exact Nat.mul_pos hn (Nat.two_pow_pos k)

theorem nearestMantissa_le {num den : Nat} (hnum : 0 < num) (hden : 0 < den) :
    nearestMantissa num den ≤ 2 ^ 53 := by
  refine roundHalfEven_le (shiftLeft_pos hden _) ?_
  have hpow : (0 : ℚ) < 2 ^ quantum num den := zpow_pos (by norm_num) _
  rw [shiftLeft_div_shiftLeft, div_le_iff₀ hpow]
  have hquantum : binaryOrder num den + 1 ≤ 53 + quantum num den := by
    unfold quantum
    omega
  calc (num / den : ℚ) ≤ 2 ^ (binaryOrder num den + 1) := (binaryOrder_spec hnum hden).2.le
    _ ≤ 2 ^ (53 + quantum num den) := zpow_le_zpow_right₀ one_le_two hquantum
    _ = ((2 ^ 53 : Nat) : ℚ) * 2 ^ quantum num den := by
        rw [zpow_add₀ two_ne_zero]
        norm_num

/-- Above the smallest exponent mantissas are normal. -/
theorem le_nearestMantissa {num den : Nat} (hnum : 0 < num) (hden : 0 < den)
    (hnormal : -1074 < quantum num den) : 2 ^ 52 ≤ nearestMantissa num den := by
  refine le_roundHalfEven (shiftLeft_pos hden _) ?_
  have hpow : (0 : ℚ) < 2 ^ quantum num den := zpow_pos (by norm_num) _
  rw [shiftLeft_div_shiftLeft, le_div_iff₀ hpow]
  have hquantum : 52 + quantum num den = binaryOrder num den := by
    unfold quantum at hnormal ⊢
    omega
  calc ((2 ^ 52 : Nat) : ℚ) * 2 ^ quantum num den = 2 ^ (52 + quantum num den) := by
        rw [zpow_add₀ two_ne_zero]
        norm_num
    _ = 2 ^ binaryOrder num den := by rw [hquantum]
    _ ≤ num / den := (binaryOrder_spec hnum hden).1

/-- The bits of the nearest double go up with the quotient. -/
theorem nearest_mono {num den num' den' : Nat} (hden : 0 < den) (hden' : 0 < den')
    (hle : (num / den : ℚ) ≤ num' / den') : nearest num den ≤ nearest num' den' := by
  rcases Nat.eq_zero_or_pos num with rfl | hnum
  · simp [nearest]
  have hnum' : 0 < num' := by
    have hpos : (0 : ℚ) < num / den := div_pos (by exact_mod_cast hnum) (by exact_mod_cast hden)
    have hpos' := (div_pos_iff_of_pos_right (by exact_mod_cast hden' : (0 : ℚ) < den')).1
      (hpos.trans_le hle)
    exact_mod_cast hpos'
  have horder := binaryOrder_mono hnum hden hnum' hden' hle
  rw [nearest_eq hnum, nearest_eq hnum']
  apply min_le_min_right
  have hsmallest : -1074 ≤ quantum num den := le_max_right _ _
  unfold Dyadic.toBits hiddenBit
  dsimp only
  rcases (show quantum num den ≤ quantum num' den' by unfold quantum; omega).lt_or_eq with hlt | heq
  · -- The mantissas meet at the end of the lower binade.
    have htop := nearestMantissa_le hnum hden
    have hbottom := le_nearestMantissa hnum' hden' (by omega)
    omega
  · have hmantissa : nearestMantissa num den ≤ nearestMantissa num' den' := by
      unfold nearestMantissa
      rw [← heq]
      refine roundHalfEven_mono (shiftLeft_pos hden _) (shiftLeft_pos hden' _) ?_
      rw [shiftLeft_div_shiftLeft, shiftLeft_div_shiftLeft]
      gcongr
    rw [← heq]
    omega

theorem nearest_congr {num den num' den' : Nat} (hden : 0 < den) (hden' : 0 < den')
    (heq : (num / den : ℚ) = num' / den') : nearest num den = nearest num' den' :=
  Nat.le_antisymm (nearest_mono hden hden' heq.le) (nearest_mono hden' hden heq.ge)

theorem nearest_le_infinityBits (num den : Nat) : nearest num den ≤ infinityBits := by
  rw [nearest]
  split
  · exact Nat.zero_le _
  · exact Nat.min_le_right _ _

end FormExpr.Binary64
