import FormExpr.Proofs.Number.Encoding
import Mathlib

/-!
# The order of doubles

The bits of a magnitude order the doubles of one sign, and a double of the other sign lies on the
other side of zero. So a double that is a number has a place among the integers, with both zeros at
the same one, and the comparisons of doubles are the comparisons of their places.
-/

namespace FormExpr.Binary64

open Float.Model (UnpackedFloat)
open Float.Model.Format (binary64)

/-! ### Kinds of doubles -/

theorem unpack_notANumber {b : BitVec 64} (hnan : infinityBits < b.toNat % signBit) :
    UnpackedFloat.unpack binary64 b = .notANumber := by
  unfold signBit infinityBits at hnan
  unfold UnpackedFloat.unpack
  rw [if_pos ((unpackExponent_eq_iff b _).2 (by simp; omega)),
    if_neg (mt (unpackMantissa_eq_zero_iff b).1 (by omega))]

theorem unpack_toModel_notANumber {x : Float} (hnan : infinityBits < magnitude x) :
    x.toModel.unpack = .notANumber :=
  unpack_notANumber hnan

theorem IsUnpacked.kind {negative : Bool} {bits : Nat} {u : UnpackedFloat}
    (hu : IsUnpacked negative bits u) :
    u.isNaN = false ∧ u.isInf = decide (bits = infinityBits) ∧
    u.isFinite = decide (bits < infinityBits) := by
  cases hu with
  | zero => exact ⟨rfl, rfl, rfl⟩
  | finite hpos hlt =>
    rw [decide_eq_false hlt.ne, decide_eq_true hlt]
    exact ⟨rfl, rfl, rfl⟩
  | infinity =>
    rw [decide_eq_true rfl, decide_eq_false (lt_irrefl _)]
    exact ⟨rfl, rfl, rfl⟩

section

variable (x : Float)

theorem isNaN_eq : x.isNaN = decide (infinityBits < magnitude x) := by
  change x.toModel.unpack.isNaN = _
  by_cases hnan : infinityBits < magnitude x
  · rw [unpack_toModel_notANumber hnan, decide_eq_true hnan]
    rfl
  · rw [decide_eq_false hnan]
    exact (isUnpacked_unpack (not_lt.1 hnan)).kind.1

theorem isInf_eq : x.isInf = decide (magnitude x = infinityBits) := by
  change x.toModel.unpack.isInf = _
  by_cases hnan : infinityBits < magnitude x
  · rw [unpack_toModel_notANumber hnan, decide_eq_false hnan.ne']
    rfl
  · exact (isUnpacked_unpack (not_lt.1 hnan)).kind.2.1

theorem isFinite_eq : x.isFinite = decide (magnitude x < infinityBits) := by
  change x.toModel.unpack.isFinite = _
  by_cases hnan : infinityBits < magnitude x
  · rw [unpack_toModel_notANumber hnan, decide_eq_false hnan.le.not_gt]
    rfl
  · exact (isUnpacked_unpack (not_lt.1 hnan)).kind.2.2

end

theorem isNaN_nan : nan.isNaN = true := by decide

/-! ### Comparing magnitudes -/

/-- The exponent counts first when magnitudes are compared, then the mantissa. -/
theorem Dyadic.ofBits_lex {a b : Nat} (hab : a < b) :
    (ofBits a).exponent < (ofBits b).exponent ∨
      (ofBits a).exponent = (ofBits b).exponent ∧ (ofBits a).mantissa < (ofBits b).mantissa := by
  unfold ofBits hiddenBit
  split <;> split <;> dsimp only <;> omega

theorem Dyadic.compare_ofBits (a b : Nat) :
    (compare (ofBits a).exponent (ofBits b).exponent).then
      (compare (ofBits a).mantissa (ofBits b).mantissa) = compare a b := by
  rcases Nat.lt_trichotomy a b with hab | rfl | hab
  · rw [Nat.compare_eq_lt.2 hab]
    rcases ofBits_lex hab with hexponent | ⟨hexponent, hmantissa⟩
    · rw [Int.compare_eq_lt.2 hexponent, Ordering.lt_then]
    · rw [Int.compare_eq_eq.2 hexponent, Ordering.eq_then, Nat.compare_eq_lt.2 hmantissa]
  · simp
  · rw [Nat.compare_eq_gt.2 hab]
    rcases ofBits_lex hab with hexponent | ⟨hexponent, hmantissa⟩
    · rw [Int.compare_eq_gt.2 hexponent, Ordering.gt_then]
    · rw [Int.compare_eq_eq.2 hexponent.symm, Ordering.eq_then, Nat.compare_eq_gt.2 hmantissa]

namespace IsUnpacked

variable {a b : Nat} {u v : UnpackedFloat}

theorem compare_eq {negative : Bool} (hu : IsUnpacked negative a u) (hv : IsUnpacked negative b v) :
    u.compare v = some (if negative then compare b a else compare a b) := by
  have hinfinity : 0 < infinityBits := by decide
  cases hu with
  | zero =>
    cases hv with
    | zero => cases negative <;> rfl
    | finite hpos hlt =>
      rw [Nat.compare_eq_lt.2 hpos, Nat.compare_eq_gt.2 hpos]
      cases negative <;> rfl
    | infinity =>
      rw [Nat.compare_eq_lt.2 hinfinity, Nat.compare_eq_gt.2 hinfinity]
      cases negative <;> rfl
  | finite hpos hlt =>
    cases hv with
    | zero =>
      rw [Nat.compare_eq_lt.2 hpos, Nat.compare_eq_gt.2 hpos]
      cases negative <;> rfl
    | finite hpos' hlt' =>
      cases negative with
      | false => exact congrArg some (Dyadic.compare_ofBits a b)
      | true =>
        rw [if_pos rfl, ← Nat.compare_swap a b, ← Dyadic.compare_ofBits a b]
        rfl
    | infinity =>
      rw [Nat.compare_eq_lt.2 hlt, Nat.compare_eq_gt.2 hlt]
      cases negative <;> rfl
  | infinity =>
    cases hv with
    | zero =>
      rw [Nat.compare_eq_lt.2 hinfinity, Nat.compare_eq_gt.2 hinfinity]
      cases negative <;> rfl
    | finite hpos hlt =>
      rw [Nat.compare_eq_lt.2 hlt, Nat.compare_eq_gt.2 hlt]
      cases negative <;> rfl
    | infinity =>
      rw [Nat.compare_eq_eq.2 rfl]
      cases negative <;> rfl

/-- Only zeros are not apart when their signs are. -/
theorem compare_of_signs (hu : IsUnpacked true a u) (hv : IsUnpacked false b v) :
    u.compare v = some (if a = 0 ∧ b = 0 then .eq else .lt) ∧
    v.compare u = some (if a = 0 ∧ b = 0 then .eq else .gt) := by
  have hinfinity : infinityBits ≠ 0 := by decide
  cases hu with
  | zero =>
    cases hv with
    | zero => exact ⟨rfl, rfl⟩
    | finite hpos hlt =>
      simp only [hpos.ne', and_false, if_false]
      exact ⟨rfl, rfl⟩
    | infinity =>
      simp only [hinfinity, and_false, if_false]
      exact ⟨rfl, rfl⟩
  | finite hpos hlt =>
    simp only [hpos.ne', false_and, if_false]
    cases hv <;> exact ⟨rfl, rfl⟩
  | infinity =>
    simp only [hinfinity, false_and, if_false]
    cases hv <;> exact ⟨rfl, rfl⟩

end IsUnpacked

/-! ### Places -/

/-- Where a double that is a number stands among all; the negative ones stand below zero. -/
def place (x : Float) : Int :=
  if isNegative x then -(magnitude x : Int) else magnitude x

theorem place_ofMagnitude (negative : Bool) {bits : Nat} (hbits : bits ≤ infinityBits) :
    place (ofMagnitude negative bits) = if negative then -(bits : Int) else bits := by
  rw [place, isNegative_ofMagnitude negative hbits, magnitude_ofMagnitude negative hbits]

theorem le_iff_unpack_le (x y : Float) : x ≤ y ↔ x.toModel.unpack.le y.toModel.unpack = true := by
  change Float.le _ _ = true ↔ _
  unfold Float.le
  rw [decide_eq_true_iff]
  rfl

section

variable {x y : Float} (hx : magnitude x ≤ infinityBits) (hy : magnitude y ≤ infinityBits)

include hx hy

/-- Only the two zeros share a place. -/
theorem eq_of_place_eq (hpos : 0 < magnitude x) (hplace : place x = place y) : x = y := by
  unfold place at hplace
  have hmagnitude : magnitude x = magnitude y := by split_ifs at hplace <;> omega
  have hsign : isNegative x = isNegative y := by
    cases hnegative : isNegative x <;> cases hnegative' : isNegative y <;>
      simp only [hnegative, hnegative', if_true, if_false, Bool.false_eq_true] at hplace ⊢ <;> omega
  rw [← ofMagnitude_magnitude hx, ← ofMagnitude_magnitude hy, hmagnitude, hsign]

theorem compare_unpack_eq :
    x.toModel.unpack.compare y.toModel.unpack = some (compare (place x) (place y)) := by
  have hu := isUnpacked_unpack hx
  have hv := isUnpacked_unpack hy
  unfold place
  generalize isNegative x = s at hu
  generalize isNegative y = t at hv
  generalize magnitude x = a at hu
  generalize magnitude y = b at hv
  cases s <;> cases t <;> simp only [Bool.false_eq_true, if_false, if_true]
  case false.false =>
    rw [hu.compare_eq hv, if_neg Bool.false_ne_true]
    rcases Nat.lt_trichotomy a b with hab | rfl | hab
    · rw [Nat.compare_eq_lt.2 hab, Int.compare_eq_lt.2 (by omega)]
    · rw [Nat.compare_eq_eq.2 rfl, Int.compare_eq_eq.2 rfl]
    · rw [Nat.compare_eq_gt.2 hab, Int.compare_eq_gt.2 (by omega)]
  case false.true =>
    rw [(hv.compare_of_signs hu).2]
    split_ifs with hzero
    · rw [Int.compare_eq_eq.2 (by omega)]
    · rw [Int.compare_eq_gt.2 (by omega)]
  case true.false =>
    rw [(hu.compare_of_signs hv).1]
    split_ifs with hzero
    · rw [Int.compare_eq_eq.2 (by omega)]
    · rw [Int.compare_eq_lt.2 (by omega)]
  case true.true =>
    rw [hu.compare_eq hv, if_pos rfl]
    rcases Nat.lt_trichotomy a b with hab | rfl | hab
    · rw [Nat.compare_eq_gt.2 hab, Int.compare_eq_gt.2 (by omega)]
    · rw [Nat.compare_eq_eq.2 rfl, Int.compare_eq_eq.2 rfl]
    · rw [Nat.compare_eq_lt.2 hab, Int.compare_eq_lt.2 (by omega)]

/-- Numbers are ordered as their places. -/
theorem lt_iff_place_lt : x < y ↔ place x < place y := by
  have hlt : x < y ↔ x.toModel.unpack.lt y.toModel.unpack = true := by
    change Float.lt _ _ = true ↔ _
    unfold Float.lt
    rw [decide_eq_true_iff]
    rfl
  rw [hlt, UnpackedFloat.lt, compare_unpack_eq hx hy, beq_iff_eq, Option.some.injEq,
    Int.compare_eq_lt]

theorem le_iff_place_le : x ≤ y ↔ place x ≤ place y := by
  rw [le_iff_unpack_le, UnpackedFloat.le, compare_unpack_eq hx hy, Option.any_some, Int.isLE_compare]

/-- Equal numbers are those of one place, such as the two zeros. -/
theorem beq_iff_place_eq : (x == y) = true ↔ place x = place y := by
  change x.toModel.unpack.beq y.toModel.unpack = true ↔ _
  rw [UnpackedFloat.beq, compare_unpack_eq hx hy, beq_iff_eq, Option.some.injEq,
    Int.compare_eq_eq]

end

/-- What is not a number is on no side of anything. -/
theorem not_le_notANumber {x : Float} (hnan : infinityBits < magnitude x) (y : Float) :
    ¬ x ≤ y ∧ ¬ y ≤ x := by
  rw [le_iff_unpack_le, le_iff_unpack_le, unpack_toModel_notANumber hnan]
  cases y.toModel.unpack <;> exact ⟨Bool.false_ne_true, Bool.false_ne_true⟩

/-- Doubles that are not negative are ordered by their bits. -/
theorem ofMagnitude_lt_iff {a b : Nat} (ha : a ≤ infinityBits) (hb : b ≤ infinityBits) :
    ofMagnitude false a < ofMagnitude false b ↔ a < b := by
  rw [lt_iff_place_lt (by rwa [magnitude_ofMagnitude false ha])
    (by rwa [magnitude_ofMagnitude false hb]), place_ofMagnitude false ha,
    place_ofMagnitude false hb]
  simp

theorem ofMagnitude_le_iff {a b : Nat} (ha : a ≤ infinityBits) (hb : b ≤ infinityBits) :
    ofMagnitude false a ≤ ofMagnitude false b ↔ a ≤ b := by
  rw [le_iff_place_le (by rwa [magnitude_ofMagnitude false ha])
    (by rwa [magnitude_ofMagnitude false hb]), place_ofMagnitude false ha,
    place_ofMagnitude false hb]
  simp

/-! ### The opposite and the magnitude of a double -/

theorem IsUnpacked.neg {negative : Bool} {bits : Nat} {u : UnpackedFloat}
    (hu : IsUnpacked negative bits u) : IsUnpacked (!negative) bits u.neg := by
  have hsign : -signOf negative = signOf (!negative) := by cases negative <;> rfl
  cases hu with
  | zero =>
    rw [UnpackedFloat.neg, hsign]
    exact .zero
  | finite hpos hlt =>
    rw [UnpackedFloat.neg, hsign]
    exact .finite hpos hlt
  | infinity =>
    rw [UnpackedFloat.neg, hsign]
    exact .infinity

theorem IsUnpacked.abs {negative : Bool} {bits : Nat} {u : UnpackedFloat}
    (hu : IsUnpacked negative bits u) : IsUnpacked false bits u.abs := by
  cases hu with
  | zero => exact .zero
  | finite hpos hlt => exact .finite hpos hlt
  | infinity => exact .infinity

theorem neg_ofMagnitude (negative : Bool) {bits : Nat} (hbits : bits ≤ infinityBits) :
    -ofMagnitude negative bits = ofMagnitude (!negative) bits :=
  (isUnpacked_unpack_ofMagnitude negative hbits).neg.ofModel_pack

theorem abs_ofMagnitude (negative : Bool) {bits : Nat} (hbits : bits ≤ infinityBits) :
    (ofMagnitude negative bits).abs = ofMagnitude false bits :=
  (isUnpacked_unpack_ofMagnitude negative hbits).abs.ofModel_pack

/-! ### Numbers among each other -/

theorem magnitude_le_of_isNaN {x : Float} (hx : x.isNaN = false) : magnitude x ≤ infinityBits := by
  rwa [isNaN_eq, decide_eq_false_iff_not, not_lt] at hx

/-- Only numbers are ordered. -/
theorem isNaN_of_le {x y : Float} (hxy : x ≤ y) : x.isNaN = false ∧ y.isNaN = false := by
  rw [isNaN_eq, isNaN_eq, decide_eq_false_iff_not, decide_eq_false_iff_not]
  exact ⟨fun hnan => (not_le_notANumber hnan y).1 hxy, fun hnan => (not_le_notANumber hnan x).2 hxy⟩

theorem isNaN_of_isFinite {x : Float} (hx : x.isFinite = true) : x.isNaN = false := by
  rw [isFinite_eq, decide_eq_true_iff] at hx
  rw [isNaN_eq, decide_eq_false hx.le.not_gt]

theorem isInf_of_isFinite {x : Float} (hx : x.isFinite = true) : x.isInf = false := by
  rw [isFinite_eq, decide_eq_true_iff] at hx
  rw [isInf_eq, decide_eq_false hx.ne]

theorem le_of_le_of_le {x y z : Float} (hxy : x ≤ y) (hyz : y ≤ z) : x ≤ z := by
  have hx := magnitude_le_of_isNaN (isNaN_of_le hxy).1
  have hy := magnitude_le_of_isNaN (isNaN_of_le hxy).2
  have hz := magnitude_le_of_isNaN (isNaN_of_le hyz).2
  rw [le_iff_place_le hx hy] at hxy
  rw [le_iff_place_le hy hz] at hyz
  rw [le_iff_place_le hx hz]
  omega

section

variable {x y : Float} (hx : x.isNaN = false) (hy : y.isNaN = false)

include hx

theorem le_self : x ≤ x := by
  have hplace := magnitude_le_of_isNaN hx
  rw [le_iff_place_le hplace hplace]

theorem le_infinity : x ≤ infinity := by
  have hmagnitude := magnitude_le_of_isNaN hx
  have hinfinity : magnitude infinity = infinityBits := by decide
  have hplace : place infinity = infinityBits := by decide
  rw [le_iff_place_le hmagnitude hinfinity.le, hplace, place]
  split_ifs <;> omega

include hy

theorem not_le_iff : ¬ x ≤ y ↔ y < x := by
  have hplace := magnitude_le_of_isNaN hx
  have hplace' := magnitude_le_of_isNaN hy
  rw [le_iff_place_le hplace hplace', lt_iff_place_lt hplace' hplace, not_le]

/-- And any two of them are. -/
theorem le_or_le : x ≤ y ∨ y ≤ x := by
  have hplace := magnitude_le_of_isNaN hx
  have hplace' := magnitude_le_of_isNaN hy
  rw [le_iff_place_le hplace hplace', le_iff_place_le hplace' hplace]
  omega

end

theorem beq_of_le_of_le {x y : Float} (hxy : x ≤ y) (hyx : y ≤ x) : (x == y) = true := by
  have hx := magnitude_le_of_isNaN (isNaN_of_le hxy).1
  have hy := magnitude_le_of_isNaN (isNaN_of_le hxy).2
  rw [le_iff_place_le hx hy] at hxy
  rw [le_iff_place_le hy hx] at hyx
  rw [beq_iff_place_eq hx hy]
  omega

end FormExpr.Binary64
