import FormExpr.Proofs.Number.Addition
import FormExpr.Proofs.Number.Value

/-!
# Numbers that are not negative

Operations on doubles round the exact result, and the double nearest to a fraction goes up with it.
So on zero, the positive numbers and infinity, addition, scaling and rounding to an integer never
lead to what is not a number, and they keep the order.
-/

namespace FormExpr.Binary64

open Float.Model (UnpackedFloat)
open Float.Model.Format (binary64)

/-! ### The double nearest to a fraction -/

def nearestTo (q : ℚ) : Nat :=
  nearest q.num.toNat q.den

theorem toNat_num_div_den {q : ℚ} (hq : 0 ≤ q) : (q.num.toNat : ℚ) / q.den = q := by
  have hnum : (q.num.toNat : ℚ) = q.num := by
    exact_mod_cast Int.toNat_of_nonneg (Rat.num_nonneg.2 hq)
  rw [hnum, Rat.num_div_den]

theorem nearestTo_zero : nearestTo 0 = 0 := rfl

theorem nearestTo_le_infinityBits (q : ℚ) : nearestTo q ≤ infinityBits :=
  nearest_le_infinityBits _ _

theorem nearestTo_mono {p q : ℚ} (hp : 0 ≤ p) (hpq : p ≤ q) : nearestTo p ≤ nearestTo q := by
  apply nearest_mono p.den_pos q.den_pos
  rwa [toNat_num_div_den hp, toNat_num_div_den (hp.trans hpq)]

theorem nearestTo_value {bits : Nat} (hbits : bits < infinityBits) :
    nearestTo (Dyadic.ofBits bits).value = bits := by
  rcases Nat.eq_zero_or_pos bits with rfl | hpos
  · rw [Dyadic.value_ofBits_zero, nearestTo_zero]
  · have hvalue := toNat_num_div_den (Dyadic.ofBits bits).value_nonneg
    have hnearest : nearestTo (Dyadic.ofBits bits).value = (Dyadic.ofBits bits).toBits := by
      apply nearest_eq_toBits (Rat.den_pos _) (Dyadic.isCanonical_ofBits hpos)
      · rwa [Dyadic.toBits_ofBits]
      · rw [hvalue]
        exact Dyadic.attracts_value _
    rw [hnearest, Dyadic.toBits_ofBits]

theorem value_ofBits_le {a b : Nat} (hab : a ≤ b) :
    (Dyadic.ofBits a).value ≤ (Dyadic.ofBits b).value := by
  rcases hab.lt_or_eq with hlt | rfl
  · exact (Dyadic.value_ofBits_lt hlt).le
  · exact le_rfl

section

variable {a b : Nat} (ha : a < infinityBits) (hb : b < infinityBits)

include ha hb

/-- The product of two finite doubles is the double nearest to the product of their values. -/
theorem ofMagnitude_mul_nearestTo (s t : Bool) :
    ofMagnitude s a * ofMagnitude t b =
      ofMagnitude (s ^^ t) (nearestTo ((Dyadic.ofBits a).value * (Dyadic.ofBits b).value)) := by
  have hnonneg := mul_nonneg (Dyadic.ofBits a).value_nonneg (Dyadic.ofBits b).value_nonneg
  by_cases hpos : 0 < a ∧ 0 < b
  · exact ofMagnitude_mul hpos.1 ha hpos.2 hb (Rat.den_pos _) s t (toNat_num_div_den hnonneg)
  · have hzero : (Dyadic.ofBits a).value * (Dyadic.ofBits b).value = 0 := by
      rw [mul_eq_zero]
      rcases not_and_or.1 hpos with hzero | hzero
      · exact Or.inl (by rw [Nat.eq_zero_of_not_pos hzero, Dyadic.value_ofBits_zero])
      · exact Or.inr (by rw [Nat.eq_zero_of_not_pos hzero, Dyadic.value_ofBits_zero])
    have hu := isUnpacked_unpack_ofMagnitude s ha.le
    have hv := isUnpacked_unpack_ofMagnitude t hb.le
    rw [hzero, nearestTo_zero, mul_eq_pack, ← ofModel_pack_zero (s ^^ t), ← signOf_mul_signOf]
    generalize (ofMagnitude s a).toModel.unpack = u at hu
    generalize (ofMagnitude t b).toModel.unpack = v at hv
    cases hu with
    | zero =>
      cases hv with
      | zero | finite => rfl
      | infinity => exact absurd hb (lt_irrefl _)
    | finite hpos' =>
      cases hv with
      | zero => rfl
      | finite hpos'' => exact absurd ⟨hpos', hpos''⟩ hpos
      | infinity => exact absurd hb (lt_irrefl _)
    | infinity => exact absurd ha (lt_irrefl _)

theorem ofMagnitude_div_nearestTo (hpos : 0 < b) (s t : Bool) :
    ofMagnitude s a / ofMagnitude t b =
      ofMagnitude (s ^^ t) (nearestTo ((Dyadic.ofBits a).value / (Dyadic.ofBits b).value)) := by
  have hnonneg := div_nonneg (Dyadic.ofBits a).value_nonneg (Dyadic.ofBits b).value_nonneg
  rcases Nat.eq_zero_or_pos a with rfl | hpos'
  · have hu := isUnpacked_unpack_ofMagnitude s ha.le
    have hv := isUnpacked_unpack_ofMagnitude t hb.le
    rw [Dyadic.value_ofBits_zero, zero_div, nearestTo_zero, div_eq_pack,
      ← ofModel_pack_zero (s ^^ t), ← signOf_div_signOf]
    generalize (ofMagnitude s 0).toModel.unpack = u at hu
    generalize (ofMagnitude t b).toModel.unpack = v at hv
    cases hu with
    | zero =>
      cases hv with
      | zero => exact absurd hpos (lt_irrefl 0)
      | finite => rfl
      | infinity => exact absurd hb (lt_irrefl _)
    | finite hpos' => exact absurd hpos' (lt_irrefl 0)
  · exact ofMagnitude_div hpos' ha hpos hb (Rat.den_pos _) s t (toNat_num_div_den hnonneg)

/-- The sum of two finite doubles that are not negative is the double nearest to the sum of their
values. -/
theorem ofMagnitude_add_nearestTo :
    ofMagnitude false a + ofMagnitude false b =
      ofMagnitude false (nearestTo ((Dyadic.ofBits a).value + (Dyadic.ofBits b).value)) := by
  have hnonneg := add_nonneg (Dyadic.ofBits a).value_nonneg (Dyadic.ofBits b).value_nonneg
  by_cases hpos : 0 < a ∧ 0 < b
  · exact ofMagnitude_add hpos.1 ha hpos.2 hb (Rat.den_pos _) (toNat_num_div_den hnonneg)
  · -- Zero and a double add up to the double.
    have hu := isUnpacked_unpack_ofMagnitude false ha.le
    have hv := isUnpacked_unpack_ofMagnitude false hb.le
    rw [add_eq_pack]
    generalize (ofMagnitude false a).toModel.unpack = u at hu
    generalize (ofMagnitude false b).toModel.unpack = v at hv
    cases hu with
    | zero =>
      rw [Dyadic.value_ofBits_zero, zero_add, nearestTo_value hb]
      cases hv with
      | zero => exact IsUnpacked.zero.ofModel_pack
      | finite hpos' hlt => exact (IsUnpacked.finite hpos' hlt).ofModel_pack
      | infinity => exact absurd hb (lt_irrefl _)
    | finite hpos' hlt =>
      cases hv with
      | zero =>
        rw [Dyadic.value_ofBits_zero, add_zero, nearestTo_value ha]
        exact (IsUnpacked.finite hpos' hlt).ofModel_pack
      | finite hpos'' => exact absurd ⟨hpos', hpos''⟩ hpos
      | infinity => exact absurd hb (lt_irrefl _)
    | infinity => exact absurd ha (lt_irrefl _)

end

theorem isFinite_ofMagnitude (negative : Bool) {bits : Nat} (hbits : bits < infinityBits) :
    (ofMagnitude negative bits).isFinite = true := by
  rw [isFinite_eq, magnitude_ofMagnitude negative hbits.le, decide_eq_true hbits]

theorem value_ofMagnitude (negative : Bool) {bits : Nat} (hbits : bits ≤ infinityBits) :
    value (ofMagnitude negative bits) =
      if negative then -(Dyadic.ofBits bits).value else (Dyadic.ofBits bits).value := by
  rw [value_eq, isNegative_ofMagnitude negative hbits, absValue_ofMagnitude negative hbits]

theorem exists_eq_ofMagnitude {x : Float} (hx : x.isFinite = true) :
    ∃ negative, ∃ bits < infinityBits, x = ofMagnitude negative bits := by
  rw [isFinite_eq, decide_eq_true_iff] at hx
  exact ⟨isNegative x, magnitude x, hx, (ofMagnitude_magnitude hx.le).symm⟩

theorem abs_value_ofMagnitude (negative : Bool) {bits : Nat} (hbits : bits ≤ infinityBits) :
    |value (ofMagnitude negative bits)| = (Dyadic.ofBits bits).value := by
  rw [value_ofMagnitude negative hbits]
  split_ifs
  · rw [abs_neg, abs_of_nonneg (Dyadic.value_nonneg _)]
  · exact abs_of_nonneg (Dyadic.value_nonneg _)

/-- Between finite doubles all are finite. -/
theorem isFinite_of_between {x y z : Float} (hx : x.isFinite = true) (hz : z.isFinite = true)
    (hxy : x ≤ y) (hyz : y ≤ z) : y.isFinite = true := by
  rw [isFinite_eq, decide_eq_true_iff] at hx hz ⊢
  have hy : magnitude y ≤ infinityBits := by
    by_contra hnan
    exact (not_le_notANumber (not_le.1 hnan) z).1 hyz
  rw [le_iff_place_le hx.le hy] at hxy
  rw [le_iff_place_le hy hz.le] at hyz
  unfold place at hxy hyz
  split_ifs at hxy hyz <;> omega

theorem isFinite_mul {x k : Float} (hx : x.isFinite = true) (hk : k.isFinite = true)
    (hunit : |value k| ≤ 1) : (x * k).isFinite = true := by
  obtain ⟨s, a, ha, rfl⟩ := exists_eq_ofMagnitude hx
  obtain ⟨t, b, hb, rfl⟩ := exists_eq_ofMagnitude hk
  rw [abs_value_ofMagnitude t hb.le] at hunit
  have hnonneg := (Dyadic.ofBits a).value_nonneg
  have hbound : nearestTo ((Dyadic.ofBits a).value * (Dyadic.ofBits b).value) ≤ a := by
    calc nearestTo ((Dyadic.ofBits a).value * (Dyadic.ofBits b).value)
        ≤ nearestTo (Dyadic.ofBits a).value :=
          nearestTo_mono (mul_nonneg hnonneg (Dyadic.value_nonneg _))
            (mul_le_of_le_one_right hnonneg hunit)
      _ = a := nearestTo_value ha
  rw [ofMagnitude_mul_nearestTo ha hb]
  exact isFinite_ofMagnitude _ (hbound.trans_lt ha)

theorem sub_self_eq_zero {x : Float} (hx : x.isFinite = true) : x - x = 0 := by
  obtain ⟨negative, bits, hbits, rfl⟩ := exists_eq_ofMagnitude hx
  have hsub : ofMagnitude negative bits - ofMagnitude negative bits = Float.ofModel (.pack
      ((ofMagnitude negative bits).toModel.unpack.sub binary64
        (ofMagnitude negative bits).toModel.unpack)) := rfl
  have hu := isUnpacked_unpack_ofMagnitude negative hbits.le
  rw [hsub, zero_eq_ofMagnitude, ← ofModel_pack_zero]
  generalize (ofMagnitude negative bits).toModel.unpack = u at hu
  cases hu with
  | zero => cases negative <;> rfl
  | finite hpos hlt =>
    unfold UnpackedFloat.sub UnpackedFloat.normalize
    dsimp only
    rw [Int.sub_self]
    rfl
  | infinity => exact absurd hbits (lt_irrefl _)

/-! ### Numbers that are not negative -/

theorem negZero_eq_ofMagnitude : (-0.0 : Float) = ofMagnitude true 0 := by decide

def NonNegative (x : Float) : Prop :=
  ∃ bits, bits ≤ infinityBits ∧ x = ofMagnitude false bits

theorem nonNegative_ofMagnitude {bits : Nat} (hbits : bits ≤ infinityBits) :
    NonNegative (ofMagnitude false bits) :=
  ⟨bits, hbits, rfl⟩

theorem nonNegative_one : NonNegative 1 :=
  ⟨_, nearest_le_infinityBits 1 1, one_eq_ofMagnitude⟩

theorem nonNegative_ofNat (n : Nat) : NonNegative (Float.ofNat n) :=
  ⟨_, nearest_le_infinityBits n 1, ofNat_eq_ofMagnitude n⟩

/-- A sum is no less than either summand. -/
theorem exists_add_eq_ofMagnitude {a b : Nat} (ha : a ≤ infinityBits) (hb : b ≤ infinityBits) :
    ∃ c ≤ infinityBits, a ≤ c ∧ b ≤ c ∧
      ofMagnitude false a + ofMagnitude false b = ofMagnitude false c := by
  by_cases hfinite : a < infinityBits ∧ b < infinityBits
  · obtain ⟨ha', hb'⟩ := hfinite
    have hleft := (Dyadic.ofBits a).value_nonneg
    have hright := (Dyadic.ofBits b).value_nonneg
    refine ⟨_, nearestTo_le_infinityBits _, ?_, ?_, ofMagnitude_add_nearestTo ha' hb'⟩
    · calc a = nearestTo (Dyadic.ofBits a).value := (nearestTo_value ha').symm
        _ ≤ nearestTo ((Dyadic.ofBits a).value + (Dyadic.ofBits b).value) :=
            nearestTo_mono hleft (le_add_of_nonneg_right hright)
    · calc b = nearestTo (Dyadic.ofBits b).value := (nearestTo_value hb').symm
        _ ≤ nearestTo ((Dyadic.ofBits a).value + (Dyadic.ofBits b).value) :=
            nearestTo_mono hright (le_add_of_nonneg_left hleft)
  · refine ⟨infinityBits, le_rfl, ha, hb, ?_⟩
    have hinfinity : 0 < infinityBits := by decide
    have hu := isUnpacked_unpack_ofMagnitude false ha
    have hv := isUnpacked_unpack_ofMagnitude false hb
    rw [add_eq_pack]
    generalize (ofMagnitude false a).toModel.unpack = u at hu
    generalize (ofMagnitude false b).toModel.unpack = v at hv
    cases hu with
    | infinity => cases hv <;> exact IsUnpacked.infinity.ofModel_pack
    | zero | finite =>
      cases hv with
      | infinity => exact IsUnpacked.infinity.ofModel_pack
      | zero | finite => exact absurd ⟨by assumption, by assumption⟩ hfinite

namespace NonNegative

variable {x y : Float}

theorem isNaN (hx : NonNegative x) : x.isNaN = false := by
  obtain ⟨bits, hbits, rfl⟩ := hx
  rw [isNaN_eq, magnitude_ofMagnitude false hbits, decide_eq_false hbits.not_gt]

theorem add (hx : NonNegative x) (hy : NonNegative y) : NonNegative (x + y) := by
  obtain ⟨a, ha, rfl⟩ := hx
  obtain ⟨b, hb, rfl⟩ := hy
  obtain ⟨c, hc, -, -, heq⟩ := exists_add_eq_ofMagnitude ha hb
  exact ⟨c, hc, heq⟩

theorem le_add_right (hx : NonNegative x) (hy : NonNegative y) : x ≤ x + y := by
  obtain ⟨a, ha, rfl⟩ := hx
  obtain ⟨b, hb, rfl⟩ := hy
  obtain ⟨c, hc, hle, -, heq⟩ := exists_add_eq_ofMagnitude ha hb
  rwa [heq, ofMagnitude_le_iff ha hc]

theorem le_add_left (hx : NonNegative x) (hy : NonNegative y) : y ≤ x + y := by
  obtain ⟨a, ha, rfl⟩ := hx
  obtain ⟨b, hb, rfl⟩ := hy
  obtain ⟨c, hc, -, hle, heq⟩ := exists_add_eq_ofMagnitude ha hb
  rwa [heq, ofMagnitude_le_iff hb hc]

theorem add_le_add {z w : Float} (hx : NonNegative x) (hy : NonNegative y) (hz : NonNegative z)
    (hw : NonNegative w) (hxy : x ≤ y) (hzw : z ≤ w) : x + z ≤ y + w := by
  obtain ⟨a, ha, rfl⟩ := hx
  obtain ⟨b, hb, rfl⟩ := hy
  obtain ⟨c, hc, rfl⟩ := hz
  obtain ⟨d, hd, rfl⟩ := hw
  rw [ofMagnitude_le_iff ha hb] at hxy
  rw [ofMagnitude_le_iff hc hd] at hzw
  by_cases hfinite : b < infinityBits ∧ d < infinityBits
  · rw [ofMagnitude_add_nearestTo (hxy.trans_lt hfinite.1) (hzw.trans_lt hfinite.2),
      ofMagnitude_add_nearestTo hfinite.1 hfinite.2,
      ofMagnitude_le_iff (nearestTo_le_infinityBits _) (nearestTo_le_infinityBits _)]
    exact nearestTo_mono (add_nonneg (Dyadic.value_nonneg _) (Dyadic.value_nonneg _))
      (by gcongr <;> exact value_ofBits_le ‹_›)
  · -- The larger sum is infinite.
    obtain ⟨e, he, -, -, heq⟩ := exists_add_eq_ofMagnitude ha hc
    obtain ⟨f, hf, hbf, hdf, heq'⟩ := exists_add_eq_ofMagnitude hb hd
    rw [heq, heq', ofMagnitude_le_iff he hf]
    omega

theorem le_refl (hx : NonNegative x) : x ≤ x := by
  obtain ⟨a, ha, rfl⟩ := hx
  rw [ofMagnitude_le_iff ha ha]

theorem le_trans {z : Float} (hx : NonNegative x) (hy : NonNegative y) (hz : NonNegative z)
    (hxy : x ≤ y) (hyz : y ≤ z) : x ≤ z := by
  obtain ⟨a, ha, rfl⟩ := hx
  obtain ⟨b, hb, rfl⟩ := hy
  obtain ⟨c, hc, rfl⟩ := hz
  rw [ofMagnitude_le_iff ha hb] at hxy
  rw [ofMagnitude_le_iff hb hc] at hyz
  rw [ofMagnitude_le_iff ha hc]
  exact hxy.trans hyz

theorem le_antisymm (hx : NonNegative x) (hy : NonNegative y) (hxy : x ≤ y) (hyx : y ≤ x) :
    x = y := by
  obtain ⟨a, ha, rfl⟩ := hx
  obtain ⟨b, hb, rfl⟩ := hy
  rw [ofMagnitude_le_iff ha hb] at hxy
  rw [ofMagnitude_le_iff hb ha] at hyx
  rw [Nat.le_antisymm hxy hyx]

theorem le_total (hx : NonNegative x) (hy : NonNegative y) : x ≤ y ∨ y ≤ x := by
  obtain ⟨a, ha, rfl⟩ := hx
  obtain ⟨b, hb, rfl⟩ := hy
  rw [ofMagnitude_le_iff ha hb, ofMagnitude_le_iff hb ha]
  exact Nat.le_total a b

theorem lt_iff_not_le (hx : NonNegative x) (hy : NonNegative y) : x < y ↔ ¬ y ≤ x := by
  obtain ⟨a, ha, rfl⟩ := hx
  obtain ⟨b, hb, rfl⟩ := hy
  rw [ofMagnitude_lt_iff ha hb, ofMagnitude_le_iff hb ha, not_le]

/-- A sum that starts with negative zero starts with its first term. -/
theorem negZero_add (hx : NonNegative x) : -0.0 + x = x := by
  obtain ⟨a, ha, rfl⟩ := hx
  have hunpack : (ofMagnitude true 0).toModel.unpack = .zero (signOf true) := rfl
  have hu := isUnpacked_unpack_ofMagnitude false ha
  rw [negZero_eq_ofMagnitude, add_eq_pack, hunpack]
  generalize (ofMagnitude false a).toModel.unpack = u at hu
  rw [← hu.ofModel_pack]
  cases hu <;> rfl

theorem isFinite_of_le (hx : NonNegative x) (hy : NonNegative y) (hxy : x ≤ y)
    (hfinite : y.isFinite = true) : x.isFinite = true := by
  obtain ⟨a, ha, rfl⟩ := hx
  obtain ⟨b, hb, rfl⟩ := hy
  rw [ofMagnitude_le_iff ha hb] at hxy
  rw [isFinite_eq, magnitude_ofMagnitude false hb, decide_eq_true_iff] at hfinite
  exact isFinite_ofMagnitude false (hxy.trans_lt hfinite)

theorem value_nonneg (hx : NonNegative x) : 0 ≤ value x := by
  obtain ⟨a, ha, rfl⟩ := hx
  exact (value_ofMagnitude false ha).ge.trans' (Dyadic.value_nonneg _)

end NonNegative

theorem nonNegative_of_value_pos {x : Float} (hx : x.isFinite = true) (hvalue : 0 < value x) :
    NonNegative x := by
  obtain ⟨negative, bits, hbits, rfl⟩ := exists_eq_ofMagnitude hx
  cases negative with
  | false => exact nonNegative_ofMagnitude hbits.le
  | true =>
    have hnonneg := (Dyadic.ofBits bits).value_nonneg
    rw [value_ofMagnitude true hbits.le, if_pos rfl] at hvalue
    linarith

theorem mul_self_ofMagnitude {negative : Bool} {bits : Nat} (hbits : bits < infinityBits) :
    ofMagnitude negative bits * ofMagnitude negative bits =
      ofMagnitude false (nearestTo ((Dyadic.ofBits bits).value * (Dyadic.ofBits bits).value)) := by
  rw [ofMagnitude_mul_nearestTo hbits hbits, Bool.xor_self]

theorem nonNegative_mul_self {x : Float} (hx : x.isFinite = true) : NonNegative (x * x) := by
  obtain ⟨negative, bits, hbits, rfl⟩ := exists_eq_ofMagnitude hx
  rw [mul_self_ofMagnitude hbits]
  exact nonNegative_ofMagnitude (nearestTo_le_infinityBits _)

theorem mul_self_le_mul_self {x y : Float} (hx : x.isFinite = true) (hy : y.isFinite = true)
    (hxy : |value x| ≤ |value y|) : x * x ≤ y * y := by
  obtain ⟨negative, a, ha, rfl⟩ := exists_eq_ofMagnitude hx
  obtain ⟨negative', b, hb, rfl⟩ := exists_eq_ofMagnitude hy
  rw [abs_value_ofMagnitude negative ha.le, abs_value_ofMagnitude negative' hb.le] at hxy
  have hnonneg := (Dyadic.ofBits a).value_nonneg
  rw [mul_self_ofMagnitude ha, mul_self_ofMagnitude hb,
    ofMagnitude_le_iff (nearestTo_le_infinityBits _) (nearestTo_le_infinityBits _)]
  exact nearestTo_mono (mul_nonneg hnonneg hnonneg)
    (mul_le_mul hxy hxy hnonneg (hnonneg.trans hxy))

/-! ### Functions that keep the order -/

/-- The function leads from numbers that are not negative to such numbers and keeps their order. -/
structure IsMonotone (f : Float → Float) : Prop where
  nonNegative {x : Float} (hx : NonNegative x) : NonNegative (f x)
  le {x y : Float} (hx : NonNegative x) (hy : NonNegative y) (hxy : x ≤ y) : f x ≤ f y

theorem IsMonotone.comp {f g : Float → Float} (hf : IsMonotone f) (hg : IsMonotone g) :
    IsMonotone (f ∘ g) where
  nonNegative hx := hf.nonNegative (hg.nonNegative hx)
  le hx hy hxy := hf.le (hg.nonNegative hx) (hg.nonNegative hy) (hg.le hx hy hxy)

/-- A function that rounds a monotone function of the value keeps the order. -/
theorem isMonotone_of_value {f : Float → Float} {g : ℚ → ℚ} (hnonneg : ∀ q, 0 ≤ q → 0 ≤ g q)
    (hmono : ∀ p q, p ≤ q → g p ≤ g q)
    (hfinite : ∀ a < infinityBits,
      f (ofMagnitude false a) = ofMagnitude false (nearestTo (g (Dyadic.ofBits a).value)))
    (hinfinity : f (ofMagnitude false infinityBits) = ofMagnitude false infinityBits) :
    IsMonotone f where
  nonNegative := by
    rintro _ ⟨a, ha, rfl⟩
    rcases ha.lt_or_eq with hlt | rfl
    · rw [hfinite a hlt]
      exact nonNegative_ofMagnitude (nearestTo_le_infinityBits _)
    · rw [hinfinity]
      exact nonNegative_ofMagnitude le_rfl
  le := by
    rintro _ _ ⟨a, ha, rfl⟩ ⟨b, hb, rfl⟩ hab
    rw [ofMagnitude_le_iff ha hb] at hab
    rcases hb.lt_or_eq with hlt | rfl
    · rw [hfinite a (hab.trans_lt hlt), hfinite b hlt,
        ofMagnitude_le_iff (nearestTo_le_infinityBits _) (nearestTo_le_infinityBits _)]
      exact nearestTo_mono (hnonneg _ (Dyadic.value_nonneg _)) (hmono _ _ (value_ofBits_le hab))
    · rw [hinfinity]
      rcases ha.lt_or_eq with hlt | rfl
      · rw [hfinite a hlt, ofMagnitude_le_iff (nearestTo_le_infinityBits _) le_rfl]
        exact nearestTo_le_infinityBits _
      · rw [hinfinity, ofMagnitude_le_iff le_rfl le_rfl]

theorem unpack_ofMagnitude_infinity (negative : Bool) :
    (ofMagnitude negative infinityBits).toModel.unpack = .infinity (signOf negative) := by
  have hu := isUnpacked_unpack_ofMagnitude negative (le_refl infinityBits)
  generalize (ofMagnitude negative infinityBits).toModel.unpack = u at hu
  generalize hbits : infinityBits = bits at hu
  cases hu with
  | zero => exact absurd hbits (by decide)
  | finite _ hlt => exact absurd hbits hlt.ne'
  | infinity => rfl

section

variable {b : Nat} (hpos : 0 < b) (hb : b < infinityBits)

include hpos hb

theorem infinity_mul :
    ofMagnitude false infinityBits * ofMagnitude false b = ofMagnitude false infinityBits := by
  rw [mul_eq_pack, unpack_ofMagnitude_infinity, unpack_ofMagnitude_finite false hpos hb,
    ← ofModel_pack_infinity]
  rfl

theorem infinity_div :
    ofMagnitude false infinityBits / ofMagnitude false b = ofMagnitude false infinityBits := by
  rw [div_eq_pack, unpack_ofMagnitude_infinity, unpack_ofMagnitude_finite false hpos hb,
    ← ofModel_pack_infinity]
  rfl

theorem isMonotone_mul : IsMonotone (· * ofMagnitude false b) := by
  have hfactor := (Dyadic.ofBits b).value_nonneg
  exact isMonotone_of_value (g := (· * (Dyadic.ofBits b).value))
    (fun q hq => mul_nonneg hq hfactor) (fun p q hpq => mul_le_mul_of_nonneg_right hpq hfactor)
    (fun a ha => ofMagnitude_mul_nearestTo ha hb false false) (infinity_mul hpos hb)

theorem isMonotone_div : IsMonotone (· / ofMagnitude false b) := by
  have hdivisor := (Dyadic.ofBits b).value_nonneg
  exact isMonotone_of_value (g := (· / (Dyadic.ofBits b).value))
    (fun q hq => div_nonneg hq hdivisor) (fun p q hpq => div_le_div_of_nonneg_right hpq hdivisor)
    (fun a ha => ofMagnitude_div_nearestTo ha hb hpos false false) (infinity_div hpos hb)

end

theorem NonNegative.mul_one_eq {x : Float} (hx : NonNegative x) : x * 1 = x := by
  obtain ⟨a, ha, rfl⟩ := hx
  obtain ⟨hone, hone'⟩ := nearest_one_bounds Nat.one_pos (by norm_num : 1 < 2 ^ 53)
  rw [one_eq_ofMagnitude]
  rcases ha.lt_or_eq with hlt | rfl
  · rw [ofMagnitude_mul_nearestTo hlt hone', value_nearest_one Nat.one_pos (by norm_num),
      Nat.cast_one, mul_one, nearestTo_value hlt]
    rfl
  · exact infinity_mul hone hone'

section

variable {n : Nat} (hn : 0 < n) (hn' : n < exactLimit)

include hn hn'

theorem isMonotone_mul_ofNat : IsMonotone (· * Float.ofNat n) := by
  obtain ⟨hb, hb'⟩ := nearest_one_bounds hn hn'
  rw [ofNat_eq_ofMagnitude]
  exact isMonotone_mul hb hb'

theorem isMonotone_div_ofNat : IsMonotone (· / Float.ofNat n) := by
  obtain ⟨hb, hb'⟩ := nearest_one_bounds hn hn'
  rw [ofNat_eq_ofMagnitude]
  exact isMonotone_div hb hb'

theorem NonNegative.div_ofNat {x : Float} (hx : NonNegative x) : NonNegative (x / Float.ofNat n) :=
  (isMonotone_div_ofNat hn hn').nonNegative hx

end

theorem isMonotone_abs : IsMonotone Float.abs where
  nonNegative := by
    rintro _ ⟨a, ha, rfl⟩
    rw [abs_ofMagnitude false ha]
    exact nonNegative_ofMagnitude ha
  le := by
    rintro _ _ ⟨a, ha, rfl⟩ ⟨b, hb, rfl⟩ hab
    rwa [abs_ofMagnitude false ha, abs_ofMagnitude false hb]

/-! ### Rounding to an integer -/

theorem roundHalfUpInt_eq_floor (x : Float) : roundHalfUpInt x = ⌊value x + 1 / 2⌋ := by
  have hden : ((fraction x).2 : ℚ) ≠ 0 := by exact_mod_cast (Dyadic.den_pos _).ne'
  have hhalf : value x + 1 / 2 =
      ((2 * (fraction x).1 + (fraction x).2 : Int) : ℚ) / (2 * (fraction x).2 : Nat) := by
    rw [value]
    push_cast
    field_simp
  rw [hhalf, Rat.floor_intCast_div_natCast]
  rfl

theorem isMonotone_roundHalfUp : IsMonotone roundHalfUp := by
  refine isMonotone_of_value (g := fun q => ⌊q + 1 / 2⌋) ?_ ?_ ?_ ?_
  · intro q hq
    have hfloor : 0 ≤ ⌊q + 1 / 2⌋ := Int.floor_nonneg.2 (by linarith)
    exact_mod_cast hfloor
  · intro p q hpq
    have hfloor : ⌊p + 1 / 2⌋ ≤ ⌊q + 1 / 2⌋ := Int.floor_le_floor (by linarith)
    exact_mod_cast hfloor
  · intro a ha
    have hvalue : value (ofMagnitude false a) = (Dyadic.ofBits a).value :=
      value_ofMagnitude false ha.le
    have hfloor : 0 ≤ ⌊(Dyadic.ofBits a).value + 1 / 2⌋ := by
      have hnonneg := (Dyadic.ofBits a).value_nonneg
      exact Int.floor_nonneg.2 (by linarith)
    have hnat : ⌊(Dyadic.ofBits a).value + 1 / 2⌋.natAbs =
        ⌊(Dyadic.ofBits a).value + 1 / 2⌋.toNat := by
      omega
    rw [roundHalfUp, integral, if_pos (isFinite_ofMagnitude false ha), ofSignedInt,
      isNegative_ofMagnitude false ha.le, roundHalfUpInt_eq_floor, hvalue]
    rw [hnat]
    rfl
  · decide

end FormExpr.Binary64
