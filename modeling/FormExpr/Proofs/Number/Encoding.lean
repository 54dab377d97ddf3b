import FormExpr.Number.Binary64
import Mathlib

/-!
# The encoding of doubles

A double is known by its sign and by the bits of its magnitude. Below the bits of infinity these are
the bits of a dyadic number in canonical form, whose mantissa and exponent are the ones that
floating-point operations unpack; in turn, what they pack has those bits.
-/

namespace FormExpr.Binary64

open Float.Model (UnpackedFloat)
open Float.Model.Format (binary64)

def signOf (negative : Bool) : UnpackedFloat.Sign :=
  if negative then .negative else .positive

def signBits (negative : Bool) : Nat :=
  if negative then signBit else 0

namespace Dyadic

/-- The form of a magnitude in which the mantissa is as long as the format allows. -/
structure IsCanonical (d : Dyadic) : Prop where
  pos : 0 < d.mantissa
  lt : d.mantissa < 2 ^ 53
  smallest : -1074 ≤ d.exponent
  normal : 2 ^ 52 ≤ d.mantissa ∨ d.exponent = -1074

theorem isCanonical_ofBits {bits : Nat} (hpos : 0 < bits) : (ofBits bits).IsCanonical := by
  unfold ofBits hiddenBit
  split
  · constructor <;> dsimp only <;> omega
  · constructor <;> dsimp only <;> omega

/-- A magnitude is found again by the bits of its dyadic. -/
theorem toBits_ofBits (bits : Nat) : (ofBits bits).toBits = bits := by
  unfold ofBits toBits hiddenBit
  split <;> dsimp only <;> omega

end Dyadic

/-! ### Packing -/

theorem toNat_toBitVec_signOf (negative : Bool) :
    (signOf negative).toBitVec.toNat = if negative then 1 else 0 := by
  cases negative <;> rfl

theorem toNat_packComponents (negative : Bool) (exponent : BitVec 11) (mantissa : BitVec 52) :
    (UnpackedFloat.packComponents binary64 (signOf negative) exponent mantissa).toNat =
      signBits negative + exponent.toNat * hiddenBit + mantissa.toNat := by
  have hexponent := exponent.isLt
  have hmantissa := mantissa.isLt
  unfold UnpackedFloat.packComponents
  rw [BitVec.toNat_append, BitVec.toNat_append, ← Nat.shiftLeft_add_eq_or_of_lt hmantissa,
    ← Nat.shiftLeft_add_eq_or_of_lt hexponent, toNat_toBitVec_signOf, Nat.shiftLeft_eq,
    Nat.shiftLeft_eq]
  unfold signBits signBit hiddenBit
  cases negative
  · simp
  · simp
    omega

theorem toNat_packedInfinity (negative : Bool) :
    (UnpackedFloat.packedInfinity binary64 (signOf negative)).toNat =
      signBits negative + infinityBits := by
  unfold UnpackedFloat.packedInfinity
  rw [toNat_packComponents]
  cases negative <;> rfl

/-- A canonical number is packed into its bits; beyond the largest exponent it becomes infinite. -/
theorem toNat_pack_finite (negative : Bool) {d : Dyadic} (hd : d.IsCanonical) :
    (UnpackedFloat.pack binary64 (.finite (signOf negative) d.mantissa d.exponent hd.pos)).toNat =
      signBits negative + min d.toBits infinityBits := by
  obtain ⟨hpos, hlt, hsmallest, hnormal⟩ := hd
  have hbiased : ((d.exponent + (binary64.exponentBias : Int) +
      (binary64.mantissaBitsWithoutImplicit : Int)).toNat : Int) = d.exponent + 1075 := by
    have hbias : (binary64.exponentBias : Int) = 1023 := rfl
    have hlength : (binary64.mantissaBitsWithoutImplicit : Int) = 52 := rfl
    rw [hbias, hlength]
    omega
  have hbits : (Float.Model.Format.mantissaBits binary64) = 53 := rfl
  unfold UnpackedFloat.pack
  dsimp only
  generalize (d.exponent + (binary64.exponentBias : Int) +
    (binary64.mantissaBitsWithoutImplicit : Int)).toNat = biased at hbiased
  unfold Dyadic.toBits hiddenBit infinityBits
  split
  · rename_i hoverflow
    rw [toNat_packedInfinity, infinityBits]
    omega
  · rename_i hfits
    by_cases hmantissa : 2 ^ 52 ≤ d.mantissa
    · have hlog : d.mantissa.log2 = 52 := (Nat.log2_eq_iff (by omega)).2 ⟨hmantissa, hlt⟩
      rw [if_pos (by rw [hlog, hbits]), toNat_packComponents, BitVec.toNat_ofNat,
        BitVec.toNat_ofNat, hiddenBit]
      omega
    · have hlog : d.mantissa.log2 < 52 := (Nat.log2_lt (by omega)).2 (by omega)
      rw [if_neg (by rw [hbits]; omega), toNat_packComponents, BitVec.toNat_ofNat,
        BitVec.toNat_ofNat]
      omega

/-! ### Unpacking -/

section Unpacking

variable (b : BitVec 64)

theorem toNat_unpackExponent :
    (@UnpackedFloat.unpackExponent binary64 b).toNat = b.toNat / 2 ^ 52 % 2 ^ 11 := by
  unfold UnpackedFloat.unpackExponent
  rw [BitVec.toNat_cast, BitVec.extractLsb_toNat, Nat.shiftRight_eq_div_pow]
  rfl

theorem toNat_unpackMantissa :
    (@UnpackedFloat.unpackMantissa binary64 b).toNat = b.toNat % 2 ^ 52 := by
  unfold UnpackedFloat.unpackMantissa
  rw [BitVec.toNat_cast, BitVec.extractLsb_toNat, Nat.shiftRight_eq_div_pow]
  simp

theorem unpackExponent_eq_iff (e : BitVec 11) :
    @UnpackedFloat.unpackExponent binary64 b = e ↔ b.toNat / 2 ^ 52 % 2 ^ 11 = e.toNat := by
  rw [← BitVec.toNat_inj, toNat_unpackExponent]

theorem unpackMantissa_eq_zero_iff :
    @UnpackedFloat.unpackMantissa binary64 b = 0#52 ↔ b.toNat % 2 ^ 52 = 0 := by
  rw [← BitVec.toNat_inj, toNat_unpackMantissa]
  rfl

theorem ofBitVec_unpackSign :
    UnpackedFloat.Sign.ofBitVec (@UnpackedFloat.unpackSign binary64 b) =
      signOf (signBit ≤ b.toNat) := by
  have hb := b.isLt
  have hsign : @UnpackedFloat.unpackSign binary64 b = 0#1 ↔ b.toNat < signBit := by
    unfold UnpackedFloat.unpackSign signBit
    rw [← BitVec.toNat_inj, BitVec.toNat_cast, BitVec.extractLsb_toNat, Nat.shiftRight_eq_div_pow]
    simp
    omega
  unfold UnpackedFloat.Sign.ofBitVec signOf
  by_cases hnegative : b.toNat < signBit
  · rw [if_pos (hsign.2 hnegative), if_neg (by simpa using hnegative)]
  · rw [if_neg (mt hsign.1 hnegative), if_pos (by simpa using hnegative)]

variable {b}

theorem unpack_zero (hzero : b.toNat % signBit = 0) :
    UnpackedFloat.unpack binary64 b = .zero (signOf (signBit ≤ b.toNat)) := by
  unfold signBit at hzero
  unfold UnpackedFloat.unpack
  rw [if_neg (mt (unpackExponent_eq_iff b _).1 (by simp; omega)),
    if_pos ((unpackExponent_eq_iff b _).2 (by simp; omega)),
    dif_pos ((unpackMantissa_eq_zero_iff b).2 (by omega)), ofBitVec_unpackSign]

theorem unpack_infinity (hinfinity : b.toNat % signBit = infinityBits) :
    UnpackedFloat.unpack binary64 b = .infinity (signOf (signBit ≤ b.toNat)) := by
  unfold signBit infinityBits at hinfinity
  unfold UnpackedFloat.unpack
  rw [if_pos ((unpackExponent_eq_iff b _).2 (by simp; omega)),
    if_pos ((unpackMantissa_eq_zero_iff b).2 (by omega)), ofBitVec_unpackSign]

theorem toNat_one_append (m : BitVec 52) : (1#1 ++ m).toNat = hiddenBit + m.toNat := by
  rw [BitVec.toNat_append, ← Nat.shiftLeft_add_eq_or_of_lt m.isLt]
  rfl

/-- Between zero and infinity the bits are unpacked into their canonical number. -/
theorem unpack_finite (hpos : 0 < b.toNat % signBit) (hlt : b.toNat % signBit < infinityBits) :
    UnpackedFloat.unpack binary64 b =
      .finite (signOf (signBit ≤ b.toNat)) (Dyadic.ofBits (b.toNat % signBit)).mantissa
        (Dyadic.ofBits (b.toNat % signBit)).exponent (Dyadic.isCanonical_ofBits hpos).pos := by
  have hbias : (binary64.exponentBias : Int) = 1023 := rfl
  have hlength : (binary64.mantissaBitsWithoutImplicit : Int) = 52 := rfl
  have hexponent := toNat_unpackExponent b
  have hmantissa := toNat_unpackMantissa b
  unfold signBit at hpos hlt
  unfold infinityBits at hlt
  unfold UnpackedFloat.unpack
  rw [if_neg (mt (unpackExponent_eq_iff b _).1 (by simp; omega)), ofBitVec_unpackSign]
  unfold Dyadic.ofBits signBit
  by_cases hsubnormal : b.toNat % 0x8000000000000000 < hiddenBit
  · have hexponentZero := (unpackExponent_eq_iff b 0#11).2
      (by unfold hiddenBit at hsubnormal; simp; omega)
    have hmantissaPos := mt (unpackMantissa_eq_zero_iff b).1
      (by unfold hiddenBit at hsubnormal; omega)
    rw [if_pos hexponentZero, dif_neg hmantissaPos]
    simp only [if_pos hsubnormal]
    unfold hiddenBit at hsubnormal
    congr 1
    · omega
    · rw [hbias, hlength, hexponent]
      omega
  · have hexponentPos := mt (unpackExponent_eq_iff b 0#11).1
      (by unfold hiddenBit at hsubnormal; simp; omega)
    rw [if_neg hexponentPos]
    simp only [if_neg hsubnormal, toNat_one_append]
    unfold hiddenBit at hsubnormal ⊢
    congr 1
    · omega
    · rw [hbias, hlength, hexponent]
      omega

end Unpacking

/-! ### Doubles by sign and magnitude -/

/-- Doubles are their bits. -/
theorem ext_toBits {x y : Float} (hbits : x.toBits.toNat = y.toBits.toNat) : x = y :=
  Float.toBits_inj.1 (UInt64.toNat_inj.1 hbits)

theorem toNat_toBits_ofModel_pack (f : UnpackedFloat) :
    (Float.ofModel (.pack f)).toBits.toNat = (UnpackedFloat.pack binary64 f).toNat := rfl

theorem isNaNBits_eq_false {b : BitVec 64} (hle : b.toNat % signBit ≤ infinityBits) :
    @UnpackedFloat.isNaNBits binary64 b = false := by
  unfold signBit infinityBits at hle
  unfold UnpackedFloat.isNaNBits
  rw [decide_eq_false_iff_not, unpackExponent_eq_iff, ne_eq, unpackMantissa_eq_zero_iff]
  simp
  omega

section

variable (negative : Bool) {bits : Nat} (hbits : bits ≤ infinityBits)

include hbits

theorem toNat_toBits_ofMagnitude :
    (ofMagnitude negative bits).toBits.toNat = signBits negative + bits := by
  have hsum : (if negative then bits + signBit else bits) = signBits negative + bits := by
    unfold signBits
    cases negative
    · simp
    · simp [Nat.add_comm]
  have hlt : signBits negative + bits < 2 ^ 64 := by
    unfold infinityBits at hbits
    unfold signBits signBit
    split <;> omega
  have hmagnitude : (signBits negative + bits) % signBit = bits := by
    unfold infinityBits at hbits
    unfold signBits signBit
    split <;> omega
  have hword : (UInt64.ofNat (signBits negative + bits)).toBitVec.toNat = signBits negative + bits :=
    (UInt64.toNat_ofNat (n := signBits negative + bits)).trans (Nat.mod_eq_of_lt hlt)
  unfold ofMagnitude Float.ofBits Float.Model.ofBits
  rw [hsum, toNat_toBits_ofModel_pack, UnpackedFloat.pack_unpack, isNaNBits_eq_false]
  · exact hword
  · rw [hword, hmagnitude]
    exact hbits

theorem magnitude_ofMagnitude : magnitude (ofMagnitude negative bits) = bits := by
  rw [magnitude, toNat_toBits_ofMagnitude negative hbits]
  unfold infinityBits at hbits
  unfold signBits signBit
  split <;> omega

theorem isNegative_ofMagnitude : isNegative (ofMagnitude negative bits) = negative := by
  rw [isNegative, toNat_toBits_ofMagnitude negative hbits]
  unfold infinityBits at hbits
  unfold signBits signBit
  cases negative
  · simp
    omega
  · simp

end

/-- A double that is a number is its sign and its magnitude. -/
theorem ofMagnitude_magnitude {x : Float} (hx : magnitude x ≤ infinityBits) :
    ofMagnitude (isNegative x) (magnitude x) = x := by
  apply ext_toBits
  rw [toNat_toBits_ofMagnitude _ hx]
  have hlt := x.toBits.toNat_lt
  unfold signBits isNegative magnitude signBit
  by_cases hnegative : 0x8000000000000000 ≤ x.toBits.toNat
  · simp [hnegative]
    omega
  · simp [hnegative]
    omega

inductive IsUnpacked (negative : Bool) : Nat → UnpackedFloat → Prop
  | zero : IsUnpacked negative 0 (.zero (signOf negative))
  | finite {bits : Nat} (hpos : 0 < bits) (hlt : bits < infinityBits) :
    IsUnpacked negative bits (.finite (signOf negative) (Dyadic.ofBits bits).mantissa
      (Dyadic.ofBits bits).exponent (Dyadic.isCanonical_ofBits hpos).pos)
  | infinity : IsUnpacked negative infinityBits (.infinity (signOf negative))

/-- Unpacking a double that is a number gives its sign and its dyadic. -/
theorem isUnpacked_unpack {x : Float} (hx : magnitude x ≤ infinityBits) :
    IsUnpacked (isNegative x) (magnitude x) x.toModel.unpack := by
  have hunpack : x.toModel.unpack = UnpackedFloat.unpack binary64 x.toBits.toBitVec := rfl
  rw [hunpack]
  rcases Nat.eq_zero_or_pos (magnitude x) with hzero | hpos
  · rw [unpack_zero hzero, hzero]
    exact .zero
  rcases hx.eq_or_lt with hinfinity | hlt
  · rw [unpack_infinity hinfinity, hinfinity]
    exact .infinity
  · rw [unpack_finite hpos hlt]
    exact .finite hpos hlt

theorem unpack_toModel_finite {x : Float} (hpos : 0 < magnitude x)
    (hlt : magnitude x < infinityBits) :
    x.toModel.unpack = .finite (signOf (isNegative x)) (Dyadic.ofBits (magnitude x)).mantissa
      (Dyadic.ofBits (magnitude x)).exponent (Dyadic.isCanonical_ofBits hpos).pos :=
  unpack_finite hpos hlt

theorem isUnpacked_unpack_ofMagnitude (negative : Bool) {bits : Nat} (hbits : bits ≤ infinityBits) :
    IsUnpacked negative bits (ofMagnitude negative bits).toModel.unpack := by
  have hunpacked := isUnpacked_unpack (x := ofMagnitude negative bits)
    (by rwa [magnitude_ofMagnitude negative hbits])
  rwa [magnitude_ofMagnitude negative hbits, isNegative_ofMagnitude negative hbits] at hunpacked

theorem ofModel_pack_zero (negative : Bool) :
    Float.ofModel (.pack (.zero (signOf negative))) = ofMagnitude negative 0 := by
  apply ext_toBits
  rw [toNat_toBits_ofMagnitude negative (Nat.zero_le _), toNat_toBits_ofModel_pack]
  cases negative <;> rfl

/-- Packing a canonical dyadic gives its bits, or infinity beyond the largest. -/
theorem ofModel_pack_finite (negative : Bool) {d : Dyadic} (hd : d.IsCanonical) :
    Float.ofModel (.pack (.finite (signOf negative) d.mantissa d.exponent hd.pos)) =
      ofMagnitude negative (min d.toBits infinityBits) := by
  apply ext_toBits
  rw [toNat_toBits_ofMagnitude negative (Nat.min_le_right _ _), toNat_toBits_ofModel_pack,
    toNat_pack_finite negative hd]

theorem ofModel_pack_infinity (negative : Bool) :
    Float.ofModel (.pack (.infinity (signOf negative))) = ofMagnitude negative infinityBits := by
  apply ext_toBits
  rw [toNat_toBits_ofMagnitude negative le_rfl, toNat_toBits_ofModel_pack]
  exact toNat_packedInfinity negative

/-- What the bits of a magnitude are unpacked into is packed into those bits. -/
theorem IsUnpacked.ofModel_pack {negative : Bool} {bits : Nat} {u : UnpackedFloat}
    (hu : IsUnpacked negative bits u) : Float.ofModel (.pack u) = ofMagnitude negative bits := by
  cases hu with
  | zero => exact ofModel_pack_zero negative
  | finite hpos hlt =>
    rw [ofModel_pack_finite negative (Dyadic.isCanonical_ofBits hpos), Dyadic.toBits_ofBits,
      min_eq_left hlt.le]
  | infinity => exact ofModel_pack_infinity negative

end FormExpr.Binary64
