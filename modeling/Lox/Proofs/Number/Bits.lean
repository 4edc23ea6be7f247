import Lox.Number.Written

/-!
# Numbers and their places

A number is the same as its bits, and the bits of a number without a sign are its place. So a number
that is not negative is told by its place, and every place up to infinity's is that of a number.
-/

namespace Lox.Number

open Float.Model (Format UnpackedFloat)
open Float.Model.UnpackedFloat

theorem toBitVec_ofBitVec (sign : BitVec 1) : (Sign.ofBitVec sign).toBitVec = sign := by
  rcases BitVec.eq_zero_or_eq_one sign with rfl | rfl <;> rfl

/-- The sign is the last bit. -/
theorem unpackSign_eq (b : BitVec Format.binary64.numBits) :
    unpackSign b = (b.extractLsb 63 63).cast rfl :=
  rfl

theorem packComponents_unpack (b : BitVec Format.binary64.numBits) :
    packComponents Format.binary64 (Sign.ofBitVec (unpackSign b)) (unpackExponent b)
      (unpackMantissa b) = b := by
  unfold packComponents
  rw [toBitVec_ofBitVec]
  apply BitVec.eq_of_getLsbD_eq
  intro i small
  change i < 64 at small
  simp only [unpackSign_eq, unpackExponent, unpackMantissa, BitVec.getLsbD_append,
    BitVec.getLsbD_cast, BitVec.getLsbD_extractLsb]
  by_cases low : i < 52
  · simp [low]
  · by_cases middle : i - 52 < 11
    · have same : 52 + (i - 52) = i := by omega
      simp [low, middle, same]
    · have same : 52 + 11 + (i - 52 - 11) = i := by omega
      have one : i - 52 - 11 < 1 := by omega
      simp [low, middle, same, one]

/-- A finite number that is not too large is packed with the bit in front left out, if it has that bit. -/
theorem pack_finite {sign : Sign} {mantissa biased : Nat} {exponent : Int} {positive : 0 < mantissa}
    (known : (exponent + Format.binary64.exponentBias +
      Format.binary64.mantissaBitsWithoutImplicit).toNat = biased)
    (range : biased + 1 < 2048) :
    pack Format.binary64 (.finite sign mantissa exponent positive) =
      packComponents Format.binary64 sign (if mantissa.log2 = 52 then BitVec.ofNat _ biased else 0)
        (BitVec.ofNat _ mantissa) := by
  subst known
  refine (if_neg (Nat.not_le.mpr range)).trans ?_
  by_cases full : mantissa.log2 = 52
  · rw [if_pos full]
    exact if_pos (congrArg (· + 1) full)
  · rw [if_neg full]
    exact if_neg fun same => full (Nat.succ.inj same)

section

variable {b : BitVec Format.binary64.numBits}

theorem pack_subnormal (small : unpackExponent b = 0#11) {positive : 0 < (unpackMantissa b).toNat} :
    pack Format.binary64 (.finite (Sign.ofBitVec (unpackSign b)) (unpackMantissa b).toNat
      ((unpackExponent b).toNat - (Format.binary64.exponentBias +
        Format.binary64.mantissaBitsWithoutImplicit) + 1) positive) = b := by
  have parts := packComponents_unpack b
  rw [small] at parts
  have few : (unpackMantissa b).toNat.log2 < 52 := by
    rw [Nat.log2_lt (Nat.ne_of_gt positive)]
    exact (unpackMantissa b).isLt
  have one : ((unpackExponent b).toNat - ((1023 : Int) + (52 : Nat)) + 1 + 1023 + (52 : Nat)).toNat = 1 := by
    rw [small]
    rfl
  refine (pack_finite one (by decide)).trans ?_
  rw [if_neg (Nat.ne_of_lt few), BitVec.ofNat_toNat, BitVec.setWidth_eq]
  exact parts

/-- The bit in front of a fraction. -/
theorem toNat_implicit : (1#1 ++ unpackMantissa b).toNat = 2 ^ 52 + (unpackMantissa b).toNat := by
  have joined := Nat.two_pow_add_eq_or_of_lt (unpackMantissa b).isLt 1
  rw [Nat.mul_one] at joined
  rw [BitVec.toNat_append, Nat.shiftLeft_eq, Nat.mul_comm]
  exact joined.symm

theorem pack_normal (below : unpackExponent b ≠ -1#11) {positive : 0 < (1#1 ++ unpackMantissa b).toNat} :
    pack Format.binary64 (.finite (Sign.ofBitVec (unpackSign b)) (1#1 ++ unpackMantissa b).toNat
      ((unpackExponent b).toNat - (Format.binary64.exponentBias +
        Format.binary64.mantissaBitsWithoutImplicit)) positive) = b := by
  have fraction : (unpackMantissa b).toNat < 2 ^ 52 := (unpackMantissa b).isLt
  have range : (unpackExponent b).toNat + 1 < 2048 := by
    have wide : (unpackExponent b).toNat < 2048 := (unpackExponent b).isLt
    have other : (unpackExponent b).toNat ≠ 2047 := fun full => below (BitVec.eq_of_toNat_eq full)
    omega
  -- The bit in front is the highest one, so the fraction does not bear on the size.
  have log : (2 ^ 52 + (unpackMantissa b).toNat).log2 = 52 := by
    rw [Nat.log2_eq_iff (by omega)]
    omega
  have exponent :
      ((unpackExponent b).toNat - ((1023 : Int) + (52 : Nat)) + 1023 + (52 : Nat)).toNat =
        (unpackExponent b).toNat := by omega
  have mantissa : BitVec.ofNat 52 (2 ^ 52 + (unpackMantissa b).toNat) = unpackMantissa b := by
    apply BitVec.eq_of_toNat_eq
    rw [BitVec.toNat_ofNat, Nat.add_mod_left, Nat.mod_eq_of_lt fraction]
  refine (pack_finite exponent range).trans ?_
  rw [toNat_implicit, if_pos log, mantissa, BitVec.ofNat_toNat, BitVec.setWidth_eq]
  exact packComponents_unpack b

/-- Bits that are valid are packed as they were unpacked. -/
theorem pack_unpack (valid : Format.binary64.Valid b) :
    pack Format.binary64 (unpack Format.binary64 b) = b := by
  have parts := packComponents_unpack b
  -- An exponent of ones only, one of zeros only and any other make three classes.
  unfold unpack
  dsimp only
  by_cases infinite : unpackExponent b = -1#11
  · rw [if_pos infinite]
    by_cases whole : unpackMantissa b = 0#52
    · rw [if_pos whole]
      rw [infinite, whole] at parts
      exact parts
    · rw [if_neg whole]
      exact (valid.eq_packedNaN infinite whole).symm
  · rw [if_neg infinite]
    by_cases small : unpackExponent b = 0#11
    · rw [if_pos small]
      by_cases zero : unpackMantissa b = 0#52
      · rw [dif_pos zero]
        rw [small, zero] at parts
        exact parts
      · rw [dif_neg zero]
        exact pack_subnormal small
    · rw [if_neg small]
      exact pack_normal infinite

end

theorem model_ext {one other : Float.Model} (same : one.toBits = other.toBits) : one = other := by
  cases one
  cases other
  cases same
  rfl

/-- A number is told by its bits. -/
theorem ofBits_toBits (v : Float) : Float.ofBits v.toBits = v := by
  obtain ⟨bits, valid⟩ := v
  exact congrArg Float.ofModel (model_ext (congrArg UInt64.ofBitVec (pack_unpack valid)))

theorem toNat_unpackExponent (b : BitVec Format.binary64.numBits) :
    (unpackExponent b).toNat = b.toNat / 2 ^ 52 % 2 ^ 11 := by
  simp only [unpackExponent, BitVec.toNat_cast, BitVec.extractLsb_toNat, Nat.shiftRight_eq_div_pow]

theorem toNat_unpackMantissa (b : BitVec Format.binary64.numBits) :
    (unpackMantissa b).toNat = b.toNat % 2 ^ 52 := by
  simp only [unpackMantissa, BitVec.toNat_cast, BitVec.extractLsb_toNat]
  rfl

/-- Up to infinity's, the bits at a place are those of a number. -/
theorem valid_of_le {b : BitVec Format.binary64.numBits} (small : b.toNat ≤ infinityPlace) :
    Format.binary64.Valid b := by
  refine ⟨fun infinite fraction => absurd ?_ fraction⟩
  have exponent := congrArg BitVec.toNat infinite
  apply BitVec.eq_of_toNat_eq
  rw [toNat_unpackExponent] at exponent
  rw [toNat_unpackMantissa]
  change b.toNat / 2 ^ 52 % 2 ^ 11 = 2047 at exponent
  change b.toNat % 2 ^ 52 = 0
  unfold infinityPlace at small
  omega

theorem toBits_ofBits {bits : UInt64} (small : bits.toNat ≤ infinityPlace) :
    (Float.ofBits bits).toBits = bits := by
  have same := pack_unpack (valid_of_le (b := bits.toBitVec) small)
  exact congrArg UInt64.ofBitVec same

/-! ### Numbers by their place -/

/-- A number without a sign is told by its place. -/
theorem ofPlace_place {v : Float} (positive : isNegative v = false) : ofPlace false (place v) = v := by
  have small : v.toBits.toNat < 2 ^ 63 := by simpa [isNegative] using positive
  unfold ofPlace place
  simp only [Bool.false_eq_true, if_false]
  rw [Nat.mod_eq_of_lt small, UInt64.ofNat_toNat, ofBits_toBits]

section

variable {p : Nat} (small : p ≤ infinityPlace)

include small

theorem toBits_ofPlace : (ofPlace false p).toBits.toNat = p := by
  have fits : p < 2 ^ 64 := Nat.lt_of_le_of_lt small (by decide)
  have toNat : (UInt64.ofNat p).toNat = p := UInt64.toNat_ofNat_of_lt' fits
  unfold ofPlace
  simp only [Bool.false_eq_true, if_false]
  rw [toBits_ofBits (by rw [toNat]; exact small), toNat]

theorem place_ofPlace : place (ofPlace false p) = p := by
  unfold place
  rw [toBits_ofPlace small]
  exact Nat.mod_eq_of_lt (Nat.lt_of_le_of_lt small (by decide))

theorem isNegative_ofPlace : isNegative (ofPlace false p) = false := by
  unfold isNegative
  rw [toBits_ofPlace small, decide_eq_false_iff_not, Nat.not_le]
  exact Nat.lt_of_le_of_lt small (by decide)

theorem isNaN_ofPlace : isNaN (ofPlace false p) = false := by
  unfold isNaN
  rw [place_ofPlace small, decide_eq_false_iff_not, Nat.not_lt]
  exact small

end

end Lox.Number
