import Facet.Proofs.NearestRounding

namespace Facet

open Float.Model Float.Model.UnpackedFloat

def signOf (x : Float) : Sign :=
  if isNegative x then .negative else .positive

def bitVecOf (x : Float) : BitVec Format.binary64.numBits :=
  x.toBits.toBitVec

theorem toNat_bitVecOf (x : Float) : (bitVecOf x).toNat = x.toBits.toNat :=
  rfl

theorem ofBitVec_unpackSign (x : Float) : Sign.ofBitVec (unpackSign (bitVecOf x)) = signOf x := by
  have hlt := x.toBits.toNat_lt
  have hbit := toNat_unpackSign (bitVecOf x)
  rw [toNat_bitVecOf] at hbit
  have hnegative : isNegative x = true ↔ 2 ^ 63 ≤ x.toBits.toNat := decide_eq_true_iff
  by_cases h : 2 ^ 63 ≤ x.toBits.toNat
  · have hone : unpackSign (bitVecOf x) = 1#1 := BitVec.eq_of_toNat_eq (by simp; omega)
    rw [hone, signOf, if_pos (hnegative.mpr h)]
    rfl
  · have hzero : unpackSign (bitVecOf x) = 0#1 := BitVec.eq_of_toNat_eq (by simp; omega)
    rw [hzero, signOf, if_neg (mt hnegative.mp h)]
    rfl

theorem magnitudeBits_eq_add (x : Float) :
    magnitudeBits x = (unpackExponent (bitVecOf x)).toNat * 2 ^ 52 +
      (unpackMantissa (bitVecOf x)).toNat := by
  rw [magnitudeBits_eq, toNat_unpackExponent, toNat_unpackMantissa, toNat_bitVecOf]
  omega

theorem finite_congr {s : Sign} {m n : Nat} {e f : Int} {hm : 0 < m} {hn : 0 < n} (hdigits : m = n)
    (hexponent : e = f) : UnpackedFloat.finite s m e hm = .finite s n f hn := by
  subst hdigits hexponent
  rfl

section Unpacking

variable {x : Float}

theorem unpack_of_zero (h : magnitudeBits x = 0) : x.toModel.unpack = .zero (signOf x) := by
  rw [magnitudeBits_eq_add] at h
  have hexponent : unpackExponent (bitVecOf x) = 0#11 := BitVec.eq_of_toNat_eq (by simp; omega)
  have hmantissa : unpackMantissa (bitVecOf x) = 0#52 := BitVec.eq_of_toNat_eq (by simp; omega)
  change UnpackedFloat.unpack .binary64 (bitVecOf x) = _
  simp only [UnpackedFloat.unpack, ofBitVec_unpackSign]
  rw [if_neg (by rw [hexponent]; decide), if_pos hexponent, dif_pos hmantissa]

/-- A finite number that is not zero is taken apart into the digits and the doublings of its
magnitude. -/
theorem unpack_of_finite (hpos : 0 < magnitudeBits x) (hlt : magnitudeBits x < infinityBits) :
    x.toModel.unpack = .finite (signOf x) (significand (magnitudeBits x))
      (doublings (magnitudeBits x) - 1074) (significand_pos hpos) := by
  have hinfinity := infinityBits_eq
  have hbits := magnitudeBits_eq_add x
  have hmant := (unpackMantissa (bitVecOf x)).isLt
  change _ < 2 ^ 52 at hmant
  have hfinite : unpackExponent (bitVecOf x) ≠ -1#11 := by
    intro hones
    have hexp : (unpackExponent (bitVecOf x)).toNat = 2047 := congrArg BitVec.toNat hones
    omega
  change UnpackedFloat.unpack .binary64 (bitVecOf x) = _
  simp only [UnpackedFloat.unpack, ofBitVec_unpackSign]
  rw [if_neg hfinite]
  by_cases hsub : unpackExponent (bitVecOf x) = 0#11
  · have hexp : (unpackExponent (bitVecOf x)).toNat = 0 := congrArg BitVec.toNat hsub
    have hmantissa : unpackMantissa (bitVecOf x) ≠ 0#52 := by
      intro hzero
      have hdigits : (unpackMantissa (bitVecOf x)).toNat = 0 := congrArg BitVec.toNat hzero
      omega
    rw [if_pos hsub, dif_neg hmantissa]
    apply finite_congr
    · rw [significand_eq, if_pos (by omega)]
      omega
    · have hdoublings : doublings (magnitudeBits x) = 0 := by
        rw [doublings, Nat.shiftRight_eq_div_pow]
        omega
      rw [hexp, hdoublings]
      rfl
  · have hexp : 0 < (unpackExponent (bitVecOf x)).toNat :=
      Nat.pos_of_ne_zero fun h => hsub (BitVec.eq_of_toNat_eq h)
    rw [if_neg hsub]
    apply finite_congr
    · have hdigits := toNat_append_eq_add 1#1 (unpackMantissa (bitVecOf x))
      rw [significand_eq, if_neg (by omega)]
      refine hdigits.trans ?_
      change 2 ^ 52 * 1 + _ = _
      omega
    · have hdoublings : doublings (magnitudeBits x) = (unpackExponent (bitVecOf x)).toNat - 1 := by
        rw [doublings, Nat.shiftRight_eq_div_pow]
        omega
      rw [hdoublings]
      change ((unpackExponent (bitVecOf x)).toNat : Int) - ((1023 : Nat) + (52 : Nat)) = _
      omega

theorem unpack_of_infinity (h : magnitudeBits x = infinityBits) :
    x.toModel.unpack = .infinity (signOf x) := by
  have hinfinity := infinityBits_eq
  have hmant := (unpackMantissa (bitVecOf x)).isLt
  rw [magnitudeBits_eq_add] at h
  have hones : unpackExponent (bitVecOf x) = -1#11 := BitVec.eq_of_toNat_eq (by
    change _ = 2047
    change _ < 2 ^ 52 at hmant
    omega)
  have hmantissa : unpackMantissa (bitVecOf x) = 0#52 := BitVec.eq_of_toNat_eq (by
    change _ < 2 ^ 52 at hmant
    simp
    omega)
  change UnpackedFloat.unpack .binary64 (bitVecOf x) = _
  simp only [UnpackedFloat.unpack, ofBitVec_unpackSign]
  rw [if_pos hones, if_pos hmantissa]

theorem unpack_of_nan (h : infinityBits < magnitudeBits x) : x.toModel.unpack = .notANumber := by
  have hinfinity := infinityBits_eq
  have hmant := (unpackMantissa (bitVecOf x)).isLt
  have hexp := (unpackExponent (bitVecOf x)).isLt
  change _ < 2 ^ 52 at hmant
  change _ < 2 ^ 11 at hexp
  rw [magnitudeBits_eq_add] at h
  have hones : unpackExponent (bitVecOf x) = -1#11 := BitVec.eq_of_toNat_eq (by
    change _ = 2047
    omega)
  have hmantissa : unpackMantissa (bitVecOf x) ≠ 0#52 := by
    intro hzero
    have := congrArg BitVec.toNat hzero
    simp at this
    omega
  change UnpackedFloat.unpack .binary64 (bitVecOf x) = _
  simp only [UnpackedFloat.unpack]
  rw [if_pos hones, if_neg hmantissa]

end Unpacking

end Facet
