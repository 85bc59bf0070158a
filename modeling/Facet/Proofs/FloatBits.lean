import Facet.Binary64
import Mathlib

namespace Facet

open Float.Model Float.Model.UnpackedFloat

theorem toNat_append_eq_add {m n : Nat} (x : BitVec m) (y : BitVec n) :
    (x ++ y).toNat = 2 ^ n * x.toNat + y.toNat := by
  rw [BitVec.toNat_append, Nat.shiftLeft_eq, Nat.mul_comm, Nat.two_pow_add_eq_or_of_lt y.isLt]

theorem toNat_packComponents (s : Sign) (e : BitVec 11) (m : BitVec 52) :
    (packComponents .binary64 s e m).toNat =
      2 ^ 63 * s.toBitVec.toNat + 2 ^ 52 * e.toNat + m.toNat := by
  rw [packComponents, toNat_append_eq_add, toNat_append_eq_add]
  omega

theorem toNat_unpackSign (b : BitVec Format.binary64.numBits) :
    (unpackSign b).toNat = b.toNat / 2 ^ 63 % 2 := by
  simp [unpackSign, Nat.shiftRight_eq_div_pow]

theorem toNat_unpackExponent (b : BitVec Format.binary64.numBits) :
    (unpackExponent b).toNat = b.toNat / 2 ^ 52 % 2 ^ 11 := by
  simp [unpackExponent, Nat.shiftRight_eq_div_pow]

theorem toNat_unpackMantissa (b : BitVec Format.binary64.numBits) :
    (unpackMantissa b).toNat = b.toNat % 2 ^ 52 := by
  simp [unpackMantissa]

theorem pack_subnormal (s : Sign) {m : Nat} (hm : 0 < m) (hlt : m < 2 ^ 52) :
    UnpackedFloat.pack .binary64 (.finite s m (-1074) hm) =
      packComponents .binary64 s 0 (BitVec.ofNat 52 m) := by
  have hlog : ¬ m.log2 + 1 = Format.binary64.mantissaBits := by
    have := (Nat.log2_lt (by omega)).mpr hlt
    change ¬ m.log2 + 1 = 53
    omega
  rw [UnpackedFloat.pack, if_neg (by decide), if_neg hlog]
  rfl

theorem pack_normal (s : Sign) {e m : Nat} (hlt : e < 2047) (hm : m < 2 ^ 52) :
    UnpackedFloat.pack .binary64 (.finite s (2 ^ 52 + m) (e - 1075) (by omega)) =
      packComponents .binary64 s (BitVec.ofNat 11 e) (BitVec.ofNat 52 m) := by
  have hlog : (2 ^ 52 + m).log2 + 1 = Format.binary64.mantissaBits := by
    have : (2 ^ 52 + m).log2 = 52 := (Nat.log2_eq_iff (by omega)).mpr (by omega)
    exact congrArg (· + 1) this
  have hexp : ((e : Int) - 1075 + Format.binary64.exponentBias +
      Format.binary64.mantissaBitsWithoutImplicit).toNat = e := by
    change ((e : Int) - 1075 + (1023 : Nat) + (52 : Nat)).toNat = e
    omega
  have hmant : BitVec.ofNat 52 (2 ^ 52 + m) = BitVec.ofNat 52 m := by
    apply BitVec.eq_of_toNat_eq
    simp
  simp only [UnpackedFloat.pack, hexp]
  rw [if_neg (by omega), if_pos hlog]
  exact congrArg (packComponents .binary64 s (BitVec.ofNat 11 e)) hmant

theorem magnitudeBits_eq (x : Float) : magnitudeBits x = x.toBits.toNat % 2 ^ 63 :=
  rfl

theorem magnitudeBits_add_sign (x : Float) :
    (if isNegative x then magnitudeBits x + 1 <<< 63 else magnitudeBits x) = x.toBits.toNat := by
  have := x.toBits.toNat_lt
  rw [magnitudeBits_eq]
  unfold isNegative
  split
  next h =>
    have := of_decide_eq_true h
    omega
  next h =>
    have := of_decide_eq_false (Bool.eq_false_iff.mpr h)
    omega

theorem signedFloat_bits (x : Float) : signedFloat (isNegative x) (magnitudeBits x) = x := by
  rw [signedFloat, magnitudeBits_add_sign, UInt64.ofNat_toNat, Float.ofBits_toBits]

/-- There is one NaN. -/
theorem toBits_of_infinityBits_lt {x : Float} (h : infinityBits < magnitudeBits x) :
    x.toBits.toNat = infinityBits + 1 <<< 51 := by
  have hlt := x.toBits.toNat_lt
  have hinfinity : infinityBits = 2047 * 2 ^ 52 := by decide
  rw [magnitudeBits_eq, hinfinity] at h
  let b : BitVec Format.binary64.numBits := x.toBits.toBitVec
  have hones : unpackExponent b = (-1) := by
    apply BitVec.eq_of_toNat_eq
    rw [toNat_unpackExponent]
    change x.toBits.toNat / 2 ^ 52 % 2 ^ 11 = 2047
    omega
  have hne : unpackMantissa b ≠ 0 := by
    intro hzero
    have := congrArg BitVec.toNat hzero
    rw [toNat_unpackMantissa] at this
    change x.toBits.toNat % 2 ^ 52 = 0 at this
    omega
  exact congrArg BitVec.toNat (x.toModel.valid.eq_packedNaN hones hne)

end Facet
