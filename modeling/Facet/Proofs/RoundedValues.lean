import Facet.Proofs.RealValues

namespace Facet

open Float.Model Float.Model.UnpackedFloat

theorem pack_unpack (x : Float) : Float.ofModel (Float.Model.pack x.toModel.unpack) = x :=
  Float.ofBits_toBits x

theorem add_eq_pack (x y : Float) : x + y = Float.ofModel (Float.Model.pack
    (UnpackedFloat.add .binary64 x.toModel.unpack y.toModel.unpack)) :=
  rfl

theorem mul_eq_pack (x y : Float) : x * y = Float.ofModel (Float.Model.pack
    (UnpackedFloat.mul .binary64 x.toModel.unpack y.toModel.unpack)) :=
  rfl

theorem sqrt_eq_pack (x : Float) : x.sqrt = Float.ofModel (Float.Model.pack
    (UnpackedFloat.sqrt .binary64 x.toModel.unpack)) :=
  rfl

section Signs

variable {x : Float}

/-- The bits of a magnitude can be given either sign. -/
theorem toNat_pack_magnitude (s : Sign) {bits : Nat} (hpos : 0 < bits) (hlt : bits < infinityBits) :
    (UnpackedFloat.pack .binary64 (.finite s (significand bits) (doublings bits - 1074)
      (significand_pos hpos))).toNat = 2 ^ 63 * s.toBitVec.toNat + bits := by
  have hinfinity := infinityBits_eq
  rcases Nat.lt_or_ge bits (2 ^ 52) with hsub | hfull
  · have hzero : (0 : BitVec 11).toNat = 0 := rfl
    have hdigits : significand bits = bits := if_pos hsub
    have hdoublings : (doublings bits : Int) - 1074 = -1074 := by
      rw [doublings, Nat.shiftRight_eq_div_pow]
      omega
    simp only [hdigits, hdoublings]
    rw [pack_subnormal s hpos hsub, toNat_packComponents, BitVec.toNat_ofNat,
      Nat.mod_eq_of_lt hsub, hzero]
    omega
  · have hdigits : significand bits = 2 ^ 52 + bits % 2 ^ 52 := if_neg (Nat.not_lt.mpr hfull)
    have hmod : bits % 2 ^ 52 < 2 ^ 52 := Nat.mod_lt _ (by decide)
    simp only [hdigits]
    rw [toNat_pack_full s hmod, doublings, Nat.shiftRight_eq_div_pow]
    omega

theorem bits_of_magnitude (s : Sign) {bits : Nat} (hpos : 0 < bits) (hlt : bits < infinityBits) :
    let signed := Float.ofModel (Float.Model.pack
      (.finite s (significand bits) (doublings bits - 1074) (significand_pos hpos)))
    magnitudeBits signed = bits ∧ signOf signed = s :=
  bits_of_pack hlt.le (toNat_pack_magnitude s hpos hlt)

theorem bits_neg (h : magnitudeBits x ≤ infinityBits) :
    magnitudeBits (-x) = magnitudeBits x ∧ signOf (-x) = -signOf x := by
  have hneg : -x = Float.ofModel (Float.Model.pack x.toModel.unpack.neg) := rfl
  rw [hneg]
  rcases unpack_cases h with ⟨hbits, hunpack⟩ | ⟨hx, hunpack⟩ | ⟨hbits, hunpack⟩
  · rw [hunpack, hbits]
    exact bits_of_zero _
  · rw [hunpack]
    exact bits_of_magnitude _ hx.pos hx.lt_infinity
  · rw [hunpack, hbits]
    exact bits_of_infinity _

theorem bits_abs (h : magnitudeBits x ≤ infinityBits) :
    magnitudeBits x.abs = magnitudeBits x ∧ signOf x.abs = .positive := by
  have habs : x.abs = Float.ofModel (Float.Model.pack x.toModel.unpack.abs) := rfl
  rw [habs]
  rcases unpack_cases h with ⟨hbits, hunpack⟩ | ⟨hx, hunpack⟩ | ⟨hbits, hunpack⟩
  · rw [hunpack, hbits]
    exact bits_of_zero _
  · rw [hunpack]
    exact bits_of_magnitude _ hx.pos hx.lt_infinity
  · rw [hunpack, hbits]
    exact bits_of_infinity _

theorem unpack_neg (x : Float) : (-x).toModel.unpack = x.toModel.unpack.neg := by
  rcases Nat.lt_or_ge infinityBits (magnitudeBits x) with hnan | hnumber
  · have hneg : -x = Float.ofModel (Float.Model.pack x.toModel.unpack.neg) := rfl
    rw [unpack_of_nan hnan] at hneg ⊢
    rw [hneg]
    exact unpack_of_nan bits_of_notANumber
  · obtain ⟨hbits, hsign⟩ := bits_neg hnumber
    rcases unpack_cases hnumber with ⟨hzero, hunpack⟩ | ⟨hx, hunpack⟩ | ⟨hinfinite, hunpack⟩
    · rw [unpack_of_zero (hbits.trans hzero), hunpack, hsign]
      rfl
    · rw [unpack_of_finite (hbits ▸ hx.pos) (hbits ▸ hx.lt_infinity), hunpack]
      simp only [hbits, hsign, UnpackedFloat.neg]
    · rw [unpack_of_infinity (hbits.trans hinfinite), hunpack, hsign]
      rfl

theorem subtract_eq_add_neg (x y : Float) : x - y = x + -y := by
  have hsub : UnpackedFloat.sub .binary64 x.toModel.unpack y.toModel.unpack =
      UnpackedFloat.add .binary64 x.toModel.unpack (-y).toModel.unpack := by
    have happly (s : Sign) (m : Int) : (-s).apply m = -s.apply m := by
      cases s
      · exact (neg_neg m).symm
      · rfl
    rw [unpack_neg]
    cases x.toModel.unpack <;> cases y.toModel.unpack <;>
      simp only [UnpackedFloat.sub, UnpackedFloat.add, UnpackedFloat.neg, happly,
        Int.sub_eq_add_neg]
  exact congrArg (fun u => Float.ofModel (Float.Model.pack u)) hsub

theorem value_neg (h : IsFinite x) : value (-x) = -value x := by
  obtain ⟨hbits, hsign⟩ := bits_neg (Nat.le_of_lt h)
  rw [value_eq, value_eq, size, size, hbits, hsign, direction_neg, neg_mul, neg_div]

theorem value_abs (h : IsFinite x) : value x.abs = |value x| := by
  obtain ⟨hbits, hsign⟩ := bits_abs (Nat.le_of_lt h)
  rw [abs_value, value_eq, size, size, hbits, hsign, direction, one_mul]

theorem IsFinite.neg (h : IsFinite x) : IsFinite (-x) := by
  rw [IsFinite, (bits_neg (Nat.le_of_lt h)).1]
  exact h

theorem IsFinite.abs (h : IsFinite x) : IsFinite x.abs := by
  rw [IsFinite, (bits_abs (Nat.le_of_lt h)).1]
  exact h

end Signs

section Operations

variable {x y : Float}

theorem IsFinite.zero_or_nonzero (h : IsFinite x) : magnitudeBits x = 0 ∨ IsFiniteNonzero x :=
  (Nat.eq_zero_or_pos (magnitudeBits x)).imp_right fun hpos => ⟨hpos, h⟩

theorem isRounded_round (s : Sign) {m : Nat} (e : Int) (hm : 0 < m) :
    IsRounded (Float.ofModel (Float.Model.pack (UnpackedFloat.round .binary64 s m e)))
      (direction s * (m * 2 ^ e)) := by
  obtain ⟨k, hk⟩ := Int.eq_ofNat_of_zero_le
    (show 0 ≤ max (e - max (m.log2 + e - 52) (-1074)) 0 by omega)
  have hround : UnpackedFloat.round .binary64 s m e =
      roundWithAccuracy .binary64 s (m * 2 ^ k) (e - k) .exact := by
    have hshift : (e - max (m.log2 + e - 52) (-1074)).toNat = k := by omega
    simp only [UnpackedFloat.round, targetExponent_eq, decreaseExponent, hshift, Nat.shiftLeft_eq]
  have hlog : (m * 2 ^ k).log2 = m.log2 + k := by
    have hpos := Nat.two_pow_pos k
    rw [Nat.log2_eq_iff (Nat.mul_pos hm hpos).ne', Nat.add_right_comm, Nat.pow_add, Nat.pow_add]
    exact ⟨Nat.mul_le_mul_right _ (Nat.log2_self_le hm.ne'),
      Nat.mul_lt_mul_of_pos_right Nat.lt_log2_self hpos⟩
  obtain ⟨hnearest, hsign⟩ := bits_of_roundWithAccuracy s (isCutFrom_exact (m * 2 ^ k))
    (show e - k ≤ max ((m * 2 ^ k).log2 + (e - k) - 52) (-1074) by omega)
  have hmagnitude : direction s * (direction s * (m * 2 ^ e)) * 2 ^ (1074 : Int) =
      ((m * 2 ^ k : Nat) : ℝ) * 2 ^ (e - k + 1074) := by
    rw [← mul_assoc, direction_mul_self, one_mul, zpow_add₀ two_ne_zero, zpow_sub₀ two_ne_zero,
      zpow_natCast]
    push_cast
    field_simp
  rw [hround]
  refine ⟨?_, ?_⟩
  · rw [hsign, ← mul_assoc, direction_mul_self]
    positivity
  · rw [hsign, hmagnitude]
    exact hnearest

theorem isRounded_normalize (m e : Int) :
    IsRounded (Float.ofModel (Float.Model.pack (normalize .binary64 m e .positive)))
      (m * 2 ^ e) := by
  rw [UnpackedFloat.normalize]
  rcases Int.lt_trichotomy m 0 with hneg | rfl | hpos
  · have hrounded := isRounded_round .negative e (show 0 < (-m).toNat by omega)
    have hvalue : direction .negative * (((-m).toNat : ℝ) * 2 ^ e) = m * 2 ^ e := by
      have hdigits : (((-m).toNat : Int) : ℝ) = -m := by
        rw [Int.toNat_of_nonneg (by omega), Int.cast_neg]
      rw [direction, ← Int.cast_natCast (R := ℝ), hdigits]
      ring
    rw [Int.compare_eq_lt.mpr hneg]
    exact hvalue ▸ hrounded
  · rw [Int.compare_eq_eq.mpr rfl, Int.cast_zero, zero_mul]
    exact isRounded_zero (bits_of_zero _).1
  · have hrounded := isRounded_round .positive e (show 0 < m.toNat by omega)
    have hvalue : direction .positive * ((m.toNat : ℝ) * 2 ^ e) = m * 2 ^ e := by
      have hdigits : ((m.toNat : Int) : ℝ) = m := by
        rw [Int.toNat_of_nonneg (by omega)]
      rw [direction, ← Int.cast_natCast (R := ℝ), hdigits, one_mul]
    rw [Int.compare_eq_gt.mpr hpos]
    exact hvalue ▸ hrounded

/-- A number as a signed count of last places of any exponent that is not larger. -/
theorem value_eq_of_le {e : Int} (he : e ≤ doublings (magnitudeBits x) - 1074) :
    value x = (((signOf x).apply (significand (magnitudeBits x) <<<
      ((doublings (magnitudeBits x) : Int) - 1074 - e).toNat : Nat) : Int) : ℝ) * 2 ^ e := by
  obtain ⟨k, hk⟩ := Int.eq_ofNat_of_zero_le
    (show 0 ≤ (doublings (magnitudeBits x) : Int) - 1074 - e by omega)
  have hexponent : e = (doublings (magnitudeBits x) : Int) - 1074 - k := by omega
  have happly (s : Sign) (n : Nat) : ((s.apply n : Int) : ℝ) = direction s * n := by
    cases s <;> simp [Sign.apply, direction]
  rw [happly, hk, Int.toNat_natCast, Nat.shiftLeft_eq, hexponent, value_eq, size_eq,
    zpow_sub₀ two_ne_zero, zpow_sub₀ two_ne_zero, zpow_natCast, zpow_natCast]
  push_cast
  field_simp

theorem isRounded_add (hx : IsFinite x) (hy : IsFinite y) :
    IsRounded (x + y) (value x + value y) := by
  rcases hx.zero_or_nonzero with hxzero | hxpos <;> rcases hy.zero_or_nonzero with hyzero | hypos
  · rw [value_of_zero hxzero, value_of_zero hyzero, zero_add]
    apply isRounded_zero
    rw [add_eq_pack, unpack_of_zero hxzero, unpack_of_zero hyzero, UnpackedFloat.add]
    split <;> exact (bits_of_zero _).1
  · have hsum : UnpackedFloat.add .binary64 x.toModel.unpack y.toModel.unpack =
        y.toModel.unpack := by
      rw [unpack_of_zero hxzero, unpack_of_finite hypos.pos hy]
      rfl
    rw [add_eq_pack, hsum, pack_unpack, value_of_zero hxzero, zero_add]
    exact isRounded_value hy
  · have hsum : UnpackedFloat.add .binary64 x.toModel.unpack y.toModel.unpack =
        x.toModel.unpack := by
      rw [unpack_of_zero hyzero, unpack_of_finite hxpos.pos hx]
      rfl
    rw [add_eq_pack, hsum, pack_unpack, value_of_zero hyzero, add_zero]
    exact isRounded_value hx
  · obtain ⟨e, he⟩ : ∃ e, e = min ((doublings (magnitudeBits x) : Int) - 1074)
        (doublings (magnitudeBits y) - 1074) := ⟨_, rfl⟩
    rw [add_eq_pack, unpack_of_finite hxpos.pos hx, unpack_of_finite hypos.pos hy,
      UnpackedFloat.add]
    simp only [decreaseExponent, ← he]
    rw [value_eq_of_le (x := x) (show e ≤ _ by omega),
      value_eq_of_le (x := y) (show e ≤ _ by omega), ← add_mul, ← Int.cast_add]
    exact isRounded_normalize _ e

theorem isRounded_sub (hx : IsFinite x) (hy : IsFinite y) :
    IsRounded (x - y) (value x - value y) := by
  rw [subtract_eq_add_neg, sub_eq_add_neg, ← value_neg hy]
  exact isRounded_add hx hy.neg

theorem isRounded_mul (hx : IsFinite x) (hy : IsFinite y) :
    IsRounded (x * y) (value x * value y) := by
  rcases hx.zero_or_nonzero with hxzero | hxpos
  · rw [value_of_zero hxzero, zero_mul]
    apply isRounded_zero
    rw [mul_eq_pack, unpack_of_zero hxzero]
    rcases hy.zero_or_nonzero with hyzero | hypos
    · rw [unpack_of_zero hyzero]
      exact (bits_of_zero _).1
    · rw [unpack_of_finite hypos.pos hy]
      exact (bits_of_zero _).1
  · rcases hy.zero_or_nonzero with hyzero | hypos
    · rw [value_of_zero hyzero, mul_zero]
      apply isRounded_zero
      rw [mul_eq_pack, unpack_of_finite hxpos.pos hx, unpack_of_zero hyzero]
      exact (bits_of_zero _).1
    · obtain ⟨hnearest, hsign⟩ := nearest_mul hxpos hypos
      have hproduct : direction (signOf (x * y)) * (value x * value y) =
          size x * size y / 2 ^ (1074 : Int) / 2 ^ (1074 : Int) := by
        rw [hsign, direction_mul, mul_mul_mul_comm, direction_mul_value, direction_mul_value]
        ring
      exact isRounded_of_nearest hproduct (by unfold size; positivity) hnearest

theorem isRounded_div (hx : IsFinite x) (hy : IsFiniteNonzero y) :
    IsRounded (x / y) (value x / value y) := by
  rcases hx.zero_or_nonzero with hzero | hpos
  · rw [value_of_zero hzero, zero_div]
    apply isRounded_zero
    rw [div_eq_pack, unpack_of_zero hzero, unpack_of_finite hy.pos hy.lt_infinity]
    exact (bits_of_zero _).1
  · obtain ⟨hnearest, hsign⟩ := nearest_div hpos hy
    have hquotient : direction (signOf (x / y)) * (value x / value y) =
        size x / size y * 2 ^ (1074 : Int) / 2 ^ (1074 : Int) := by
      rw [hsign, direction_div, direction_mul_value, direction_mul_value,
        div_div_div_cancel_right₀ two_zpow_pos.ne', mul_div_cancel_right₀ _ two_zpow_pos.ne']
    exact isRounded_of_nearest hquotient (by unfold size; positivity) hnearest

theorem signOf_of_nonneg (hpos : 0 < magnitudeBits x) (h : 0 ≤ value x) : signOf x = .positive := by
  cases hsign : signOf x with
  | positive => rfl
  | negative =>
    have hsize := one_le_size hpos
    have hopposite := direction_mul_value x
    rw [hsign, direction] at hopposite
    have hpos : 0 < size x / 2 ^ (1074 : Int) := div_pos (by linarith) two_zpow_pos
    linarith

theorem isRounded_sqrt (hx : IsFinite x) (h : 0 ≤ value x) : IsRounded x.sqrt √(value x) := by
  rcases hx.zero_or_nonzero with hzero | hpos
  · rw [value_of_zero hzero, Real.sqrt_zero]
    apply isRounded_zero
    rw [sqrt_eq_pack, unpack_of_zero hzero]
    exact (bits_of_zero _).1
  · have hpositive := signOf_of_nonneg hpos.pos h
    obtain ⟨hnearest, hsign⟩ := nearest_sqrt hpos hpositive
    have hroot : direction (signOf x.sqrt) * √(value x) =
        √(size x * 2 ^ (1074 : Int)) / 2 ^ (1074 : Int) := by
      have hscale := two_zpow_pos
      have hsquare : value x = size x * 2 ^ (1074 : Int) / (2 ^ (1074 : Int)) ^ 2 := by
        rw [value_eq, hpositive, direction]
        field_simp
      rw [hsign, direction, one_mul, hsquare, Real.sqrt_div' _ (by positivity),
        Real.sqrt_sq hscale.le]
    exact isRounded_of_nearest hroot (Real.sqrt_nonneg _) hnearest

end Operations

section Inversion

variable {x y : Float}

theorem isFinite_iff (x : Float) : IsFinite x ↔ x.toModel.unpack.isFinite = true := by
  rcases Nat.lt_or_ge infinityBits (magnitudeBits x) with hnan | hnumber
  · rw [unpack_of_nan hnan]
    exact iff_of_false (Nat.not_lt.mpr hnan.le) nofun
  · rcases unpack_cases hnumber with ⟨hzero, hunpack⟩ | ⟨hx, hunpack⟩ | ⟨hinfinite, hunpack⟩
    · rw [hunpack, IsFinite, hzero]
      exact iff_of_true (by decide) rfl
    · rw [hunpack]
      exact iff_of_true hx.lt_infinity rfl
    · rw [hunpack, IsFinite, hinfinite]
      exact iff_of_false (Nat.lt_irrefl _) nofun

theorem isFinite_of_pack {u : UnpackedFloat} (h : IsFinite (Float.ofModel (Float.Model.pack u))) :
    u.isFinite = true := by
  cases u with
  | infinity s =>
    rw [IsFinite, (bits_of_infinity s).1] at h
    exact absurd h (Nat.lt_irrefl _)
  | notANumber => exact absurd h (Nat.not_lt.mpr bits_of_notANumber.le)
  | zero s => rfl
  | finite s m e hm => rfl

theorem IsFinite.of_add (h : IsFinite (x + y)) : IsFinite x ∧ IsFinite y := by
  have hsum : (UnpackedFloat.add .binary64 x.toModel.unpack y.toModel.unpack).isFinite = true :=
    isFinite_of_pack h
  rw [isFinite_iff, isFinite_iff]
  revert hsum
  cases x.toModel.unpack <;> cases y.toModel.unpack <;>
    simp only [UnpackedFloat.add, apply_ite UnpackedFloat.isFinite] <;>
    simp [UnpackedFloat.isFinite]

theorem IsFinite.of_mul (h : IsFinite (x * y)) : IsFinite x ∧ IsFinite y := by
  have hproduct : (UnpackedFloat.mul .binary64 x.toModel.unpack y.toModel.unpack).isFinite = true :=
    isFinite_of_pack h
  rw [isFinite_iff, isFinite_iff]
  revert hproduct
  cases x.toModel.unpack <;> cases y.toModel.unpack <;>
    simp [UnpackedFloat.mul, UnpackedFloat.isFinite]

theorem IsFinite.of_sqrt (h : IsFinite x.sqrt) : IsFinite x := by
  have hroot : (UnpackedFloat.sqrt .binary64 x.toModel.unpack).isFinite = true := isFinite_of_pack h
  rw [isFinite_iff]
  revert hroot
  cases x.toModel.unpack with
  | infinity s => cases s <;> exact id
  | notANumber => exact id
  | zero s => exact fun _ => rfl
  | finite s m e hm => exact fun _ => rfl

end Inversion

end Facet
