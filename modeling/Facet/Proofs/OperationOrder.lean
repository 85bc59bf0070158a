import Facet.Proofs.RoundedOperations

namespace Facet

open Float.Model Float.Model.UnpackedFloat

/-- A number above zero, or infinity. -/
structure IsPositive (x : Float) : Prop where
  sign : signOf x = .positive
  pos : 0 < magnitudeBits x
  le_infinity : magnitudeBits x ≤ infinityBits

theorem isNegative_eq_of_signOf {x y : Float} (h : signOf x = signOf y) :
    isNegative x = isNegative y := by
  unfold signOf at h
  cases hx : isNegative x <;> cases hy : isNegative y <;> simp [hx, hy] at h ⊢

theorem eq_of_bits {x y : Float} (hsign : signOf x = signOf y)
    (hbits : magnitudeBits x = magnitudeBits y) : x = y := by
  rw [← signedFloat_bits x, ← signedFloat_bits y, isNegative_eq_of_signOf hsign, hbits]

theorem eq_zero_of_bits {x : Float} (h : magnitudeBits x = 0) : x = 0 ∨ x = -0 := by
  have hzero : magnitudeBits 0 = 0 ∧ signOf 0 = .positive :=
    ⟨by decide +kernel, if_neg (by decide +kernel)⟩
  have hneg : magnitudeBits (-0) = 0 ∧ signOf (-0) = .negative :=
    ⟨by decide +kernel, if_pos (by decide +kernel)⟩
  cases hsign : signOf x with
  | positive => exact Or.inl (eq_of_bits (hsign.trans hzero.2.symm) (h.trans hzero.1.symm))
  | negative => exact Or.inr (eq_of_bits (hsign.trans hneg.2.symm) (h.trans hneg.1.symm))

theorem size_lt_size {x y : Float} : size x < size y ↔ magnitudeBits x < magnitudeBits y := by
  rw [size, size, Nat.cast_lt, strictMono_units.lt_iff_lt]

theorem one_le_size {x : Float} (h : 0 < magnitudeBits x) : 1 ≤ size x := by
  have hpos : units 0 < units (magnitudeBits x) := strictMono_units h
  exact Nat.one_le_cast.mpr (Nat.lt_of_le_of_lt (Nat.zero_le _) hpos)

theorem units_zero_add_units_one : (units 0 : ℝ) + units (0 + 1) = 1 := by
  have hsum : units 0 + units (0 + 1) = 1 := by decide
  exact_mod_cast hsum

theorem IsNearest.pos {bits : Nat} {x : ℝ} (h : IsNearest bits x) (hx : 1 ≤ x) : 0 < bits := by
  rcases Nat.eq_zero_or_pos bits with rfl | hpos
  · have hbelow := h.below 0 le_rfl (by decide)
    linarith [units_zero_add_units_one]
  · exact hpos

theorem IsNearest.eq_zero {bits : Nat} (h : IsNearest bits 0) : bits = 0 := by
  by_contra hne
  have habove := h.above 0 (Nat.pos_of_ne_zero hne)
  linarith [units_zero_add_units_one]

namespace IsPositive

variable {x y c : Float}

/-- A positive number is finite, or it is infinity. -/
theorem finite_or_infinity (h : IsPositive x) :
    IsFiniteNonzero x ∨ magnitudeBits x = infinityBits :=
  (Nat.lt_or_eq_of_le h.le_infinity).imp_left fun hlt => ⟨h.pos, hlt⟩

theorem unpack_infinity (h : IsPositive x) (hx : magnitudeBits x = infinityBits) :
    x.toModel.unpack = .infinity .positive := by
  rw [unpack_of_infinity hx, h.sign]

theorem unpack_finite (h : IsPositive x) (hx : IsFiniteNonzero x) :
    x.toModel.unpack = .finite .positive (significand (magnitudeBits x))
      (doublings (magnitudeBits x) - 1074) (significand_pos hx.pos) := by
  rw [unpack_of_finite hx.pos hx.lt_infinity, h.sign]

theorem sqrt_of_infinity (h : IsPositive x) (hx : magnitudeBits x = infinityBits) :
    magnitudeBits x.sqrt = infinityBits ∧ signOf x.sqrt = .positive := by
  have hsqrt : x.sqrt = Float.ofModel (Float.Model.pack (.infinity .positive)) := by
    change Float.ofModel (Float.Model.pack (UnpackedFloat.sqrt .binary64 x.toModel.unpack)) = _
    rw [h.unpack_infinity hx]
    rfl
  rw [hsqrt]
  exact bits_of_infinity .positive

theorem sqrt (h : IsPositive x) : IsPositive x.sqrt := by
  rcases h.finite_or_infinity with hx | hx
  · obtain ⟨hnearest, hsign⟩ := nearest_sqrt hx h.sign
    have hone : 1 ≤ √(size x * 2 ^ (1074 : Int)) := by
      have hscale : (1 : ℝ) ≤ 2 ^ (1074 : Int) := one_le_zpow₀ one_le_two (by decide)
      rw [Real.one_le_sqrt]
      exact one_le_mul_of_one_le_of_one_le (one_le_size h.pos) hscale
    exact ⟨hsign, hnearest.pos hone, hnearest.le_infinity⟩
  · obtain ⟨hbits, hsign⟩ := h.sqrt_of_infinity hx
    exact ⟨hsign, hbits ▸ by decide, hbits.le⟩

theorem sqrt_le_sqrt (hx : IsPositive x) (hy : IsPositive y)
    (h : magnitudeBits x ≤ magnitudeBits y) : magnitudeBits x.sqrt ≤ magnitudeBits y.sqrt := by
  rcases Nat.lt_or_eq_of_le h with hlt | heq
  · have hfinite : IsFiniteNonzero x := ⟨hx.pos, hlt.trans_le hy.le_infinity⟩
    rcases hy.finite_or_infinity with hyfinite | hinfinite
    · have hsizes := mul_lt_mul_of_pos_right (size_lt_size.mpr hlt) two_zpow_pos
      have hroots := Real.sqrt_lt_sqrt (by unfold size; positivity) hsizes
      exact (nearest_sqrt hfinite hx.sign).1.le_of_lt (nearest_sqrt hyfinite hy.sign).1 hroots
    · rw [(hy.sqrt_of_infinity hinfinite).1]
      exact hx.sqrt.le_infinity
  · rw [eq_of_bits (hx.sign.trans hy.sign.symm) heq]

theorem mul_of_infinity (h : IsPositive x) (hx : magnitudeBits x = infinityBits) (hc : IsPositive c)
    (hfinite : IsFiniteNonzero c) :
    magnitudeBits (x * c) = infinityBits ∧ signOf (x * c) = .positive := by
  have hmul : x * c = Float.ofModel (Float.Model.pack (.infinity .positive)) := by
    change Float.ofModel (Float.Model.pack
      (UnpackedFloat.mul .binary64 x.toModel.unpack c.toModel.unpack)) = _
    rw [h.unpack_infinity hx, hc.unpack_finite hfinite]
    rfl
  rw [hmul]
  exact bits_of_infinity .positive

/-- A product of positive numbers may be too small to be positive. -/
theorem mul_le_infinity (h : IsPositive x) (hc : IsPositive c) (hfinite : IsFiniteNonzero c) :
    signOf (x * c) = .positive ∧ magnitudeBits (x * c) ≤ infinityBits := by
  rcases h.finite_or_infinity with hx | hx
  · obtain ⟨hnearest, hsign⟩ := nearest_mul hx hfinite
    rw [h.sign, hc.sign] at hsign
    exact ⟨hsign, hnearest.le_infinity⟩
  · obtain ⟨hbits, hsign⟩ := h.mul_of_infinity hx hc hfinite
    exact ⟨hsign, hbits.le⟩

theorem mul_le_mul (hx : IsPositive x) (hy : IsPositive y) (hc : IsPositive c)
    (hfinite : IsFiniteNonzero c) (h : magnitudeBits x ≤ magnitudeBits y) :
    magnitudeBits (x * c) ≤ magnitudeBits (y * c) := by
  rcases Nat.lt_or_eq_of_le h with hlt | heq
  · have hxfinite : IsFiniteNonzero x := ⟨hx.pos, hlt.trans_le hy.le_infinity⟩
    rcases hy.finite_or_infinity with hyfinite | hinfinite
    · have hpos : 0 < size c := one_pos.trans_le (one_le_size hc.pos)
      have hsizes := mul_lt_mul_of_pos_right (size_lt_size.mpr hlt) hpos
      have hscaled := div_lt_div_of_pos_right hsizes two_zpow_pos
      exact (nearest_mul hxfinite hfinite).1.le_of_lt (nearest_mul hyfinite hfinite).1 hscaled
    · rw [(hy.mul_of_infinity hinfinite hc hfinite).1]
      exact (hx.mul_le_infinity hc hfinite).2
  · rw [eq_of_bits (hx.sign.trans hy.sign.symm) heq]

end IsPositive

theorem isNegative_of_signOf {x : Float} (h : signOf x = .negative) : isNegative x = true := by
  by_contra hx
  rw [signOf, if_neg hx] at h
  cases h

theorem ceil32_of_negative {x : Float} (h : signOf x = .negative) : ceil32 x = 0 := by
  simp only [ceil32, isNegative_of_signOf h, Bool.or_true, if_true]

theorem ceil32_of_nan {x : Float} (h : infinityBits < magnitudeBits x) : ceil32 x = 0 := by
  simp only [ceil32, h, decide_true, Bool.true_or, if_true]

theorem ceil32_of_zero {x : Float} (h : magnitudeBits x = 0) : ceil32 x = 0 := by
  have hceil : (units 0 + (1 <<< 1074 - 1)) >>> 1074 = 0 := by decide +kernel
  simp only [ceil32, h, hceil]
  split <;> rfl

theorem toNat_ceil32 {x : Float} (hsign : signOf x = .positive)
    (hle : magnitudeBits x ≤ infinityBits) :
    (ceil32 x).toNat =
      min ((units (magnitudeBits x) + (1 <<< 1074 - 1)) >>> 1074) 0xffffffff := by
  have hnegative : isNegative x = false := by
    by_contra hx
    rw [signOf, if_pos (Bool.not_eq_false _ ▸ hx)] at hsign
    cases hsign
  have hnumber : ¬ infinityBits < magnitudeBits x := Nat.not_lt.mpr hle
  simp only [ceil32, hnegative, hnumber, decide_false, Bool.or_false, Bool.false_eq_true, if_false]
  rw [UInt32.toNat_ofNat', Nat.mod_eq_of_lt (by omega)]

/-- A larger magnitude rounds up to no smaller a number of segments. -/
theorem ceil32_le_ceil32 {x y : Float} (hsign : signOf y = .positive)
    (hle : magnitudeBits y ≤ infinityBits) (h : magnitudeBits x ≤ magnitudeBits y) :
    (ceil32 x).toNat ≤ (ceil32 y).toNat := by
  cases hx : signOf x with
  | negative =>
    rw [ceil32_of_negative hx]
    exact Nat.zero_le _
  | positive =>
    rw [toNat_ceil32 hx (h.trans hle), toNat_ceil32 hsign hle, Nat.shiftRight_eq_div_pow,
      Nat.shiftRight_eq_div_pow]
    have hunits := strictMono_units.monotone h
    exact min_le_min_right _ (Nat.div_le_div_right (Nat.add_le_add_right hunits _))

section Quotients

variable {a y z : Float}

theorem div_eq_pack (a z : Float) : a / z = Float.ofModel (Float.Model.pack
    (UnpackedFloat.div .binary64 a.toModel.unpack z.toModel.unpack)) :=
  rfl

/-- A quotient by infinity is zero, or it is no number. -/
theorem bits_div_of_infinity (a : Float) (hz : IsPositive z)
    (hinfinite : magnitudeBits z = infinityBits) :
    magnitudeBits (a / z) = 0 ∨ infinityBits < magnitudeBits (a / z) := by
  rw [div_eq_pack, hz.unpack_infinity hinfinite]
  cases a.toModel.unpack with
  | notANumber => exact Or.inr bits_of_notANumber
  | infinity s => exact Or.inr bits_of_notANumber
  | zero s => exact Or.inl (bits_of_zero _).1
  | finite s m e hm => exact Or.inl (bits_of_zero _).1

theorem ceil32_div_of_infinity (hz : IsPositive z) (hinfinite : magnitudeBits z = infinityBits) :
    ceil32 (a / z) = 0 :=
  (bits_div_of_infinity a hz hinfinite).elim ceil32_of_zero ceil32_of_nan

theorem ceil32_div_of_not_positive (ha : ¬ IsPositive a) (hz : IsPositive z)
    (hfinite : IsFiniteNonzero z) : ceil32 (a / z) = 0 := by
  have hnegative (hpos : 0 < magnitudeBits a) (hle : magnitudeBits a ≤ infinityBits) :
      signOf a = .negative := by
    cases hsign : signOf a with
    | negative => rfl
    | positive => exact absurd ⟨hsign, hpos, hle⟩ ha
  rcases Nat.eq_zero_or_pos (magnitudeBits a) with hzero | hpos
  · rw [div_eq_pack, unpack_of_zero hzero, hz.unpack_finite hfinite]
    exact ceil32_of_zero (bits_of_zero _).1
  · rcases Nat.lt_trichotomy (magnitudeBits a) infinityBits with hlt | heq | hgt
    · obtain ⟨-, hsign⟩ := nearest_div ⟨hpos, hlt⟩ hfinite
      rw [hnegative hpos hlt.le, hz.sign] at hsign
      exact ceil32_of_negative hsign
    · rw [div_eq_pack, unpack_of_infinity heq, hnegative hpos heq.le, hz.unpack_finite hfinite]
      exact ceil32_of_negative (bits_of_infinity .negative).2
    · rw [div_eq_pack, unpack_of_nan hgt]
      exact ceil32_of_nan bits_of_notANumber

theorem IsPositive.div_of_infinity (ha : IsPositive a) (hinfinite : magnitudeBits a = infinityBits)
    (hz : IsPositive z) (hfinite : IsFiniteNonzero z) :
    a / z = Float.ofModel (Float.Model.pack (.infinity .positive)) := by
  rw [div_eq_pack, ha.unpack_infinity hinfinite, hz.unpack_finite hfinite]
  rfl

theorem IsPositive.div_le_div (ha : IsPositive a) (hafinite : IsFiniteNonzero a) (hy : IsPositive y)
    (hz : IsPositive z) (hfinite : IsFiniteNonzero z) (h : magnitudeBits y ≤ magnitudeBits z) :
    magnitudeBits (a / z) ≤ magnitudeBits (a / y) := by
  rcases Nat.lt_or_eq_of_le h with hlt | heq
  · have hyfinite : IsFiniteNonzero y := ⟨hy.pos, hlt.trans hfinite.lt_infinity⟩
    have hapos : 0 < size a := one_pos.trans_le (one_le_size ha.pos)
    have hypos : 0 < size y := one_pos.trans_le (one_le_size hy.pos)
    have hsizes := div_lt_div_of_pos_left hapos hypos (size_lt_size.mpr hlt)
    have hscaled := mul_lt_mul_of_pos_right hsizes two_zpow_pos
    exact (nearest_div hafinite hfinite).1.le_of_lt (nearest_div hafinite hyfinite).1 hscaled
  · rw [eq_of_bits (hy.sign.trans hz.sign.symm) heq]

/-- A quotient rounds up to no smaller a number of segments when the divisor gets smaller, whatever
the dividend is. -/
theorem ceil32_div_le (hy : IsPositive y) (hz : IsPositive z)
    (h : magnitudeBits y ≤ magnitudeBits z) : (ceil32 (a / z)).toNat ≤ (ceil32 (a / y)).toNat := by
  rcases hz.finite_or_infinity with hfinite | hinfinite
  · have hyfinite : IsFiniteNonzero y := ⟨hy.pos, h.trans_lt hfinite.lt_infinity⟩
    by_cases ha : IsPositive a
    · rcases ha.finite_or_infinity with hafinite | hinfinite
      · obtain ⟨hnearest, hsign⟩ := nearest_div hafinite hyfinite
        rw [ha.sign, hy.sign] at hsign
        exact ceil32_le_ceil32 hsign hnearest.le_infinity (ha.div_le_div hafinite hy hz hfinite h)
      · rw [ha.div_of_infinity hinfinite hz hfinite, ha.div_of_infinity hinfinite hy hyfinite]
    · rw [ceil32_div_of_not_positive ha hz hfinite]
      exact Nat.zero_le _
  · rw [ceil32_div_of_infinity hz hinfinite]
    exact Nat.zero_le _

end Quotients

end Facet
