import Facet.Proofs.MagnitudeOrder

namespace Facet

open Float.Model Float.Model.UnpackedFloat

theorem bits_of_pack {u : UnpackedFloat} {s : Sign} {bits : Nat} (hbits : bits ≤ infinityBits)
    (h : (UnpackedFloat.pack .binary64 u).toNat = 2 ^ 63 * s.toBitVec.toNat + bits) :
    magnitudeBits (Float.ofModel (Float.Model.pack u)) = bits ∧
      signOf (Float.ofModel (Float.Model.pack u)) = s := by
  have hinfinity := infinityBits_eq
  let x := Float.ofModel (Float.Model.pack u)
  have hx : x.toBits.toNat = 2 ^ 63 * s.toBitVec.toNat + bits := h
  have hnegative : isNegative x = true ↔ 2 ^ 63 ≤ x.toBits.toNat := decide_eq_true_iff
  change magnitudeBits x = bits ∧ signOf x = s
  cases s with
  | positive =>
    have hsign : Sign.positive.toBitVec.toNat = 0 := rfl
    refine ⟨?_, ?_⟩
    · rw [magnitudeBits_eq]
      omega
    · exact if_neg (mt hnegative.mp (by omega))
  | negative =>
    have hsign : Sign.negative.toBitVec.toNat = 1 := rfl
    refine ⟨?_, ?_⟩
    · rw [magnitudeBits_eq]
      omega
    · exact if_pos (hnegative.mpr (by omega))

theorem isCutFrom_fraction (m : Nat) {num den : Nat} (h : num < den) :
    IsCutFrom (ExtendedMantissa.ofMantissaAndAccuracy m (accuracyOfFraction num den))
      (m + num / den) := by
  have hden : (0 : ℝ) < den := Nat.cast_pos.mpr (by omega)
  have hone : (num : ℝ) / den < 1 := (div_lt_one hden).mpr (Nat.cast_lt.mpr h)
  unfold accuracyOfFraction
  split
  next hzero =>
    rw [hzero, Nat.cast_zero, zero_div, add_zero]
    exact isCutFrom_exact m
  next hne =>
    have hpos : (0 : ℝ) < num / den := div_pos (Nat.cast_pos.mpr (by omega)) hden
    rcases Nat.lt_trichotomy (2 * num) den with hlt | heq | hgt
    · have hless : 2 * (num : ℝ) / den < 1 := (div_lt_one hden).mpr (by exact_mod_cast hlt)
      rw [Nat.compare_eq_lt.mpr hlt]
      exact isCutFrom_less (by linarith) (by linarith [mul_div_assoc 2 (num : ℝ) den])
    · have hhalf : 2 * (num : ℝ) / den = 1 :=
        (div_eq_one_iff_eq hden.ne').mpr (by exact_mod_cast heq)
      rw [Nat.compare_eq_eq.mpr heq]
      exact isCutFrom_half (by linarith [mul_div_assoc 2 (num : ℝ) den])
    · have hmore : 1 < 2 * (num : ℝ) / den := (one_lt_div hden).mpr (by exact_mod_cast hgt)
      rw [Nat.compare_eq_gt.mpr hgt]
      exact isCutFrom_more (by linarith [mul_div_assoc 2 (num : ℝ) den]) (by linarith)

theorem le_log2 {m k : Nat} (h : 2 ^ k ≤ m) : k ≤ m.log2 :=
  (Nat.le_log2 (by have := Nat.two_pow_pos k; omega)).mpr h

/-- The quotient of two numbers is cut off with enough digits to be rounded. -/
theorem divCore_eq {m n : Nat} (e f : Int) (hm : 0 < m) (hn : 0 < n) :
    ∃ (quotient k : Nat) (g : Int) (accuracy : Accuracy),
      divCore .binary64 m e n f = (quotient, g, accuracy) ∧ e - f = g + k ∧
      IsCutFrom (ExtendedMantissa.ofMantissaAndAccuracy quotient accuracy) (m * 2 ^ k / n) ∧
      g ≤ max (quotient.log2 + g - 52) (-1074) := by
  let g : Int := min (e - f) (max ((m.log2 : Int) - n.log2 + (e - f) - 53) (-1074))
  obtain ⟨k, hk⟩ := Int.eq_ofNat_of_zero_le (show 0 ≤ e - f - g by omega)
  have hcore : divCore .binary64 m e n f =
      (m * 2 ^ k / n, g, accuracyOfFraction (m * 2 ^ k % n) n) := by
    have htarget : min (e - f) (Format.binary64.targetExponent
        (totalExponent m e - totalExponent n f)) = g := by
      change min (e - f) (max ((m.log2 : Int) + 1 + e - (n.log2 + 1 + f) - (53 : Nat)) (-1074)) = g
      omega
    simp only [divCore, htarget, hk, Nat.shiftLeft_eq, Int.toNat_natCast]
  have hvalue : ((m * 2 ^ k / n : Nat) : ℝ) + ((m * 2 ^ k % n : Nat) : ℝ) / n = m * 2 ^ k / n := by
    have hne : (n : ℝ) ≠ 0 := Nat.cast_ne_zero.mpr hn.ne'
    have hdivision : ((m * 2 ^ k : Nat) : ℝ) =
        n * (m * 2 ^ k / n : Nat) + (m * 2 ^ k % n : Nat) := by
      exact_mod_cast (Nat.div_add_mod (m * 2 ^ k) n).symm
    push_cast at hdivision ⊢
    rw [hdivision]
    field_simp
  refine ⟨_, k, g, _, hcore, by omega, ?_, ?_⟩
  · rw [← hvalue]
    exact isCutFrom_fraction _ (Nat.mod_lt _ hn)
  · by_cases hsmall : g ≤ -1074
    · omega
    · have hdigits : 2 ^ 52 ≤ m * 2 ^ k / n := by
        rw [Nat.le_div_iff_mul_le hn]
        calc
          2 ^ 52 * n ≤ 2 ^ 52 * 2 ^ (n.log2 + 1) := Nat.mul_le_mul_left _ Nat.lt_log2_self.le
          _ = 2 ^ (52 + (n.log2 + 1)) := (Nat.pow_add ..).symm
          _ ≤ 2 ^ (m.log2 + k) := Nat.pow_le_pow_right two_pos (by omega)
          _ = 2 ^ m.log2 * 2 ^ k := Nat.pow_add ..
          _ ≤ m * 2 ^ k := Nat.mul_le_mul_right _ (Nat.log2_self_le hm.ne')
      have hlog := le_log2 hdigits
      omega

/-- How the square root of a whole number compares with its whole part. It is never half way to the
next number. -/
def rootAccuracy (n : Nat) : Accuracy :=
  let rest := n - n.sqrt * n.sqrt
  if rest = 0 then .exact else .inexact (if rest ≤ n.sqrt then .lt else .gt)

theorem isCutFrom_sqrt (n : Nat) :
    IsCutFrom (ExtendedMantissa.ofMantissaAndAccuracy n.sqrt (rootAccuracy n)) (√n) := by
  obtain ⟨root, hroot⟩ : ∃ root, root = n.sqrt := ⟨_, rfl⟩
  have hlow : root * root ≤ n := hroot ▸ Nat.sqrt_le n
  have hhigh : n < (root + 1) * (root + 1) := hroot ▸ Nat.lt_succ_sqrt n
  have hnonneg : (0 : ℝ) ≤ root := Nat.cast_nonneg root
  simp only [rootAccuracy, ← hroot]
  split
  next hexact =>
    have hsquare : (n : ℝ) = root * root := by exact_mod_cast (show n = root * root by omega)
    rw [hsquare, Real.sqrt_mul_self hnonneg]
    exact isCutFrom_exact root
  next hinexact =>
    split
    next hless =>
      apply isCutFrom_less
      · have hmore : root * root < n := by omega
        apply Real.lt_sqrt_of_sq_lt
        rw [sq]
        exact_mod_cast hmore
      · have hbound : (n : ℝ) ≤ root * root + root := by
          exact_mod_cast (show n ≤ root * root + root by omega)
        have hroot : √(n : ℝ) < root + 1 / 2 := by
          rw [Real.sqrt_lt' (by linarith)]
          nlinarith
        linarith
    next hmore =>
      apply isCutFrom_more
      · have hbound : (root * root + root + 1 : ℝ) ≤ n := by
          exact_mod_cast (show root * root + root + 1 ≤ n by omega)
        have hroot : root + 1 / 2 < √(n : ℝ) := by
          apply Real.lt_sqrt_of_sq_lt
          nlinarith
        linarith
      · rw [Real.sqrt_lt' (by linarith), sq]
        exact_mod_cast hhigh

/-- The square root of a number is cut off with enough digits to be rounded. -/
theorem sqrtCore_eq {m : Nat} (e : Int) (hm : 0 < m) :
    ∃ (root k : Nat) (f : Int) (accuracy : Accuracy),
      sqrtCore .binary64 m e = (root, f, accuracy) ∧ e = 2 * f + k ∧
      IsCutFrom (ExtendedMantissa.ofMantissaAndAccuracy root accuracy) (√(m * 2 ^ k)) ∧
      f ≤ max (root.log2 + f - 52) (-1074) := by
  let f : Int := min (e / 2) (max (((m.log2 : Int) + 1 + e + 1) / 2 - 53) (-1074))
  obtain ⟨k, hk⟩ := Int.eq_ofNat_of_zero_le (show 0 ≤ e - 2 * f by omega)
  have htarget : min (e.ediv 2) (Format.binary64.targetExponent ((totalExponent m e + 1).ediv 2)) =
      f := rfl
  have hcore : sqrtCore .binary64 m e = ((m * 2 ^ k).sqrt, f, rootAccuracy (m * 2 ^ k)) := by
    simp only [sqrtCore, htarget, hk, Int.toNat_natCast, Nat.shiftLeft_eq]
    rfl
  refine ⟨_, k, f, _, hcore, by omega, ?_, ?_⟩
  · have hcut := isCutFrom_sqrt (m * 2 ^ k)
    push_cast at hcut
    exact hcut
  · by_cases hsmall : f ≤ -1074
    · omega
    · have hdigits : 2 ^ 52 ≤ (m * 2 ^ k).sqrt := by
        rw [Nat.le_sqrt]
        calc
          2 ^ 52 * 2 ^ 52 = 2 ^ 104 := by norm_num
          _ ≤ 2 ^ (m.log2 + k) := Nat.pow_le_pow_right two_pos (by omega)
          _ = 2 ^ m.log2 * 2 ^ k := Nat.pow_add ..
          _ ≤ m * 2 ^ k := Nat.mul_le_mul_right _ (Nat.log2_self_le hm.ne')
      have hlog := le_log2 hdigits
      omega

theorem bits_of_roundWithAccuracy (s : Sign) {m : Nat} {e : Int} {accuracy : Accuracy} {x : ℝ}
    (hx : IsCutFrom (ExtendedMantissa.ofMantissaAndAccuracy m accuracy) x)
    (he : e ≤ max (m.log2 + e - 52) (-1074)) :
    let rounded := Float.ofModel (Float.Model.pack (roundWithAccuracy .binary64 s m e accuracy))
    IsNearest (magnitudeBits rounded) (x * 2 ^ (e + 1074)) ∧ signOf rounded = s := by
  intro rounded
  obtain ⟨bits, hnearest, hpack⟩ := toNat_pack_roundWithAccuracy s hx he
  obtain ⟨hbits, hsign⟩ : magnitudeBits rounded = bits ∧ signOf rounded = s :=
    bits_of_pack hnearest.le_infinity hpack
  rw [hbits]
  exact ⟨hnearest, hsign⟩

theorem bits_of_zero (s : Sign) :
    magnitudeBits (Float.ofModel (Float.Model.pack (.zero s))) = 0 ∧
      signOf (Float.ofModel (Float.Model.pack (.zero s))) = s :=
  bits_of_pack (Nat.zero_le _) (toNat_packComponents s 0 0)

theorem bits_of_infinity (s : Sign) :
    magnitudeBits (Float.ofModel (Float.Model.pack (.infinity s))) = infinityBits ∧
      signOf (Float.ofModel (Float.Model.pack (.infinity s))) = s :=
  bits_of_pack le_rfl (toNat_packedInfinity s)

theorem bits_of_notANumber :
    infinityBits < magnitudeBits (Float.ofModel (Float.Model.pack .notANumber)) := by
  decide +kernel

/-- A number that is neither zero, infinite nor a NaN. -/
structure IsFiniteNonzero (x : Float) : Prop where
  pos : 0 < magnitudeBits x
  lt_infinity : magnitudeBits x < infinityBits

/-- The magnitude of a number in units of `2 ^ (-1074)`. -/
noncomputable def size (x : Float) : ℝ :=
  units (magnitudeBits x)

theorem two_zpow_pos : (0 : ℝ) < 2 ^ (1074 : Int) :=
  zpow_pos two_pos 1074

theorem size_eq (x : Float) :
    size x = significand (magnitudeBits x) * 2 ^ doublings (magnitudeBits x) := by
  rw [size, units_eq]
  push_cast
  rfl

section Operations

variable {x y : Float}

theorem nearest_div (hx : IsFiniteNonzero x) (hy : IsFiniteNonzero y) :
    IsNearest (magnitudeBits (x / y)) (size x / size y * 2 ^ (1074 : Int)) ∧
      signOf (x / y) = signOf x / signOf y := by
  let m := significand (magnitudeBits x)
  let n := significand (magnitudeBits y)
  let c := doublings (magnitudeBits x)
  let d := doublings (magnitudeBits y)
  obtain ⟨quotient, k, g, accuracy, hcore, hexponent, hcut, hdigits⟩ :=
    divCore_eq ((c : Int) - 1074) (d - 1074) (significand_pos hx.pos) (significand_pos hy.pos)
  have hdiv : x / y = Float.ofModel (Float.Model.pack
      (roundWithAccuracy .binary64 (signOf x / signOf y) quotient g accuracy)) := by
    change Float.ofModel (Float.Model.pack
      (UnpackedFloat.div .binary64 x.toModel.unpack y.toModel.unpack)) = _
    rw [unpack_of_finite hx.pos hx.lt_infinity, unpack_of_finite hy.pos hy.lt_infinity,
      UnpackedFloat.div, hcore]
  have hvalue : size x / size y * 2 ^ (1074 : Int) = (m * 2 ^ k / n) * (2 : ℝ) ^ (g + 1074) := by
    have hscale : (2 : ℝ) ^ (g + 1074) = 2 ^ c / 2 ^ d * 2 ^ (1074 : Int) / 2 ^ k := by
      have hg : g + 1074 = (c : Int) - d + 1074 - k := by omega
      rw [hg, zpow_sub₀ two_ne_zero, zpow_add₀ two_ne_zero, zpow_sub₀ two_ne_zero]
      simp only [zpow_natCast]
    rw [size_eq, size_eq, hscale]
    change (m : ℝ) * 2 ^ c / (n * 2 ^ d) * 2 ^ (1074 : Int) = _
    field_simp
  rw [hdiv, hvalue]
  exact bits_of_roundWithAccuracy _ hcut hdigits

theorem nearest_sqrt (hx : IsFiniteNonzero x) (hpos : signOf x = .positive) :
    IsNearest (magnitudeBits x.sqrt) √(size x * 2 ^ (1074 : Int)) ∧ signOf x.sqrt = .positive := by
  let m := significand (magnitudeBits x)
  let d := doublings (magnitudeBits x)
  obtain ⟨root, k, f, accuracy, hcore, hexponent, hcut, hdigits⟩ :=
    sqrtCore_eq ((d : Int) - 1074) (significand_pos hx.pos)
  have hsqrt : x.sqrt = Float.ofModel (Float.Model.pack
      (roundWithAccuracy .binary64 .positive root f accuracy)) := by
    change Float.ofModel (Float.Model.pack (UnpackedFloat.sqrt .binary64 x.toModel.unpack)) = _
    rw [unpack_of_finite hx.pos hx.lt_infinity, hpos, UnpackedFloat.sqrt, hcore]
  have hvalue : √(size x * 2 ^ (1074 : Int)) = √(m * 2 ^ k) * (2 : ℝ) ^ (f + 1074) := by
    have hscale : (2 : ℝ) ^ d * 2 ^ (1074 : Int) = 2 ^ k * ((2 : ℝ) ^ (f + 1074)) ^ 2 := by
      have hsquare : ((2 : ℝ) ^ (f + 1074)) ^ 2 = 2 ^ d * 2 ^ (1074 : Int) / 2 ^ k := by
        have hf : (f + 1074) * (2 : Nat) = (d : Int) + 1074 - k := by omega
        rw [← zpow_natCast, ← zpow_mul, hf, zpow_sub₀ two_ne_zero, zpow_add₀ two_ne_zero]
        simp only [zpow_natCast]
      rw [hsquare]
      field_simp
    have hnonneg : (0 : ℝ) ≤ m * 2 ^ k := by positivity
    rw [size_eq, mul_assoc, hscale, ← mul_assoc, Real.sqrt_mul hnonneg,
      Real.sqrt_sq (by positivity)]
  rw [hsqrt, hvalue]
  exact bits_of_roundWithAccuracy _ hcut hdigits

theorem nearest_mul (hx : IsFiniteNonzero x) (hy : IsFiniteNonzero y) :
    IsNearest (magnitudeBits (x * y)) (size x * size y / 2 ^ (1074 : Int)) ∧
      signOf (x * y) = signOf x * signOf y := by
  let m := significand (magnitudeBits x)
  let n := significand (magnitudeBits y)
  let c := doublings (magnitudeBits x)
  let d := doublings (magnitudeBits y)
  have hmul : x * y = Float.ofModel (Float.Model.pack (roundWithAccuracy .binary64
      (signOf x * signOf y) (m * n) ((c : Int) - 1074 + (d - 1074)) .exact)) := by
    change Float.ofModel (Float.Model.pack
      (UnpackedFloat.mul .binary64 x.toModel.unpack y.toModel.unpack)) = _
    rw [unpack_of_finite hx.pos hx.lt_infinity, unpack_of_finite hy.pos hy.lt_infinity,
      UnpackedFloat.mul]
  have hvalue : size x * size y / 2 ^ (1074 : Int) =
      ((m * n : Nat) : ℝ) * (2 : ℝ) ^ ((c : Int) - 1074 + (d - 1074) + 1074) := by
    have hscale : (2 : ℝ) ^ ((c : Int) - 1074 + (d - 1074) + 1074) =
        2 ^ c * 2 ^ d / 2 ^ (1074 : Int) := by
      have hexponent : (c : Int) - 1074 + (d - 1074) + 1074 = (c : Int) + d - 1074 := by omega
      rw [hexponent, zpow_sub₀ two_ne_zero, zpow_add₀ two_ne_zero]
      simp only [zpow_natCast]
    rw [size_eq, size_eq, hscale]
    push_cast
    ring
  rw [hmul, hvalue]
  apply bits_of_roundWithAccuracy _ (isCutFrom_exact _)
  by_cases hsub : c = 0 ∧ d = 0
  · omega
  · have hdigits : 2 ^ 52 ≤ m * n := by
      rcases not_and_or.mp hsub with hc | hd
      · exact (two_pow_le_significand hc).trans (Nat.le_mul_of_pos_right m (significand_pos hy.pos))
      · exact (two_pow_le_significand hd).trans (Nat.le_mul_of_pos_left n (significand_pos hx.pos))
    have hlog := le_log2 hdigits
    omega

end Operations

end Facet
