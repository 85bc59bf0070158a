import Facet.Proofs.FloatOrder

namespace Facet

open Float.Model Float.Model.UnpackedFloat

/-- Neither infinite nor a NaN. -/
def IsFinite (x : Float) : Prop :=
  magnitudeBits x < infinityBits

def direction : Sign → ℝ
  | .negative => -1
  | .positive => 1

/-- The real number that a finite number stands for. -/
noncomputable def value (x : Float) : ℝ :=
  direction (signOf x) * size x / (2 : Nat) ^ (1074 : Int)

/-- The number has the sign of `x`, and no magnitude is closer to that of `x`. -/
structure IsRounded (r : Float) (x : ℝ) : Prop where
  nonneg : 0 ≤ direction (signOf r) * x
  nearest : IsNearest (magnitudeBits r) (direction (signOf r) * x * 2 ^ (1074 : Int))

theorem direction_mul_self (s : Sign) : direction s * direction s = 1 := by
  cases s <;> norm_num [direction]

theorem abs_direction (s : Sign) : |direction s| = 1 := by
  cases s <;> norm_num [direction]

theorem direction_mul (s t : Sign) : direction (s * t) = direction s * direction t := by
  cases s <;> cases t <;> simp only [direction] <;> norm_num

theorem direction_div (s t : Sign) (x y : ℝ) :
    direction (s / t) * (x / y) = direction s * x / (direction t * y) := by
  have hsign : s / t = s * t := by cases s <;> cases t <;> rfl
  rw [hsign, direction_mul]
  cases s <;> cases t <;> simp only [direction] <;> ring

theorem direction_neg (s : Sign) : direction (-s) = -direction s := by
  cases s
  · exact (neg_neg 1).symm
  · rfl

theorem value_eq (x : Float) : value x = direction (signOf x) * size x / 2 ^ (1074 : Int) := by
  rw [value, Nat.cast_ofNat]

theorem abs_value (x : Float) : |value x| = size x / 2 ^ (1074 : Int) := by
  have hsize : 0 ≤ size x := Nat.cast_nonneg _
  rw [value_eq, abs_div, abs_mul, abs_direction, one_mul, abs_of_nonneg hsize,
    abs_of_pos two_zpow_pos]

theorem value_of_zero {x : Float} (h : magnitudeBits x = 0) : value x = 0 := by
  rw [value_eq, size, h, units_zero, Nat.cast_zero, mul_zero, zero_div]

theorem units_pos_iff {bits : Nat} : 0 < units bits ↔ 0 < bits := by
  have hless : units 0 < units bits ↔ 0 < bits := strictMono_units.lt_iff_lt
  rwa [units_zero] at hless

theorem value_of_bits {x : Float} (hsign : isNegative x = false) {m d : Nat}
    (hdigits : significand (magnitudeBits x) = m) (hdoublings : doublings (magnitudeBits x) = d) :
    value x = m * 2 ^ ((d : Int) - 1074) := by
  rw [value_eq, size_eq, hdigits, hdoublings, signOf, hsign, zpow_sub₀ two_ne_zero, zpow_natCast]
  simp only [Bool.false_eq_true, if_false, direction, one_mul]
  ring

theorem isFinite_one : IsFinite 1 := by
  change magnitudeBits 1 < infinityBits
  decide +kernel

theorem value_one : value 1 = 1 := by
  rw [value_of_bits (m := 2 ^ 52) (d := 1022) (by decide +kernel) (by decide +kernel)
    (by decide +kernel)]
  norm_num

section Order

variable {x y : Float}

theorem value_nonneg (h : signOf x = .positive) : 0 ≤ value x := by
  have hsize : 0 ≤ size x := Nat.cast_nonneg _
  rw [value_eq, h, direction, one_mul]
  exact div_nonneg hsize two_zpow_pos.le

/-- Numbers are in the order of their values. -/
theorem rank_lt_iff_value_lt : rank x < rank y ↔ value x < value y := by
  rw [value_eq, value_eq, div_lt_div_iff_of_pos_right two_zpow_pos, rank, rank, size, size]
  cases signOf x <;> cases signOf y <;>
    simp only [Sign.apply, direction, one_mul, neg_one_mul, neg_lt_neg_iff, Nat.cast_lt,
      strictMono_units.lt_iff_lt]
  · have hx : 0 < units (magnitudeBits x) ↔ 0 < magnitudeBits x := units_pos_iff
    have hy : 0 < units (magnitudeBits y) ↔ 0 < magnitudeBits y := units_pos_iff
    have hsum : 0 < magnitudeBits y + magnitudeBits x ↔
        0 < units (magnitudeBits y) + units (magnitudeBits x) := by
      omega
    rw [neg_lt_iff_pos_add, neg_lt_iff_pos_add]
    exact_mod_cast hsum
  · have hx : (0 : ℝ) ≤ units (magnitudeBits x) := Nat.cast_nonneg _
    have hy : (0 : ℝ) ≤ units (magnitudeBits y) := Nat.cast_nonneg _
    exact iff_of_false (by omega) (by linarith)

theorem lt_iff_value_lt (hx : IsFinite x) (hy : IsFinite y) : x < y ↔ value x < value y := by
  rw [lt_iff_rank_lt (Nat.le_of_lt hx) (Nat.le_of_lt hy), rank_lt_iff_value_lt]

theorem le_iff_rank_le (hx : magnitudeBits x ≤ infinityBits) (hy : magnitudeBits y ≤ infinityBits) :
    x ≤ y ↔ rank x ≤ rank y := by
  rw [le_iff_compare, compare_unpack hx hy]
  exact Int.isLE_compare

theorem value_le_value (h : x ≤ y) : value x ≤ value y := by
  obtain ⟨-, -, hrank⟩ := rank_le_rank h
  exact not_lt.mp (mt rank_lt_iff_value_lt.mpr (not_lt.mpr hrank))

end Order

section Rounding

/-- The next magnitude is larger by the place value of the last digit. -/
theorem units_succ (bits : Nat) : units (bits + 1) = units bits + 2 ^ doublings bits := by
  have hsuccessor : significand (bits + 1) * 2 ^ doublings (bits + 1) =
      (significand bits + 1) * 2 ^ doublings bits := by
    rw [significand_eq, significand_eq]
    by_cases hsame : doublings (bits + 1) = doublings bits
    · rw [hsame]
      congr 1
      unfold doublings at hsame
      split <;> split <;> omega
    · have hnext : doublings (bits + 1) = doublings bits + 1 := by
        unfold doublings at *
        omega
      rw [hnext, pow_succ' 2 (doublings bits), ← Nat.mul_assoc]
      congr 1
      unfold doublings at hnext
      split <;> split <;> omega
  rw [units_eq, units_eq, hsuccessor, Nat.succ_mul]

theorem units_succ_le (bits : Nat) :
    (units (bits + 1) : ℝ) ≤ units bits + (units bits / 2 ^ 52 + 1) := by
  have hplace : (2 ^ doublings bits : ℝ) ≤ units bits / 2 ^ 52 + 1 := by
    by_cases hzero : doublings bits = 0
    · have hunits : (0 : ℝ) ≤ units bits := Nat.cast_nonneg _
      rw [hzero]
      linarith [div_nonneg hunits (by positivity : (0 : ℝ) ≤ 2 ^ 52)]
    · have hdigits : 2 ^ 52 * 2 ^ doublings bits ≤ units bits := by
        rw [units_eq]
        exact Nat.mul_le_mul_right _ (two_pow_le_significand hzero)
      have hdigits : (2 ^ doublings bits : ℝ) * 2 ^ 52 ≤ units bits := by
        rw [mul_comm]
        exact_mod_cast hdigits
      linarith [(le_div_iff₀ (by positivity)).mpr hdigits]
  rw [units_succ]
  push_cast
  linarith

variable {bits : Nat} {x : ℝ}

theorem isNearest_units (h : bits ≤ infinityBits) : IsNearest bits (units bits) := by
  refine ⟨h, fun b hb => ?_, fun b hb _ => ?_⟩
  · linarith [cast_units_le hb.le, cast_units_le (Nat.succ_le_of_lt hb)]
  · linarith [cast_units_le hb, cast_units_le (Nat.le_succ_of_le hb)]

/-- A finite magnitude is off by no more than half of its last digit. -/
theorem IsNearest.error (h : IsNearest bits x) (hx : 0 ≤ x) (hfinite : bits < infinityBits) :
    |(units bits : ℝ) - x| ≤ x / 2 ^ 53 + 1 / 2 := by
  rcases le_or_gt (units bits : ℝ) x with hle | hgt
  · have hbelow := h.below bits le_rfl hfinite
    have hgap := units_succ_le bits
    rw [abs_sub_comm, abs_of_nonneg (by linarith)]
    linarith
  · have hpos : 0 < bits := units_pos_iff.mp (by exact_mod_cast hx.trans_lt hgt)
    obtain ⟨last, rfl⟩ : ∃ last, bits = last + 1 := ⟨bits - 1, by omega⟩
    have habove := h.above last (Nat.lt_succ_self last)
    have hgap := units_succ_le last
    rw [abs_of_nonneg (by linarith)]
    linarith

theorem IsNearest.lt_infinity (h : IsNearest bits x) (hx : 2 * x < units infinityBits) :
    bits < infinityBits := by
  refine lt_of_le_of_ne h.le_infinity ?_
  rintro rfl
  have habove := h.above (infinityBits - 1) (by decide)
  have hnonneg : (0 : ℝ) ≤ units (infinityBits - 1) := Nat.cast_nonneg _
  have hnext : infinityBits - 1 + 1 = infinityBits := by decide
  rw [hnext] at habove
  linarith

end Rounding

section Rounded

variable {r : Float} {x : ℝ}

theorem direction_mul_value (r : Float) :
    direction (signOf r) * value r = size r / 2 ^ (1074 : Int) := by
  rw [value_eq, ← mul_div_assoc, ← mul_assoc, direction_mul_self, one_mul]

theorem IsRounded.direction_mul (h : IsRounded r x) : direction (signOf r) * x = |x| := by
  rw [← abs_of_nonneg h.nonneg, abs_mul, abs_direction, one_mul]

theorem isRounded_zero (h : magnitudeBits r = 0) : IsRounded r 0 := by
  have hnearest : IsNearest 0 (units 0) := isNearest_units (Nat.zero_le _)
  refine ⟨(mul_zero _).ge, ?_⟩
  rw [units_zero, Nat.cast_zero] at hnearest
  rwa [h, mul_zero, zero_mul]

/-- A magnitude that is closest, with the right sign. -/
theorem isRounded_of_nearest {size : ℝ} (hsize : direction (signOf r) * x = size / 2 ^ (1074 : Int))
    (hnonneg : 0 ≤ size) (h : IsNearest (magnitudeBits r) size) : IsRounded r x := by
  refine ⟨hsize ▸ div_nonneg hnonneg two_zpow_pos.le, ?_⟩
  rw [hsize, div_mul_cancel₀ _ two_zpow_pos.ne']
  exact h

theorem isRounded_value (h : IsFinite r) : IsRounded r (value r) :=
  isRounded_of_nearest (direction_mul_value r) (Nat.cast_nonneg _)
    (isNearest_units (Nat.le_of_lt h))

theorem le_two_zpow : (1e60 : ℝ) ≤ 2 ^ (1074 : Int) := by
  calc
    (1e60 : ℝ) ≤ 2 ^ (200 : Int) := by norm_num
    _ ≤ 2 ^ (1074 : Int) := zpow_le_zpow_right₀ one_le_two (by decide)

/-- A result that is not too large is off by little. -/
theorem IsRounded.error (h : IsRounded r x) (hr : IsFinite r) :
    |value r - x| ≤ 1e-15 * |x| + 1e-60 := by
  have hpos := two_zpow_pos
  have hlarge := le_two_zpow
  have hnonneg := abs_nonneg x
  have herror := h.nearest.error (mul_nonneg h.nonneg hpos.le) hr
  have hscaled : |value r - x| =
      |(units (magnitudeBits r) : ℝ) - |x| * 2 ^ (1074 : Int)| / 2 ^ (1074 : Int) := by
    have hdirected : direction (signOf r) * (value r - x) = size r / 2 ^ (1074 : Int) - |x| := by
      rw [mul_sub, direction_mul_value, h.direction_mul]
    rw [← one_mul |value r - x|, ← abs_direction (signOf r), ← abs_mul, hdirected, size,
      div_sub' hpos.ne', abs_div, abs_of_pos hpos, mul_comm (2 ^ (1074 : Int))]
  rw [h.direction_mul] at herror
  rw [hscaled, div_le_iff₀ hpos]
  have hproduct := mul_nonneg hnonneg hpos.le
  generalize (2 : ℝ) ^ (1074 : Int) = scale at *
  linarith

theorem IsRounded.isFinite (h : IsRounded r x) (hx : |x| ≤ 1e60) : IsFinite r := by
  apply h.nearest.lt_infinity
  have hinfinity : (units infinityBits : ℝ) = 2 ^ (1024 : Int) * 2 ^ (1074 : Int) := by
    have hexponent : (1024 + 1074 : Int) = (52 + 2046 : Nat) := rfl
    rw [units_infinityBits, ← zpow_add₀ two_ne_zero, hexponent, zpow_natCast, Nat.cast_pow,
      Nat.cast_ofNat]
  have hlarge : 2 * |x| < 2 ^ (1024 : Int) := by
    calc
      2 * |x| < 2 ^ (210 : Int) := by norm_num; linarith
      _ ≤ 2 ^ (1024 : Int) := zpow_le_zpow_right₀ one_le_two (by decide)
  rw [hinfinity, h.direction_mul, ← mul_assoc]
  exact mul_lt_mul_of_pos_right hlarge two_zpow_pos

/-- Nothing below zero is closest to a number that is not. -/
theorem IsRounded.value_nonneg (h : IsRounded r x) (hx : 0 ≤ x) : 0 ≤ value r := by
  cases hsign : signOf r with
  | positive => exact Facet.value_nonneg hsign
  | negative =>
    have hopposite := h.nonneg
    rw [hsign, direction] at hopposite
    obtain rfl : x = 0 := by linarith
    have hnearest := h.nearest
    rw [mul_zero, zero_mul] at hnearest
    exact (value_of_zero hnearest.eq_zero).ge

end Rounded

end Facet
