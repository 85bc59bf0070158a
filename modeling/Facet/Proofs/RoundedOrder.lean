import Facet.Proofs.RoundedValues

namespace Facet

open Float.Model Float.Model.UnpackedFloat

section Magnitudes

variable {bits b : Nat} {x : ℝ}

theorem IsNearest.le_of_units_le (h : IsNearest bits x) (hb : b ≤ infinityBits) (hx : units b ≤ x) :
    b ≤ bits := by
  by_contra hlt
  obtain ⟨last, rfl⟩ : ∃ last, b = last + 1 := ⟨b - 1, by omega⟩
  have hbelow := h.below last (by omega) (by omega)
  have hless : (units last : ℝ) < units (last + 1) := Nat.cast_lt.mpr (units_lt_succ last)
  linarith

theorem IsNearest.le_of_le_units (h : IsNearest bits x) (hx : x ≤ units b) : bits ≤ b := by
  by_contra hlt
  have habove := h.above b (by omega)
  have hless : (units b : ℝ) < units (b + 1) := Nat.cast_lt.mpr (units_lt_succ b)
  linarith

/-- A whole number with few digits is a magnitude, however often it is doubled. -/
theorem exists_units {n : Nat} (hn : n ≤ 2 ^ 53) (d : Nat) : ∃ b, units b = n * 2 ^ d := by
  induction d generalizing n with
  | zero => exact ⟨_, units_add_mantissa (d := 0) hn nofun⟩
  | succ d ih =>
    rcases Nat.lt_or_ge n (2 ^ 52) with hless | hfull
    · obtain ⟨b, hb⟩ := ih (n := 2 * n) (by omega)
      exact ⟨b, by rw [hb, Nat.pow_succ]; ring⟩
    · exact ⟨_, units_add_mantissa (d := d + 1) hn fun _ => hfull⟩

theorem significand_lt (bits : Nat) : significand bits < 2 ^ 53 := by
  rw [significand_eq]
  split <;> omega

theorem exists_units_double (b : Nat) : ∃ double, units double = 2 * units b := by
  obtain ⟨double, hdouble⟩ := exists_units (significand_lt b).le (doublings b + 1)
  exact ⟨double, by rw [hdouble, units_eq b, Nat.pow_succ]; ring⟩

/-- The next magnitude is no farther away than a magnitude from less than half of it. -/
theorem units_add_units_succ_le {m n : Nat} (h : 2 * units m < units n) :
    units m + units (m + 1) ≤ units n := by
  obtain ⟨double, hdouble⟩ := exists_units_double m
  have hle : m ≤ double := by
    rw [← strictMono_units.le_iff_le, hdouble]
    omega
  have hplace := Nat.pow_le_pow_right two_pos (doublings_le hle)
  rw [← hdouble, strictMono_units.lt_iff_lt] at h
  have hnext := strictMono_units.monotone (Nat.succ_le_of_lt h)
  rw [Nat.succ_eq_add_one, units_succ, hdouble] at hnext
  rw [units_succ]
  omega

theorem lt_infinity_of_units {n d : Nat} (hn : n ≤ 2 ^ 53) (hd : d < 2045)
    (hb : units b = n * 2 ^ d) : b < infinityBits := by
  obtain ⟨e, he⟩ : ∃ e, e = 52 + 2046 := ⟨_, rfl⟩
  rw [← strictMono_units.lt_iff_lt, hb, units_infinityBits, ← he]
  calc
    n * 2 ^ d ≤ 2 ^ 53 * 2 ^ d := Nat.mul_le_mul_right _ hn
    _ = 2 ^ (53 + d) := (Nat.pow_add ..).symm
    _ < 2 ^ e := Nat.pow_lt_pow_right one_lt_two (by omega)

end Magnitudes

section Ranks

variable {x y : Float}

theorem isFinite_zero : IsFinite 0 := by
  change magnitudeBits 0 < infinityBits
  decide +kernel

theorem value_zero : value 0 = 0 :=
  value_of_zero (by decide +kernel)

theorem rank_neg (h : magnitudeBits x ≤ infinityBits) : rank (-x) = -rank x := by
  obtain ⟨hbits, hsign⟩ := bits_neg h
  rw [rank, rank, hbits, hsign]
  cases signOf x
  · exact (neg_neg _).symm
  · rfl

theorem rank_le_iff_value_le : rank x ≤ rank y ↔ value x ≤ value y := by
  rw [← not_lt, ← not_lt, rank_lt_iff_value_lt]

theorem le_iff_value_le (hx : IsFinite x) (hy : IsFinite y) : x ≤ y ↔ value x ≤ value y := by
  rw [le_iff_rank_le (Nat.le_of_lt hx) (Nat.le_of_lt hy), rank_le_iff_value_le]

theorem isFinite_of_rank {a b : Float} (ha : IsFinite a) (hb : IsFinite b) (hlow : rank a ≤ rank x)
    (hhigh : rank x ≤ rank b) : IsFinite x := by
  have habits := natAbs_rank a
  have hbbits := natAbs_rank b
  have hxbits := natAbs_rank x
  unfold IsFinite at *
  omega

theorem eq_of_value_eq (hpos : 0 < magnitudeBits x) (h : value x = value y) : x = y :=
  eq_of_rank_eq hpos ((rank_le_iff_value_le.mpr h.le).antisymm (rank_le_iff_value_le.mpr h.ge))

end Ranks

section Rounded

variable {r s a b : Float} {x y : ℝ}

theorem IsRounded.neg (h : IsRounded r x) : IsRounded (-r) (-x) := by
  obtain ⟨hbits, hsign⟩ := bits_neg h.nearest.le_infinity
  have hsize : direction (signOf (-r)) * -x = direction (signOf r) * x := by
    rw [hsign, direction_neg, neg_mul_neg]
  refine ⟨hsize ▸ h.nonneg, ?_⟩
  rw [hbits, hsize]
  exact h.nearest

/-- Rounding keeps the order of different numbers. -/
theorem IsRounded.rank_le_rank (hr : IsRounded r x) (hs : IsRounded s y) (h : x < y) :
    rank r ≤ rank s := by
  have hscaled := mul_lt_mul_of_pos_right h two_zpow_pos
  have hrnonneg := hr.nonneg
  have hsnonneg := hs.nonneg
  have hrnearest := hr.nearest
  have hsnearest := hs.nearest
  rw [rank, rank]
  cases hrsign : signOf r <;> cases hssign : signOf s <;>
    simp only [hrsign, hssign, direction, one_mul, neg_mul, Sign.apply] at *
  case negative.negative =>
    have hle := hsnearest.le_of_lt hrnearest (neg_lt_neg hscaled)
    omega
  case negative.positive => omega
  case positive.negative => linarith
  case positive.positive =>
    have hle := hrnearest.le_of_lt hsnearest hscaled
    omega

/-- What is at most a number is rounded to at most that number. -/
theorem IsRounded.rank_le (h : IsRounded r x) (hb : IsFinite b) (hx : x ≤ value b) :
    rank r ≤ rank b := by
  have hvalue : value b * 2 ^ (1074 : Int) = direction (signOf b) * size b := by
    rw [value_eq, div_mul_cancel₀ _ two_zpow_pos.ne']
  have hscaled := mul_le_mul_of_nonneg_right hx two_zpow_pos.le
  have hnonneg := mul_nonneg h.nonneg two_zpow_pos.le
  have hnearest := h.nearest
  have hsize : 0 ≤ size b := Nat.cast_nonneg _
  rw [hvalue] at hscaled
  rw [rank, rank]
  cases hrsign : signOf r <;> cases hbsign : signOf b <;>
    simp only [hrsign, hbsign, direction, one_mul, neg_mul, Sign.apply] at *
  case negative.negative =>
    have hle := hnearest.le_of_units_le (Nat.le_of_lt hb) (le_neg_of_le_neg hscaled)
    omega
  case negative.positive => omega
  case positive.negative =>
    -- Only zero is both at least zero and at most a number that has a minus sign.
    have hsizezero : size b ≤ 0 := neg_nonneg.mp (hnonneg.trans hscaled)
    have hzero : x * 2 ^ (1074 : Int) ≤ units 0 := by
      rw [units_zero, Nat.cast_zero]
      exact hscaled.trans (neg_nonpos.mpr hsize)
    have hrle := hnearest.le_of_le_units hzero
    have hble : ¬ 0 < magnitudeBits b := fun hpos =>
      absurd (one_le_size hpos) (hsizezero.trans_lt one_pos).not_ge
    omega
  case positive.positive =>
    have hle := hnearest.le_of_le_units hscaled
    omega

theorem IsRounded.le_rank (h : IsRounded r x) (ha : IsFinite a) (hx : value a ≤ x) :
    rank a ≤ rank r := by
  have hneg := h.neg.rank_le ha.neg (by rw [value_neg ha]; exact neg_le_neg hx)
  rw [rank_neg h.nearest.le_infinity, rank_neg (Nat.le_of_lt ha)] at hneg
  omega

/-- What lies between two finite numbers is rounded to a finite number between them. -/
theorem IsRounded.between (h : IsRounded r x) (ha : IsFinite a) (hb : IsFinite b)
    (hlow : value a ≤ x) (hhigh : x ≤ value b) :
    IsFinite r ∧ value a ≤ value r ∧ value r ≤ value b := by
  have hleft := h.le_rank ha hlow
  have hright := h.rank_le hb hhigh
  exact ⟨isFinite_of_rank ha hb hleft hright, rank_le_iff_value_le.mp hleft,
    rank_le_iff_value_le.mp hright⟩

theorem IsRounded.eq_zero (h : IsRounded r 0) : IsFinite r ∧ value r = 0 := by
  obtain ⟨hfinite, hlow, hhigh⟩ := h.between isFinite_zero isFinite_zero value_zero.le value_zero.ge
  rw [value_zero] at hlow hhigh
  exact ⟨hfinite, hhigh.antisymm hlow⟩

/-- A number that is a magnitude already is not changed by rounding. -/
theorem IsRounded.exact (h : IsRounded r x) (bits : Nat) (hbits : bits < infinityBits)
    (hx : |x| * 2 ^ (1074 : Int) = units bits) : IsFinite r ∧ value r = x := by
  have hnearest := h.nearest
  rw [h.direction_mul, hx] at hnearest
  have heq : magnitudeBits r = bits :=
    (hnearest.le_of_le_units le_rfl).antisymm (hnearest.le_of_units_le hbits.le le_rfl)
  refine ⟨heq.trans_lt hbits, ?_⟩
  rw [value_eq, size, heq, ← hx, ← h.direction_mul, ← mul_assoc, ← mul_assoc, direction_mul_self,
    one_mul, mul_div_cancel_right₀ _ two_zpow_pos.ne']

end Rounded

section Division

variable {x y c : Float}

/-- Dividing by the same number keeps the order, also where it rounds. -/
theorem value_div_le (hx : IsFinite x) (hy : IsFinite y) (hc : IsFiniteNonzero c)
    (hpos : 0 < value c) (h : value x ≤ value y) : value (x / c) ≤ value (y / c) := by
  rcases h.lt_or_eq with hlt | heq
  · exact rank_le_iff_value_le.mp
      ((isRounded_div hx hc).rank_le_rank (isRounded_div hy hc) (div_lt_div_of_pos_right hlt hpos))
  · rcases hx.zero_or_nonzero with hzero | hxpos
    · have hxzero := value_of_zero hzero
      have hleft := isRounded_div hx hc
      have hright := isRounded_div hy hc
      rw [hxzero, zero_div] at hleft
      rw [← heq, hxzero, zero_div] at hright
      exact (hleft.eq_zero.2.trans hright.eq_zero.2.symm).le
    · rw [eq_of_value_eq hxpos.pos heq]

end Division

section Exactness

variable {x : Float}

theorem toFloat_exact (n : UInt32) : IsFinite n.toFloat ∧ value n.toFloat = n.toNat := by
  have hlt := n.toNat_lt
  have hrounded : IsRounded n.toFloat n.toNat := by
    have hnormal := isRounded_normalize n.toNat 0
    rwa [zpow_zero, mul_one, Int.cast_natCast] at hnormal
  obtain ⟨bits, hbits⟩ := exists_units (show n.toNat ≤ 2 ^ 53 by omega) 1074
  apply hrounded.exact bits
  · exact lt_infinity_of_units (show n.toNat ≤ 2 ^ 53 by omega) (by decide) hbits
  · have hexponent : (1074 : Int) = (1074 : Nat) := rfl
    rw [hbits, abs_of_nonneg (Nat.cast_nonneg _), hexponent, zpow_natCast, Nat.cast_mul,
      Nat.cast_pow, Nat.cast_ofNat]

/-- Doubling is exact below half of infinity. -/
theorem add_self_exact (hx : IsFinite x)
    (h : 2 * units (magnitudeBits x) < units infinityBits) :
    IsFinite (x + x) ∧ value (x + x) = 2 * value x := by
  obtain ⟨bits, hdouble⟩ := exists_units_double (magnitudeBits x)
  have hrounded := isRounded_add hx hx
  rw [← two_mul] at hrounded
  apply hrounded.exact bits
  · rwa [← strictMono_units.lt_iff_lt, hdouble]
  · rw [hdouble, abs_mul, abs_two, abs_value, size, mul_assoc,
      div_mul_cancel₀ _ two_zpow_pos.ne', Nat.cast_mul, Nat.cast_ofNat]

theorem value_two : value 2 = 2 := by
  rw [value_of_bits (m := 2 ^ 52) (d := 1023) (by decide +kernel) (by decide +kernel)
    (by decide +kernel)]
  norm_num

theorem isFiniteNonzero_two : IsFiniteNonzero 2 :=
  ⟨by decide +kernel, by decide +kernel⟩

theorem isRounded_half (hx : IsFinite x) : IsRounded (x / 2) (value x / 2) := by
  have hrounded := isRounded_div hx isFiniteNonzero_two
  rwa [value_two] at hrounded

/-- Twice a half is never too large, but it is not always the whole. -/
theorem half_add_half_exact (hx : IsFinite x) :
    IsFinite (x / 2 + x / 2) ∧ value (x / 2 + x / 2) = 2 * value (x / 2) := by
  -- The largest finite number and its half.
  obtain ⟨most, hmost⟩ : ∃ most, most = infinityBits - 1 := ⟨_, rfl⟩
  obtain ⟨half, hhalf⟩ : ∃ half, half = infinityBits - 1 - 2 ^ 52 := ⟨_, rfl⟩
  have hdouble : 2 * units half = units most := by
    rw [hmost, hhalf]
    decide +kernel
  have hinfinity := infinityBits_eq
  have hrounded := isRounded_half hx
  have hnearest := hrounded.nearest
  have hsize : |value x / 2| * 2 ^ (1074 : Int) = size x / 2 := by
    rw [abs_div, abs_two, abs_value, div_right_comm, div_mul_cancel₀ _ two_zpow_pos.ne']
  have hle : size x / 2 ≤ units half := by
    have hwhole : size x ≤ units most := cast_units_le (by unfold IsFinite at hx; omega)
    rw [← hdouble, Nat.cast_mul, Nat.cast_ofNat] at hwhole
    linarith
  rw [hrounded.direction_mul, hsize] at hnearest
  have hbits := hnearest.le_of_le_units hle
  have hfinite : IsFinite (x / 2) := by
    unfold IsFinite
    omega
  apply add_self_exact hfinite
  calc
    2 * units (magnitudeBits (x / 2)) ≤ 2 * units half :=
      Nat.mul_le_mul_left 2 (strictMono_units.monotone hbits)
    _ = units most := hdouble
    _ < units infinityBits := strictMono_units (by omega)

end Exactness

section Differences

variable {x a d : Float}

theorem size_of_nonneg (h : 0 ≤ value x) : value x * 2 ^ (1074 : Int) = size x := by
  rw [← abs_of_nonneg h, abs_value, div_mul_cancel₀ _ two_zpow_pos.ne']

/-- Taking away more than twice a number leads below its opposite, and rounding does not lead back
there. -/
theorem sub_lt_neg (ha : IsFinite a) (hd : IsFinite d) (hnonneg : 0 ≤ value a)
    (h : 2 * value a < value d) : value (a - d) < -value a := by
  have hasize := size_of_nonneg hnonneg
  have hdsize : value d * 2 ^ (1074 : Int) = size d := size_of_nonneg (by linarith)
  have hless : 2 * units (magnitudeBits a) < units (magnitudeBits d) := by
    have hscaled := mul_lt_mul_of_pos_right h two_zpow_pos
    rw [mul_assoc, hasize, hdsize, size, size] at hscaled
    exact_mod_cast hscaled
  have hfar : (units (magnitudeBits a + 1) : ℝ) ≤ |value a - value d| * 2 ^ (1074 : Int) := by
    have hsum : (units (magnitudeBits a) + units (magnitudeBits a + 1) : ℝ) ≤ size d := by
      rw [size]
      exact_mod_cast units_add_units_succ_le hless
    rw [abs_of_neg (by linarith), neg_sub, sub_mul, hasize, hdsize]
    exact le_sub_iff_add_le'.mpr hsum
  have hrounded := isRounded_sub ha hd
  have hnearest := hrounded.nearest
  rw [hrounded.direction_mul] at hnearest
  have hlarger : |value a| < |value (a - d)| := by
    rw [abs_value, abs_value]
    exact div_lt_div_of_pos_right
      (size_lt_size.mpr (hnearest.le_of_units_le (Nat.succ_le_of_lt ha) hfar)) two_zpow_pos
  obtain ⟨-, -, hnonpos⟩ := hrounded.between hd.neg isFinite_zero
    (by rw [value_neg hd]; linarith) (by rw [value_zero]; linarith)
  rw [value_zero] at hnonpos
  rw [abs_of_nonneg hnonneg, abs_of_nonpos hnonpos] at hlarger
  linarith

end Differences

end Facet
