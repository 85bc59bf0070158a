import Facet.Proofs.FloatBits
import Facet.Proofs.NearestMagnitude

namespace Facet

open Float.Model Float.Model.UnpackedFloat

/-- No magnitude is closer to `x`, a number of units, than the one with these bits. -/
structure IsNearest (bits : Nat) (x : ℝ) : Prop where
  le_infinity : bits ≤ infinityBits
  above : ∀ b < bits, (units b : ℝ) + units (b + 1) ≤ 2 * x
  below : ∀ b, bits ≤ b → b < infinityBits → 2 * x ≤ (units b : ℝ) + units (b + 1)

/-- Rounding keeps the order. That ties go to the even bits does not matter, since there is no tie
between different numbers. -/
theorem IsNearest.le_of_lt {a b : Nat} {x y : ℝ} (ha : IsNearest a x) (hb : IsNearest b y)
    (h : x < y) : a ≤ b := by
  by_contra hlt
  have hlt := Nat.lt_of_not_le hlt
  have hx := ha.above b hlt
  have hy := hb.below b le_rfl (hlt.trans_le ha.le_infinity)
  linarith

theorem cast_units_le {a b : Nat} (h : a ≤ b) : (units a : ℝ) ≤ units b :=
  Nat.cast_le.mpr (strictMono_units.monotone h)

/-- It is enough to look at the next magnitude on either side. What would come behind infinity is
infinity. -/
theorem isNearest_min {bits : Nat} {x : ℝ}
    (above : ∀ b, b + 1 = bits → (units b : ℝ) + units (b + 1) ≤ 2 * x)
    (below : 2 * x ≤ (units bits : ℝ) + units (bits + 1)) :
    IsNearest (min bits infinityBits) x := by
  refine ⟨Nat.min_le_right _ _, ?_, ?_⟩
  · intro b hb
    obtain ⟨last, rfl⟩ : ∃ last, bits = last + 1 := ⟨bits - 1, by omega⟩
    have hlast := above last rfl
    have hfirst := cast_units_le (show b ≤ last by omega)
    have hsecond := cast_units_le (show b + 1 ≤ last + 1 by omega)
    linarith
  · intro b hb hfinite
    have hfirst := cast_units_le (show bits ≤ b by omega)
    have hsecond := cast_units_le (show bits + 1 ≤ b + 1 by omega)
    linarith

/-- The mantissa is cut off from `x`, and the residual bits tell how much is cut: whether it is half
a last place or more, and whether that is all. -/
def IsCutFrom (em : ExtendedMantissa) (x : ℝ) : Prop :=
  ∃ part : ℝ, 0 ≤ part ∧ part < 1 ∧ (em.stickyBit = false ↔ part = 0) ∧
    2 * x = 2 * em.mantissa + em.roundBit.toNat + part

theorem IsCutFrom.mantissa_le {em : ExtendedMantissa} {x : ℝ} (h : IsCutFrom em x) :
    (em.mantissa : ℝ) ≤ x := by
  obtain ⟨part, hnonneg, -, -, hx⟩ := h
  have hbit : (0 : ℝ) ≤ em.roundBit.toNat := Nat.cast_nonneg _
  linarith

theorem isCutFrom_exact (m : Nat) :
    IsCutFrom (ExtendedMantissa.ofMantissaAndAccuracy m .exact) m := by
  refine ⟨0, le_rfl, one_pos, by simp [ExtendedMantissa.ofMantissaAndAccuracy], ?_⟩
  simp [ExtendedMantissa.ofMantissaAndAccuracy]

theorem isCutFrom_less {m : Nat} {x : ℝ} (hlow : m < x) (hhigh : 2 * x < 2 * m + 1) :
    IsCutFrom (ExtendedMantissa.ofMantissaAndAccuracy m (.inexact .lt)) x := by
  refine ⟨2 * x - 2 * m, by linarith, by linarith, ?_, ?_⟩
  · have hne : 2 * x - 2 * m ≠ 0 := by linarith
    simp [ExtendedMantissa.ofMantissaAndAccuracy, hne]
  · simp [ExtendedMantissa.ofMantissaAndAccuracy]

theorem isCutFrom_half {m : Nat} {x : ℝ} (h : 2 * x = 2 * m + 1) :
    IsCutFrom (ExtendedMantissa.ofMantissaAndAccuracy m (.inexact .eq)) x := by
  refine ⟨0, le_rfl, one_pos, by simp [ExtendedMantissa.ofMantissaAndAccuracy], ?_⟩
  simp [ExtendedMantissa.ofMantissaAndAccuracy, h]

theorem isCutFrom_more {m : Nat} {x : ℝ} (hlow : 2 * m + 1 < 2 * x) (hhigh : x < m + 1) :
    IsCutFrom (ExtendedMantissa.ofMantissaAndAccuracy m (.inexact .gt)) x := by
  refine ⟨2 * x - 2 * m - 1, by linarith, by linarith, ?_, ?_⟩
  · have hne : 2 * x - 2 * m - 1 ≠ 0 := by linarith
    simp [ExtendedMantissa.ofMantissaAndAccuracy, hne]
  · simp only [ExtendedMantissa.ofMantissaAndAccuracy, Bool.toNat_true, Nat.cast_one]
    ring

theorem IsCutFrom.shiftRightOne {em : ExtendedMantissa} {x : ℝ} (h : IsCutFrom em x) :
    IsCutFrom em.shiftRightOne (x / 2) := by
  obtain ⟨part, hnonneg, hlt, hsticky, hx⟩ := h
  have hdigits : (em.mantissa : ℝ) = 2 * (em.mantissa / 2 : Nat) + (em.mantissa % 2 : Nat) := by
    exact_mod_cast (Nat.div_add_mod em.mantissa 2).symm
  have hround : (em.mantissa % 2 != 0).toNat = em.mantissa % 2 := by
    rcases Nat.mod_two_eq_zero_or_one em.mantissa with h | h <;> simp [h]
  have hbit : (em.roundBit.toNat : ℝ) = 0 ∧ em.roundBit = false ∨
      (em.roundBit.toNat : ℝ) = 1 ∧ em.roundBit = true := by
    cases em.roundBit <;> simp
  refine ⟨(em.roundBit.toNat + part) / 2, ?_, ?_, ?_, ?_⟩
  · rcases hbit with ⟨hbit, -⟩ | ⟨hbit, -⟩ <;> linarith
  · rcases hbit with ⟨hbit, -⟩ | ⟨hbit, -⟩ <;> linarith
  · rcases hbit with ⟨hbit, hfalse⟩ | ⟨hbit, htrue⟩
    · simp [ExtendedMantissa.shiftRightOne, hfalse, hsticky]
    · have hne : (1 + part) / 2 ≠ 0 := by linarith
      simp [ExtendedMantissa.shiftRightOne, htrue, hne]
  · simp only [ExtendedMantissa.shiftRightOne, hround]
    linarith

theorem IsCutFrom.shiftRight {em : ExtendedMantissa} {x : ℝ} (h : IsCutFrom em x) (k : Nat) :
    IsCutFrom (em >>> k) (x / 2 ^ k) := by
  induction k with
  | zero => simpa [HShiftRight.hShiftRight, Nat.repeat] using h
  | succ k ih =>
    rw [pow_succ, ← div_div]
    exact ih.shiftRightOne

theorem mantissa_ofMantissaAndAccuracy (m : Nat) (accuracy : Accuracy) :
    (ExtendedMantissa.ofMantissaAndAccuracy m accuracy).mantissa = m := by
  rcases accuracy with _ | order
  · rfl
  · cases order <;> rfl

theorem mantissa_shiftRight (em : ExtendedMantissa) (k : Nat) :
    (em >>> k).mantissa = em.mantissa / 2 ^ k := by
  induction k with
  | zero => exact (Nat.div_one _).symm
  | succ k ih =>
    rw [Nat.pow_succ, ← Nat.div_div_eq_div_mul, ← ih]
    rfl

theorem roundedMantissa_bounds (em : ExtendedMantissa) :
    em.mantissa ≤ em.roundedMantissa ∧ em.roundedMantissa ≤ em.mantissa + 1 := by
  obtain ⟨m, round, sticky⟩ := em
  cases round <;> cases sticky <;>
    simp only [ExtendedMantissa.roundedMantissa, ExtendedMantissa.accuracy,
      Accuracy.roundToNearestEven] <;> omega

/-- The mantissa is rounded to a whole number that is closest. -/
theorem IsCutFrom.rounded {em : ExtendedMantissa} {x : ℝ} (h : IsCutFrom em x) :
    2 * x ≤ 2 * em.roundedMantissa + 1 ∧ (2 * em.roundedMantissa : ℝ) ≤ 2 * x + 1 := by
  obtain ⟨part, hnonneg, hlt, hsticky, hx⟩ := h
  obtain ⟨m, round, sticky⟩ := em
  have hparity : ((m % 2 : Nat) : ℝ) ≤ 1 := by
    exact_mod_cast Nat.le_of_lt_succ (Nat.mod_lt m two_pos)
  have heven : (0 : ℝ) ≤ ((m % 2 : Nat) : ℝ) := Nat.cast_nonneg _
  cases round <;> cases sticky <;>
    simp only [ExtendedMantissa.roundedMantissa, ExtendedMantissa.accuracy,
      Accuracy.roundToNearestEven, Bool.toNat_false, Bool.toNat_true, Nat.cast_add, Nat.cast_one,
      Nat.cast_zero, true_iff] at * <;>
    constructor <;> linarith

theorem toNat_packedInfinity (s : Sign) :
    (packedInfinity .binary64 s).toNat = 2 ^ 63 * s.toBitVec.toNat + infinityBits := by
  rw [packedInfinity, toNat_packComponents]
  rfl

/-- A full mantissa, with its doublings counted from the last subnormal exponent on. -/
theorem toNat_pack_full (s : Sign) {d m : Nat} (hm : m < 2 ^ 52) :
    (UnpackedFloat.pack .binary64 (.finite s (2 ^ 52 + m) (d - 1074) (by omega))).toNat =
      2 ^ 63 * s.toBitVec.toNat + min ((d + 1) * 2 ^ 52 + m) infinityBits := by
  have hinfinity := infinityBits_eq
  by_cases hlarge : 2047 ≤ d + 1
  · have hexp : 2 ^ Format.binary64.exponentBits ≤ ((d : Int) - 1074 +
        Format.binary64.exponentBias + Format.binary64.mantissaBitsWithoutImplicit).toNat + 1 := by
      change 2048 ≤ ((d : Int) - 1074 + (1023 : Nat) + (52 : Nat)).toNat + 1
      omega
    rw [UnpackedFloat.pack, if_pos hexp, toNat_packedInfinity]
    omega
  · have hpack := pack_normal s (show d + 1 < 2047 by omega) hm
    have hexponent : ((d + 1 : Nat) : Int) - 1075 = d - 1074 := by omega
    simp only [hexponent] at hpack
    rw [hpack, toNat_packComponents, BitVec.toNat_ofNat, BitVec.toNat_ofNat,
      Nat.mod_eq_of_lt (show d + 1 < 2 ^ 11 by omega), Nat.mod_eq_of_lt hm]
    omega

def finiteOrZero (s : Sign) (m : Nat) (e : Int) : UnpackedFloat :=
  if h : m = 0 then .zero s else .finite s m e (Nat.pos_of_ne_zero h)

/-- What a rounded mantissa becomes, after it has been carried over to the next exponent where that
is needed. -/
def carried (s : Sign) (n : Nat) (e : Int) : UnpackedFloat :=
  let shifted := shiftToTargetExponent .binary64 n e .exact
  finiteOrZero s shifted.1.mantissa shifted.2

theorem targetExponent_eq (m : Nat) (e : Int) :
    Format.binary64.targetExponent (totalExponent m e) = max (m.log2 + e - 52) (-1074) := by
  change max ((m.log2 : Int) + 1 + e - (53 : Nat)) (-1074) = _
  omega

theorem shiftToTargetExponent_small {n d : Nat} (hn : n < 2 ^ 53) :
    shiftToTargetExponent .binary64 n (d - 1074) .exact =
      (ExtendedMantissa.ofMantissaAndAccuracy n .exact, (d - 1074 : Int)) := by
  have hlog : n.log2 ≤ 52 := by
    rcases Nat.eq_zero_or_pos n with rfl | hpos
    · simp
    · exact Nat.le_of_lt_succ ((Nat.log2_lt hpos.ne').mpr hn)
  have hshift : (max ((n.log2 : Int) + (d - 1074) - 52) (-1074) - (d - 1074)).toNat = 0 := by
    omega
  simp only [shiftToTargetExponent, shiftToExponent, targetExponent_eq, hshift]
  rw [Nat.cast_zero, add_zero]
  rfl

theorem shiftToTargetExponent_carry (d : Nat) :
    shiftToTargetExponent .binary64 (2 ^ 53) (d - 1074) .exact =
      (ExtendedMantissa.ofMantissaAndAccuracy (2 ^ 52) .exact, ((d + 1 : Nat) - 1074 : Int)) := by
  have hshift : (max (((2 ^ 53).log2 : Int) + (d - 1074) - 52) (-1074) - (d - 1074)).toNat = 1 := by
    rw [Nat.log2_two_pow]
    omega
  simp only [shiftToTargetExponent, shiftToExponent, targetExponent_eq, hshift]
  have hexponent : (d : Int) - 1074 + (1 : Nat) = (d + 1 : Nat) - 1074 := by omega
  rw [hexponent]
  rfl

theorem carried_small (s : Sign) {n d : Nat} (hn : n < 2 ^ 53) :
    carried s n (d - 1074) = finiteOrZero s n (d - 1074) := by
  rw [carried, shiftToTargetExponent_small hn]
  rfl

theorem carried_carry (s : Sign) (d : Nat) :
    carried s (2 ^ 53) (d - 1074) = finiteOrZero s (2 ^ 52) ((d + 1 : Nat) - 1074) := by
  rw [carried, shiftToTargetExponent_carry]
  rfl

/-- The bits of a magnitude go on counting where a mantissa is carried over, and past the subnormal
ones too. -/
theorem toNat_pack_carried (s : Sign) {n d : Nat} (hn : n ≤ 2 ^ 53) (hd : 0 < d → 2 ^ 52 ≤ n) :
    (UnpackedFloat.pack .binary64 (carried s n (d - 1074))).toNat =
      2 ^ 63 * s.toBitVec.toNat + min (d * 2 ^ 52 + n) infinityBits := by
  have hinfinity := infinityBits_eq
  rcases Nat.lt_or_ge n (2 ^ 52) with hsub | hfull
  · obtain rfl : d = 0 := by omega
    rw [carried_small s (by omega)]
    rcases Nat.eq_zero_or_pos n with rfl | hpos
    · have hpack := toNat_packComponents s 0 0
      refine hpack.trans ?_
      simp
    · have hpack := pack_subnormal s hpos hsub
      rw [finiteOrZero, dif_neg hpos.ne']
      change (UnpackedFloat.pack .binary64 (.finite s n (-1074) hpos)).toNat = _
      have hzero : (0 : BitVec 11).toNat = 0 := rfl
      rw [hpack, toNat_packComponents, BitVec.toNat_ofNat, Nat.mod_eq_of_lt hsub, hzero]
      omega
  · rcases Nat.lt_or_ge n (2 ^ 53) with hlt | hge
    · obtain ⟨m, rfl⟩ := Nat.exists_eq_add_of_le hfull
      have hpack := toNat_pack_full s (show m < 2 ^ 52 by omega) (d := d)
      rw [carried_small s hlt, finiteOrZero, dif_neg (by omega), hpack]
      omega
    · obtain rfl := Nat.le_antisymm hn hge
      have hpack := toNat_pack_full s (show 0 < 2 ^ 52 by omega) (d := d + 1)
      rw [carried_carry, finiteOrZero, dif_neg (by omega)]
      refine hpack.trans ?_
      omega

/-- The value of the bits that a rounded mantissa is packed as. -/
theorem units_add_mantissa {n d : Nat} (hn : n ≤ 2 ^ 53) (hd : 0 < d → 2 ^ 52 ≤ n) :
    units (d * 2 ^ 52 + n) = n * 2 ^ d := by
  rw [units_eq, doublings, significand_eq, Nat.shiftRight_eq_div_pow]
  rcases Nat.lt_or_ge n (2 ^ 52) with hsub | hfull
  · obtain rfl : d = 0 := by omega
    rw [if_pos (by omega), show (0 * 2 ^ 52 + n) / 2 ^ 52 - 1 = 0 by omega, Nat.zero_mul,
      Nat.zero_add]
  · rw [if_neg (by omega)]
    rcases Nat.lt_or_ge n (2 ^ 53) with hlt | hge
    · rw [show (d * 2 ^ 52 + n) / 2 ^ 52 - 1 = d by omega,
        show 2 ^ 52 + (d * 2 ^ 52 + n) % 2 ^ 52 = n by omega]
    · obtain rfl := Nat.le_antisymm hn hge
      rw [show (d * 2 ^ 52 + 2 ^ 53) / 2 ^ 52 - 1 = d + 1 by omega,
        show 2 ^ 52 + (d * 2 ^ 52 + 2 ^ 53) % 2 ^ 52 = 2 ^ 52 by omega, Nat.pow_succ 2 d]
      omega

/-- A mantissa rounded to the closest whole number is packed as the closest magnitude. Only at a
power of two are the magnitudes below closer to each other than those above. -/
theorem isNearest_of_rounded {n d : Nat} {y : ℝ} (hn : n ≤ 2 ^ 53) (hd : 0 < d → 2 ^ 52 ≤ n)
    (hfull : 0 < d → 2 ^ 52 ≤ y) (hlow : (2 * n : ℝ) ≤ 2 * y + 1) (hhigh : 2 * y ≤ 2 * n + 1) :
    IsNearest (min (d * 2 ^ 52 + n) infinityBits) (y * 2 ^ d) := by
  have hpos : (0 : ℝ) < 2 ^ d := by positivity
  have hunits : (units (d * 2 ^ 52 + n) : ℝ) = n * 2 ^ d := by
    rw [units_add_mantissa hn hd]
    push_cast
    ring
  apply isNearest_min
  · intro b hb
    rw [hb, hunits]
    by_cases hpower : 0 < d ∧ n = 2 ^ 52
    · obtain ⟨hdpos, rfl⟩ := hpower
      obtain ⟨k, rfl⟩ : ∃ k, d = k + 1 := ⟨d - 1, by omega⟩
      have hbelow := units_add_mantissa (show 2 ^ 53 - 1 ≤ 2 ^ 53 by omega)
        (show 0 < k → 2 ^ 52 ≤ 2 ^ 53 - 1 by omega)
      have hb : b = k * 2 ^ 52 + (2 ^ 53 - 1) := by omega
      have hscaled := mul_le_mul_of_nonneg_right (hfull hdpos) hpos.le
      have hk : (0 : ℝ) < 2 ^ k := by positivity
      have hdouble : (2 : ℝ) ^ (k + 1) = 2 ^ k * 2 := pow_succ 2 k
      rw [hdouble] at hscaled
      rw [hb, hbelow, hdouble]
      push_cast
      linarith
    · obtain ⟨last, rfl⟩ : ∃ last, n = last + 1 := ⟨n - 1, by omega⟩
      have hbelow := units_add_mantissa (show last ≤ 2 ^ 53 by omega)
        (show 0 < d → 2 ^ 52 ≤ last by omega)
      have hb : b = d * 2 ^ 52 + last := by omega
      have hscaled := mul_le_mul_of_nonneg_right hlow hpos.le
      rw [hb, hbelow]
      push_cast at hscaled ⊢
      linarith
  · have hnext : (n + 1) * 2 ^ d ≤ units (d * 2 ^ 52 + n + 1) := by
      rcases Nat.lt_or_ge n (2 ^ 53) with hlt | hge
      · rw [Nat.add_assoc, units_add_mantissa (by omega) (by omega)]
      · obtain rfl := Nat.le_antisymm hn hge
        have hcarry := units_add_mantissa (show 2 ^ 52 + 1 ≤ 2 ^ 53 by omega)
          (show 0 < d + 1 → 2 ^ 52 ≤ 2 ^ 52 + 1 by omega)
        rw [show d * 2 ^ 52 + 2 ^ 53 + 1 = (d + 1) * 2 ^ 52 + (2 ^ 52 + 1) by omega, hcarry,
          Nat.pow_succ]
        omega
    have hnext : ((n : ℝ) + 1) * 2 ^ d ≤ units (d * 2 ^ 52 + n + 1) := by exact_mod_cast hnext
    have hscaled := mul_le_mul_of_nonneg_right hhigh hpos.le
    rw [hunits]
    linarith

/-- A number `x` of last places that a mantissa is cut off from is rounded to the closest magnitude,
if the mantissa has as many digits as the exponent leaves room for. -/
theorem toNat_pack_roundWithAccuracy (s : Sign) {m : Nat} {e : Int} {accuracy : Accuracy} {x : ℝ}
    (hx : IsCutFrom (ExtendedMantissa.ofMantissaAndAccuracy m accuracy) x)
    (he : e ≤ max (m.log2 + e - 52) (-1074)) :
    ∃ bits, IsNearest bits (x * 2 ^ (e + 1074)) ∧
      (UnpackedFloat.pack .binary64 (roundWithAccuracy .binary64 s m e accuracy)).toNat =
        2 ^ 63 * s.toBitVec.toNat + bits := by
  obtain ⟨k, hk⟩ := Int.eq_ofNat_of_zero_le (show 0 ≤ max (m.log2 + e - 52) (-1074) - e by omega)
  obtain ⟨d, hd⟩ := Int.eq_ofNat_of_zero_le (show 0 ≤ e + k + 1074 by omega)
  let em := ExtendedMantissa.ofMantissaAndAccuracy m accuracy >>> k
  have hcut : IsCutFrom em (x / 2 ^ k) := hx.shiftRight k
  have hmantissa : em.mantissa = m / 2 ^ k := by
    rw [mantissa_shiftRight, mantissa_ofMantissaAndAccuracy]
  have hrounded : roundWithAccuracy .binary64 s m e accuracy =
      carried s em.roundedMantissa (d - 1074) := by
    have hexponent : e + (k : Int) = d - 1074 := by omega
    have hshift : shiftToTargetExponent .binary64 m e accuracy = (em, (d - 1074 : Int)) := by
      simp only [shiftToTargetExponent, shiftToExponent, targetExponent_eq, hk, Int.toNat_natCast,
        hexponent]
      rfl
    simp only [roundWithAccuracy, hshift]
    rfl
  have hlt : em.mantissa < 2 ^ 53 := by
    rw [hmantissa, Nat.div_lt_iff_lt_mul (Nat.two_pow_pos k), ← Nat.pow_add]
    exact lt_of_lt_of_le Nat.lt_log2_self (Nat.pow_le_pow_right two_pos (by omega))
  have hfull : 0 < d → 2 ^ 52 ≤ em.mantissa := by
    intro hpos
    have hlog : m.log2 = 52 + k := by omega
    have hne : m ≠ 0 := by
      rintro rfl
      simp at hlog
      omega
    rw [hmantissa, Nat.le_div_iff_mul_le (Nat.two_pow_pos k), ← Nat.pow_add, ← hlog]
    exact Nat.log2_self_le hne
  obtain ⟨hge, hle⟩ := roundedMantissa_bounds em
  obtain ⟨hhigh, hlow⟩ := hcut.rounded
  have hleast : 0 < d → (2 ^ 52 : ℝ) ≤ x / 2 ^ k := by
    intro hpos
    have hdigits : (2 ^ 52 : ℝ) ≤ em.mantissa := by exact_mod_cast hfull hpos
    exact hdigits.trans hcut.mantissa_le
  have hnearest := isNearest_of_rounded (n := em.roundedMantissa) (d := d) (y := x / 2 ^ k)
    (by omega) (fun hpos => (hfull hpos).trans hge) hleast hlow hhigh
  refine ⟨min (d * 2 ^ 52 + em.roundedMantissa) infinityBits, ?_, ?_⟩
  · have hscale : x * (2 : ℝ) ^ (e + 1074) = x / 2 ^ k * 2 ^ d := by
      have hexponent : e + 1074 = (d : Int) - k := by omega
      rw [hexponent, zpow_sub₀ two_ne_zero, zpow_natCast, zpow_natCast]
      ring
    rw [hscale]
    exact hnearest
  · rw [hrounded]
    exact toNat_pack_carried s (by omega) fun hpos => (hfull hpos).trans hge

end Facet
