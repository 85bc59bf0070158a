import Facet.Proofs.SegmentOrder

namespace Facet

theorem mod_two_eq_zero_iff {n : UInt32} : n % 2 = 0 ↔ n.toNat % 2 = 0 := by
  rw [← UInt32.toNat_inj, UInt32.toNat_mod]
  rfl

/-- An even number that is kept in a range which holds one stays even, unless it lies beyond an odd
bound. -/
theorem clamp_even_iff {wanted low high n : Nat} (hwanted : wanted % 2 = 0) (heven : n % 2 = 0)
    (hlow : low ≤ n) (hhigh : n ≤ high) :
    max (min wanted high) low % 2 = 0 ↔
      (low % 2 = 0 ∨ low < wanted) ∧ (high % 2 = 0 ∨ wanted < high) := by
  rcases Nat.lt_or_ge low wanted with hbelow | hbelow
  · rcases Nat.lt_or_ge wanted high with habove | habove
    · rw [Nat.min_eq_left habove.le, Nat.max_eq_left hbelow.le]
      exact iff_of_true hwanted ⟨Or.inr hbelow, Or.inr habove⟩
    · rw [Nat.min_eq_right habove, Nat.max_eq_left (hlow.trans hhigh)]
      omega
  · rw [Nat.max_eq_right ((Nat.min_le_left _ _).trans hbelow)]
    omega

namespace Tolerance

variable (t : Tolerance)

/-- The least number of slices that the range has room for. -/
def fewestSlices : UInt32 :=
  max t.minSegments minSlices

/-- The even number of slices that the linear deviation asks for, whatever the range. -/
def evenSlices : UInt32 :=
  let wanted := ceil32 (2 * pi / (greater t.linear minLinear).sqrt)
  if wanted % 2 = 0 then wanted else succSaturating wanted

theorem toNat_slices :
    t.slices.toNat = max (min t.evenSlices.toNat t.maxSegments.toNat) t.fewestSlices.toNat :=
  toNat_clampSegments t.evenSlices t.fewestSlices t.maxSegments

/-- No deviation asks for more slices than the least one does. -/
theorem ceil32_div_sqrt_minLinear_le (x : Float) :
    (ceil32 (2 * pi / (greater x minLinear).sqrt)).toNat ≤ 629 := by
  have hleast : (ceil32 (2 * pi / minLinear.sqrt)).toNat = 629 := by decide +kernel
  rcases Nat.lt_or_ge infinityBits (magnitudeBits x) with hnan | hnumber
  · have hgreater : greater x minLinear = minLinear := if_pos ((isNaN_iff x).mpr hnan)
    rw [hgreater, hleast]
  · obtain ⟨hgreater, hrank⟩ := greater_eq hnumber isPositive_minLinear
    have hle : magnitudeBits minLinear ≤ magnitudeBits (greater x minLinear) := by
      rw [hgreater.rank_eq, isPositive_minLinear.rank_eq] at hrank
      omega
    rw [← hleast]
    exact ceil32_div_le isPositive_minLinear.sqrt hgreater.sqrt
      (isPositive_minLinear.sqrt_le_sqrt hgreater hle)

theorem evenSlices_even : t.evenSlices.toNat % 2 = 0 := by
  have hle := ceil32_div_sqrt_minLinear_le t.linear
  rw [evenSlices, toNat_evened]
  omega

end Tolerance

/-- The number of slices stays in a range that is not empty. In a range with an even number in it
the slices are even as well, unless what is asked for lies beyond a bound that is odd. -/
theorem slices_even_iff (t : Tolerance) {n : UInt32} (heven : n % 2 = 0)
    (hlow : t.fewestSlices ≤ n) (hhigh : n ≤ t.maxSegments) :
    (t.fewestSlices ≤ t.slices ∧ t.slices ≤ t.maxSegments) ∧
      (t.slices % 2 = 0 ↔
        (t.fewestSlices % 2 = 0 ∨ t.fewestSlices < t.evenSlices) ∧
          (t.maxSegments % 2 = 0 ∨ t.evenSlices < t.maxSegments)) := by
  have hslices := t.toNat_slices
  simp only [mod_two_eq_zero_iff, UInt32.le_iff_toNat_le, UInt32.lt_iff_toNat_lt] at *
  refine ⟨by omega, ?_⟩
  rw [hslices]
  exact clamp_even_iff t.evenSlices_even heven hlow hhigh

/-- A deviation that is no number asks for as many slices as the least one. -/
theorem slices_even_iff_of_nan :
    let t : Tolerance := ⟨0 / 0, 15, 7, 1001⟩
    t.evenSlices = 630 ∧ (t.fewestSlices ≤ t.slices ∧ t.slices ≤ t.maxSegments) ∧
      t.slices % 2 = 0 := by
  intro t
  have heven : t.evenSlices = 630 := by decide +kernel
  obtain ⟨hrange, hiff⟩ :=
    slices_even_iff t (n := 8) (by decide +kernel) (by decide +kernel) (by decide +kernel)
  exact ⟨heven, hrange, hiff.mpr ⟨Or.inr (by decide +kernel), Or.inr (by decide +kernel)⟩⟩

/-- Eight slices are in either range, but what is asked for lies above the one and below the
other. -/
theorem slices_odd_at_bounds :
    let fine : Tolerance := ⟨0.5, 15, 8, 9⟩
    let coarse : Tolerance := ⟨100, 15, 7, 8⟩
    (fine.fewestSlices ≤ 8 ∧ 8 ≤ fine.maxSegments ∧ fine.slices = 9) ∧
      (coarse.fewestSlices ≤ 8 ∧ 8 ≤ coarse.maxSegments ∧ coarse.slices = 7) := by
  decide +kernel

end Facet
