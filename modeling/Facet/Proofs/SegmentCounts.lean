import Mathlib.Data.UInt
import Facet.Tolerance

namespace Facet

theorem toNat_clampSegments (n low high : UInt32) :
    (clampSegments n low high).toNat = max (min n.toNat high.toNat) low.toNat := by
  rw [clampSegments, UInt32.toNat_max, UInt32.toNat_min]

theorem toNat_succSaturating (n : UInt32) :
    (succSaturating n).toNat = min (n.toNat + 1) 0xffffffff := by
  have hlt := n.toNat_lt
  unfold succSaturating
  split
  next h =>
    rw [h]
    rfl
  next h =>
    have hne : n.toNat ≠ 0xffffffff := fun he => h (UInt32.toNat_inj.mp he)
    rw [UInt32.toNat_add, UInt32.toNat_one]
    omega

namespace Tolerance

variable (t : Tolerance)

theorem six_le_slices : 6 ≤ t.slices.toNat := by
  have hmin : minSlices.toNat = 6 := rfl
  rw [slices, toNat_clampSegments, UInt32.toNat_max, hmin]
  omega

theorem two_le_belts : 2 ≤ t.belts.toNat := by
  have hmin : minBelts.toNat = 2 := rfl
  rw [belts, toNat_clampSegments, hmin]
  omega

theorem one_le_steps (height : Float) : 1 ≤ (t.steps height).toNat := by
  have hmin : minSteps.toNat = 1 := rfl
  rw [steps, toNat_clampSegments, hmin]
  omega

theorem slices_le : t.slices.toNat ≤ max t.maxSegments.toNat (max t.minSegments.toNat 6) := by
  have hmin : minSlices.toNat = 6 := rfl
  rw [slices, toNat_clampSegments, UInt32.toNat_max, hmin]
  omega

theorem belts_le : t.belts.toNat ≤ max (t.maxSegments.toNat / 2) 2 := by
  have hmin : minBelts.toNat = 2 := rfl
  have hhalf : (t.maxSegments / 2).toNat = t.maxSegments.toNat / 2 := UInt32.toNat_div _ _
  rw [belts, toNat_clampSegments, hmin, hhalf]
  omega

theorem steps_le (height : Float) : (t.steps height).toNat ≤ max t.maxSegments.toNat 1 := by
  have hmin : minSteps.toNat = 1 := rfl
  rw [steps, toNat_clampSegments, hmin]
  omega

end Tolerance

end Facet
