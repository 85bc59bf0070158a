import Facet.Proofs.FloatOrder
import Facet.Proofs.SolidCounts

namespace Facet

/-- Larger counts are kept in a range that reaches no less far on either side, even where its bounds
cross. -/
theorem clampSegments_le {m n low low' high high' : UInt32} (h : m.toNat ≤ n.toNat)
    (hlow : low.toNat ≤ low'.toNat) (hhigh : high.toNat ≤ high'.toNat) :
    (clampSegments m low high).toNat ≤ (clampSegments n low' high').toNat := by
  rw [toNat_clampSegments, toNat_clampSegments]
  omega

theorem toNat_evened (n : UInt32) :
    (if n % 2 = 0 then n else succSaturating n).toNat =
      min (n.toNat + n.toNat % 2) 0xffffffff := by
  have hlt := n.toNat_lt
  have hmod : (n % 2).toNat = n.toNat % 2 := UInt32.toNat_mod n 2
  split
  next h =>
    have heven : n.toNat % 2 = 0 := by rw [← hmod, h]; rfl
    omega
  next h =>
    have hodd : n.toNat % 2 ≠ 0 := fun hzero => h (UInt32.toNat_inj.mp (hmod.trans hzero))
    rw [toNat_succSaturating]
    omega

theorem isPositive_of_bits {x : Float} (h : isNegative x = false ∧ 0 < magnitudeBits x ∧
    magnitudeBits x ≤ infinityBits) : IsPositive x :=
  ⟨by rw [signOf, h.1]; rfl, h.2.1, h.2.2⟩

namespace Tolerance

theorem isPositive_minLinear : IsPositive minLinear :=
  isPositive_of_bits (by decide +kernel)

theorem isPositive_minLinearAlongHeight : IsPositive minLinearAlongHeight :=
  isPositive_of_bits (by decide +kernel)

theorem isPositive_minAngularDegrees : IsPositive minAngularDegrees :=
  isPositive_of_bits (by decide +kernel)

theorem isPositive_radians_minAngularDegrees : IsPositive (radians minAngularDegrees) :=
  isPositive_of_bits (by decide +kernel)

theorem isPositive_degree : IsPositive (pi / 180) :=
  isPositive_of_bits (by decide +kernel)

theorem isFiniteNonzero_degree : IsFiniteNonzero (pi / 180) :=
  ⟨isPositive_degree.pos, by decide +kernel⟩

section Deviations

variable {a b floor : Float}

theorem ceil32_div_sqrt_le (h : a ≤ b) (hfloor : IsPositive floor) (dividend : Float) :
    (ceil32 (dividend / (greater b floor).sqrt)).toNat ≤
      (ceil32 (dividend / (greater a floor).sqrt)).toNat := by
  obtain ⟨ha, hb, -⟩ := rank_le_rank h
  have hleft := (greater_eq ha hfloor).1
  have hright := (greater_eq hb hfloor).1
  exact ceil32_div_le hleft.sqrt hright.sqrt
    (hleft.sqrt_le_sqrt hright (greater_le_greater h hfloor))

theorem ceil32_div_greater_le (h : a ≤ b) (hfloor : IsPositive floor) (dividend : Float) :
    (ceil32 (dividend / greater b floor)).toNat ≤ (ceil32 (dividend / greater a floor)).toNat := by
  obtain ⟨ha, hb, -⟩ := rank_le_rank h
  exact ceil32_div_le (greater_eq ha hfloor).1 (greater_eq hb hfloor).1
    (greater_le_greater h hfloor)

/-- What is left of an angle in radians is still positive, because the least angle is. -/
theorem isPositive_radians (ha : magnitudeBits a ≤ infinityBits) :
    IsPositive (radians (greater a minAngularDegrees)) := by
  obtain ⟨hgreater, hrank⟩ := greater_eq ha isPositive_minAngularDegrees
  obtain ⟨hsign, hle⟩ := hgreater.mul_le_infinity isPositive_degree isFiniteNonzero_degree
  have hleast : magnitudeBits minAngularDegrees ≤ magnitudeBits (greater a minAngularDegrees) := by
    rw [hgreater.rank_eq, isPositive_minAngularDegrees.rank_eq] at hrank
    omega
  have hradians := isPositive_minAngularDegrees.mul_le_mul hgreater isPositive_degree
    isFiniteNonzero_degree hleast
  exact ⟨hsign, isPositive_radians_minAngularDegrees.pos.trans_le hradians, hle⟩

theorem ceil32_div_radians_le (h : a ≤ b) (dividend : Float) :
    (ceil32 (dividend / radians (greater b minAngularDegrees))).toNat ≤
      (ceil32 (dividend / radians (greater a minAngularDegrees))).toNat := by
  obtain ⟨ha, hb, -⟩ := rank_le_rank h
  have hleft := (greater_eq ha isPositive_minAngularDegrees).1
  have hright := (greater_eq hb isPositive_minAngularDegrees).1
  exact ceil32_div_le (isPositive_radians ha) (isPositive_radians hb)
    (hleft.mul_le_mul hright isPositive_degree isFiniteNonzero_degree
      (greater_le_greater h isPositive_minAngularDegrees))

end Deviations

/-- Every deviation that is asked for is at most as large, and the range of counts reaches no less
far up on either side. Deviations that compare are no NaNs. -/
structure IsFinerThan (fine coarse : Tolerance) : Prop where
  linear : fine.linear ≤ coarse.linear
  angularDegrees : fine.angularDegrees ≤ coarse.angularDegrees
  minSegments : coarse.minSegments ≤ fine.minSegments
  maxSegments : coarse.maxSegments ≤ fine.maxSegments

namespace IsFinerThan

variable {fine coarse : Tolerance}

theorem slices_le (h : fine.IsFinerThan coarse) : coarse.slices.toNat ≤ fine.slices.toNat := by
  have hwanted := ceil32_div_sqrt_le h.linear isPositive_minLinear (2 * pi)
  have hmin := UInt32.le_iff_toNat_le.mp h.minSegments
  apply clampSegments_le
  · rw [toNat_evened, toNat_evened]
    omega
  · rw [UInt32.toNat_max, UInt32.toNat_max]
    omega
  · exact UInt32.le_iff_toNat_le.mp h.maxSegments

theorem belts_le (h : fine.IsFinerThan coarse) : coarse.belts.toNat ≤ fine.belts.toNat := by
  have hwanted := ceil32_div_radians_le h.angularDegrees pi
  apply clampSegments_le
  · rw [UInt32.toNat_max, UInt32.toNat_max]
    omega
  · exact Nat.le_refl _
  · rw [UInt32.toNat_div, UInt32.toNat_div]
    exact Nat.div_le_div_right (UInt32.le_iff_toNat_le.mp h.maxSegments)

/-- For a height below zero, or one that is no number, the range alone decides. -/
theorem steps_le (h : fine.IsFinerThan coarse) (height : Float) :
    (coarse.steps height).toNat ≤ (fine.steps height).toNat := by
  have hwanted := ceil32_div_greater_le h.linear isPositive_minLinearAlongHeight height
  have hhalf : coarse.minSegments.toNat / 2 ≤ fine.minSegments.toNat / 2 :=
    Nat.div_le_div_right (UInt32.le_iff_toNat_le.mp h.minSegments)
  apply clampSegments_le
  · rw [UInt32.toNat_max, UInt32.toNat_max, UInt32.toNat_div, UInt32.toNat_div]
    exact max_le_max hwanted hhalf
  · exact Nat.le_refl _
  · exact UInt32.le_iff_toNat_le.mp h.maxSegments

theorem triangleCount_sphereGrid_le (h : fine.IsFinerThan coarse) :
    coarse.sphereGrid.triangleCount ≤ fine.sphereGrid.triangleCount :=
  Nat.mul_le_mul_left 2 (Nat.mul_le_mul (Nat.sub_le_sub_right h.belts_le 1) h.slices_le)

theorem rings_cylinderGrid_le (h : fine.IsFinerThan coarse) (radius height : Float) :
    (coarse.cylinderGrid radius height).rings.toNat ≤
      (fine.cylinderGrid radius height).rings.toNat := by
  have hsteps := h.steps_le (positiveLength height)
  rw [toNat_rings_cylinderGrid, toNat_rings_cylinderGrid]
  omega

theorem triangleCount_cylinderGrid_le (h : fine.IsFinerThan coarse) (radius height : Float)
    (capped : Bool) :
    (coarse.cylinderGrid radius height).triangleCount capped ≤
      (fine.cylinderGrid radius height).triangleCount capped := by
  have hrows := Nat.sub_le_sub_right (h.rings_cylinderGrid_le radius height) 1
  have hside := Nat.mul_le_mul hrows h.slices_le
  have hslices := h.slices_le
  change 2 * (((coarse.cylinderGrid radius height).rings.toNat - 1) * coarse.slices.toNat) +
      (if capped then 2 * coarse.slices.toNat else 0) ≤
    2 * (((fine.cylinderGrid radius height).rings.toNat - 1) * fine.slices.toNat) +
      (if capped then 2 * fine.slices.toNat else 0)
  split <;> omega

theorem size_triangles_le (h : fine.IsFinerThan coarse) (solid : Solid) :
    (solid.tessellate coarse).triangles.size ≤ (solid.tessellate fine).triangles.size := by
  cases solid with
  | unitSphere =>
    change (sphereMesh coarse).triangles.size ≤ (sphereMesh fine).triangles.size
    rw [size_triangles_sphereMesh, size_triangles_sphereMesh]
    exact h.triangleCount_sphereGrid_le
  | cylinder radius height capped =>
    change (cylinderMesh coarse radius height capped).triangles.size ≤
      (cylinderMesh fine radius height capped).triangles.size
    rw [size_triangles_cylinderMesh, size_triangles_cylinderMesh]
    exact h.triangleCount_cylinderGrid_le radius height capped

end IsFinerThan

end Tolerance

/-- Smaller deviations and a range that reaches up no less far never cost a segment in any
direction, nor a triangle of any solid. -/
theorem tessellate_finer {fine coarse : Tolerance} (hlinear : fine.linear ≤ coarse.linear)
    (hangular : fine.angularDegrees ≤ coarse.angularDegrees)
    (hmin : coarse.minSegments ≤ fine.minSegments) (hmax : coarse.maxSegments ≤ fine.maxSegments) :
    coarse.slices ≤ fine.slices ∧ coarse.belts ≤ fine.belts ∧
      (∀ height, coarse.steps height ≤ fine.steps height) ∧
      ∀ solid : Solid,
        (solid.tessellate coarse).triangles.size ≤ (solid.tessellate fine).triangles.size := by
  have h : fine.IsFinerThan coarse := ⟨hlinear, hangular, hmin, hmax⟩
  refine ⟨UInt32.le_iff_toNat_le.mpr h.slices_le, UInt32.le_iff_toNat_le.mpr h.belts_le, ?_, ?_⟩
  · exact fun height => UInt32.le_iff_toNat_le.mpr (h.steps_le height)
  · exact h.size_triangles_le

/-- An infinite deviation and a range with crossed bounds are the coarsest of all, and a deviation
below zero counts as the least one. -/
theorem tessellate_finer_of_infinite :
    let coarse : Tolerance := ⟨1 / 0, 15, 20, 10⟩
    let fine : Tolerance := ⟨-1, 0, 20, 700⟩
    (coarse.slices = 20 ∧ coarse.belts = 5 ∧ coarse.steps (1 / 0) = 10) ∧
    (fine.slices = 630 ∧ fine.belts = 350 ∧ fine.steps (1 / 0) = 700) ∧
      ∀ solid : Solid,
        (solid.tessellate coarse).triangles.size ≤ (solid.tessellate fine).triangles.size := by
  intro coarse fine
  have hlinear : fine.linear ≤ coarse.linear := by decide +kernel
  have hangular : fine.angularDegrees ≤ coarse.angularDegrees := by decide +kernel
  have htriangles := (tessellate_finer hlinear hangular (by decide) (by decide)).2.2.2
  exact ⟨by decide +kernel, by decide +kernel, htriangles⟩

end Facet
