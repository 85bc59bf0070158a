import Facet.Solid
import Facet.Proofs.CylinderSurface
import Facet.Proofs.SphereSurface

namespace Facet

theorem length_flatMap_quad (index : UInt32 → UInt32 → UInt32) (rows : List UInt32) (n : UInt32) :
    (rows.flatMap fun row => (indicesBelow n).flatMap (quad index row)).length =
      2 * (rows.length * n.toNat) := by
  have hquad (row column : UInt32) : (quad index row column).length = 2 := rfl
  simp only [List.length_flatMap, hquad, List.map_const', List.sum_replicate_nat,
    length_indicesBelow]
  rw [← Nat.mul_assoc, Nat.mul_comm]

theorem SphereGrid.size_triangles {g : SphereGrid} (h : 2 ≤ g.belts.toNat) :
    g.mesh.triangles.size = g.triangleCount := by
  obtain ⟨inner, hinner⟩ : ∃ inner, g.belts.toNat - 1 = inner + 1 := ⟨g.belts.toNat - 2, by omega⟩
  change g.triangles.length = _
  rw [triangles, List.length_append, List.length_append, length_map_indicesBelow,
    length_map_indicesBelow, length_flatMap_quad, List.length_drop, length_indicesBelow,
    toNat_sub_one (by omega), triangleCount, hinner, Nat.add_sub_cancel, Nat.succ_mul inner]
  omega

theorem CylinderGrid.length_capTriangles (g : CylinderGrid) :
    g.capTriangles.length = 2 * g.slices.toNat := by
  rw [capTriangles, List.length_append, length_map_indicesBelow, length_map_indicesBelow,
    Nat.two_mul]

theorem CylinderGrid.size_triangles {g : CylinderGrid} (h : 1 ≤ g.rings.toNat) (capped : Bool) :
    (g.mesh capped).triangles.size = g.triangleCount capped := by
  have hside : g.sideTriangles.length = 2 * ((g.rings.toNat - 1) * g.slices.toNat) := by
    rw [sideTriangles, length_flatMap_quad, length_indicesBelow, toNat_sub_one h]
  change (g.triangles capped).length = _
  cases capped with
  | false => exact hside
  | true =>
    change (g.sideTriangles ++ g.capTriangles).length = _
    rw [List.length_append, hside, g.length_capTriangles]
    rfl

namespace Tolerance

variable (t : Tolerance)

theorem size_triangles_sphereMesh :
    (sphereMesh t).triangles.size = t.sphereGrid.triangleCount :=
  SphereGrid.size_triangles t.two_le_belts

theorem size_triangles_cylinderMesh (radius height : Float) (capped : Bool) :
    (cylinderMesh t radius height capped).triangles.size =
      (t.cylinderGrid radius height).triangleCount capped := by
  have hrings := t.two_le_rings_cylinderGrid radius height
  exact CylinderGrid.size_triangles (by omega) capped

/-- The triangles of a sphere, unlike those of a cylinder, can always be counted with 64 bits. -/
theorem size_triangles_sphereMesh_lt : (sphereMesh t).triangles.size < 2 ^ 64 := by
  have hbelts : t.belts.toNat - 1 ≤ 2 ^ 31 := by
    have hle := t.belts_le
    have hlt := t.maxSegments.toNat_lt
    omega
  have hslices : t.slices.toNat ≤ 2 ^ 32 - 1 := Nat.le_sub_one_of_lt t.slices.toNat_lt
  have hmul := Nat.mul_le_mul hbelts hslices
  rw [size_triangles_sphereMesh]
  change 2 * ((t.belts.toNat - 1) * t.slices.toNat) < 2 ^ 64
  omega

theorem size_triangles_cylinderMesh_lt {t : Tolerance} (h : t.maxSegments.toNat < 2 ^ 31)
    (radius height : Float) (capped : Bool) :
    (cylinderMesh t radius height capped).triangles.size < 2 ^ 64 := by
  have hrows : (t.cylinderGrid radius height).rings.toNat - 1 ≤ 2 ^ 31 - 1 := by
    have hsteps := t.steps_le (positiveLength height)
    rw [t.toNat_rings_cylinderGrid]
    omega
  have hslices : t.slices.toNat ≤ 2 ^ 32 - 1 := Nat.le_sub_one_of_lt t.slices.toNat_lt
  have hmul := Nat.mul_le_mul hrows hslices
  rw [size_triangles_cylinderMesh]
  change 2 * (((t.cylinderGrid radius height).rings.toNat - 1) * t.slices.toNat) +
    (if capped then 2 * t.slices.toNat else 0) < 2 ^ 64
  split <;> omega

end Tolerance

namespace Solid

variable (t : Tolerance) (solid : Solid)

theorem vertices_pos : 0 < (solid.tessellate t).vertices.size := by
  cases solid with
  | unitSphere =>
    change 0 < t.sphereGrid.mesh.vertices.size
    rw [SphereGrid.size_vertices]
    exact Nat.succ_pos _
  | cylinder radius height capped =>
    let g := t.cylinderGrid radius height
    have hrings : 0 < g.rings.toNat :=
      Nat.lt_of_lt_of_le Nat.two_pos (t.two_le_rings_cylinderGrid radius height)
    have hslices : 0 < g.slices.toNat :=
      Nat.lt_of_lt_of_le (show 0 < 6 by decide) t.six_le_slices
    change 0 < (g.mesh capped).vertices.size
    rw [CylinderGrid.size_vertices]
    exact Nat.add_pos_left (Nat.mul_pos hrings hslices) _

theorem size_triangles_lt (h : solid = unitSphere ∨ t.maxSegments.toNat < 2 ^ 31) :
    (solid.tessellate t).triangles.size < 2 ^ 64 := by
  cases solid with
  | unitSphere => exact t.size_triangles_sphereMesh_lt
  | cylinder radius height capped =>
    exact Tolerance.size_triangles_cylinderMesh_lt (h.resolve_left nofun) radius height capped

/-- However coarse it is, a solid has a triangle for each of its vertices. -/
theorem size_vertices_le_size_triangles :
    (solid.tessellate t).vertices.size ≤ (solid.tessellate t).triangles.size := by
  have hslices := t.six_le_slices
  cases solid with
  | unitSphere =>
    have hbelts := t.two_le_belts
    have hrow : 1 * 6 ≤ (t.belts.toNat - 1) * t.slices.toNat :=
      Nat.mul_le_mul (by omega) hslices
    change (sphereMesh t).vertices.size ≤ (sphereMesh t).triangles.size
    rw [t.size_triangles_sphereMesh]
    change t.sphereGrid.mesh.vertices.size ≤ _
    rw [SphereGrid.size_vertices]
    change (t.belts.toNat - 1) * t.slices.toNat + 2 ≤ 2 * ((t.belts.toNat - 1) * t.slices.toNat)
    omega
  | cylinder radius height capped =>
    let g := t.cylinderGrid radius height
    obtain ⟨steps, hsteps⟩ : ∃ steps, g.rings.toNat = steps + 2 :=
      Nat.exists_eq_add_of_le' (t.two_le_rings_cylinderGrid radius height)
    change (g.mesh capped).vertices.size ≤ (cylinderMesh t radius height capped).triangles.size
    rw [t.size_triangles_cylinderMesh, CylinderGrid.size_vertices]
    change g.rings.toNat * t.slices.toNat + (if capped then 2 else 0) ≤
      2 * ((g.rings.toNat - 1) * t.slices.toNat) + if capped then 2 * t.slices.toNat else 0
    have hpred : steps + 2 - 1 = steps + 1 := rfl
    rw [hsteps, hpred, Nat.add_mul, Nat.add_mul]
    split <;> omega

end Solid

end Facet
