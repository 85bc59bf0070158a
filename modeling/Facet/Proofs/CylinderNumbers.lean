import Facet.Proofs.GridNumbers
import Facet.Proofs.SolidCounts

namespace Facet

namespace CylinderGrid

def predictedCounts (g : CylinderGrid) (capped : Bool) : Nat × Nat :=
  let vertices := saturated (g.rings.toNat * g.slices.toNat)
  let triangles := saturated (saturated ((g.rings.toNat - 1) * g.slices.toNat) * 2)
  if capped then (saturated (vertices + 2), saturated (triangles + saturated (g.slices.toNat * 2)))
  else (vertices, triangles)

def index? (g : CylinderGrid) (ring column : UInt32) : Option UInt32 := do
  addChecked (← mulChecked ring g.slices) (← modChecked column g.slices)

/-- The centres get the numbers behind those of the side. -/
def capTriangles? (g : CylinderGrid) : Option (List Triangle) := do
  let lowerCenter ← fitted g.sideVertices.length
  let upperCenter ← fitted (g.sideVertices.length + 1)
  let last ← subChecked g.rings 1
  let upper ← upperFan? g.index? upperCenter 0 g.slices
  let lower ← lowerFan? g.index? lowerCenter last g.slices
  return upper ++ lower

def triangles? (g : CylinderGrid) (capped : Bool) : Option (List Triangle) := do
  let side ← quads? g.index? (indicesBelow (← subChecked g.rings 1)) g.slices
  if capped then return side ++ (← g.capTriangles?) else return side

namespace Fits

variable {g : CylinderGrid} {capped : Bool} (h : g.Fits capped)

include h

theorem slices_pos : 0 < g.slices.toNat :=
  Nat.lt_of_lt_of_le (by decide) h.three_le_slices

theorem rows_le : g.rings.toNat * g.slices.toNat + (if capped then 2 else 0) ≤ 2 ^ 32 :=
  h.vertexCount_le

theorem index_exact {ring : UInt32} (hring : ring.toNat < g.rings.toNat) (column : UInt32) :
    g.index? ring column = some (g.index ring column) ∧
      (g.index ring column).toNat = ring.toNat * g.slices.toNat + column.toNat % g.slices.toNat := by
  have hle := h.rows_le
  have hlt : ring.toNat * g.slices.toNat + column.toNat % g.slices.toNat <
      g.rings.toNat * g.slices.toNat :=
    row_add_lt hring (Nat.mod_lt _ h.slices_pos)
  obtain ⟨hstart?, hstart⟩ := mulChecked_exact (a := ring) (b := g.slices) rfl rfl (by omega)
  obtain ⟨hindex?, hindex⟩ := addChecked_exact hstart (UInt32.toNat_mod column g.slices) (by omega)
  refine ⟨?_, hindex⟩
  simp only [index?, hstart?, modChecked_eq h.slices_pos, Option.bind_eq_bind, Option.bind_some,
    hindex?, index]

theorem toNat_index_lt {ring : UInt32} (hring : ring.toNat < g.rings.toNat) (column : UInt32) :
    (g.index ring column).toNat < g.rings.toNat * g.slices.toNat := by
  rw [(h.index_exact hring column).2]
  exact row_add_lt hring (Nat.mod_lt _ h.slices_pos)

theorem getElem?_vertices {ring : UInt32} (hring : ring.toNat < g.rings.toNat)
    (column : UInt32) :
    (g.mesh capped).vertices[(g.index ring column).toNat]? =
      some (g.point ring (column % g.slices)) := by
  have hrow : (indicesBelow g.rings)[ring.toNat]? = some ring := by
    rw [getElem?_indicesBelow hring, UInt32.ofNat_toNat]
  have hside : g.sideVertices[(g.index ring column).toNat]? =
      some (g.point ring (column % g.slices)) := by
    rw [(h.index_exact hring column).2]
    exact getElem?_flatMap_indicesBelow hrow column h.slices_pos
  have hvertices : (g.mesh capped).vertices = (g.vertices capped).toArray := rfl
  rw [hvertices, List.getElem?_toArray, vertices]
  split
  next =>
    have hlt := h.toNat_index_lt hring column
    rw [← length_sideVertices] at hlt
    rwa [List.getElem?_append_left hlt]
  next => exact hside

theorem quads?_side :
    quads? g.index? (indicesBelow (g.rings - 1)) g.slices = some g.sideTriangles := by
  refine quads?_eq g.slices fun ring hring => ?_
  have hlt := mem_indicesBelow hring
  have hrings := g.rings.toNat_lt
  rw [toNat_last h.two_le_rings] at hlt
  have hnext : (ring + 1).toNat = ring.toNat + 1 :=
    (addChecked_exact rfl UInt32.toNat_one (by omega)).2
  exact ⟨by omega, fun column => ⟨(h.index_exact (by omega) column).1,
    (h.index_exact (by omega) column).1⟩⟩

theorem predictedCounts_eq :
    g.predictedCounts capped = ((g.mesh capped).vertices.size, (g.mesh capped).triangles.size) := by
  -- All of this is far below what 64 bits hold, so nothing is cut off.
  have hle := h.rows_le
  have hslices := g.slices.toNat_lt
  have hrows : (g.rings.toNat - 1) * g.slices.toNat ≤ g.rings.toNat * g.slices.toNat :=
    Nat.mul_le_mul_right _ (Nat.sub_le _ 1)
  have hvertices : saturated (g.rings.toNat * g.slices.toNat) = g.rings.toNat * g.slices.toNat :=
    saturated_of_lt (by omega)
  have hhalf : saturated ((g.rings.toNat - 1) * g.slices.toNat) =
      (g.rings.toNat - 1) * g.slices.toNat :=
    saturated_of_lt (by omega)
  have hside : saturated ((g.rings.toNat - 1) * g.slices.toNat * 2) =
      2 * ((g.rings.toNat - 1) * g.slices.toNat) := by
    rw [Nat.mul_comm 2]
    exact saturated_of_lt (by omega)
  have hcaps : saturated (g.slices.toNat * 2) = 2 * g.slices.toNat := by
    rw [Nat.mul_comm 2]
    exact saturated_of_lt (by omega)
  rw [size_vertices, CylinderGrid.size_triangles (one_le_rings h.two_le_rings), vertexCount,
    triangleCount]
  simp only [predictedCounts, hvertices, hhalf, hside, hcaps]
  split
  next => rw [saturated_of_lt (by omega), saturated_of_lt (by omega)]
  next => rfl

end Fits

section Caps

variable {g : CylinderGrid} (h : g.Fits true)

include h

theorem Fits.lowerCenter_exact :
    fitted g.sideVertices.length = some g.lowerCenter ∧
      g.lowerCenter.toNat = g.sideVertices.length := by
  have hle : g.rings.toNat * g.slices.toNat + 2 ≤ 2 ^ 32 := h.rows_le
  rw [length_sideVertices]
  exact mulChecked_exact rfl rfl (by omega)

theorem Fits.upperCenter_exact :
    fitted (g.sideVertices.length + 1) = some g.upperCenter ∧
      g.upperCenter.toNat = g.sideVertices.length + 1 := by
  have hle : g.rings.toNat * g.slices.toNat + 2 ≤ 2 ^ 32 := h.rows_le
  rw [← length_sideVertices] at hle
  have hlower := h.lowerCenter_exact.2
  have hupper := addChecked_exact hlower UInt32.toNat_one (by omega)
  rwa [addChecked, hlower] at hupper

theorem Fits.capTriangles?_eq : g.capTriangles? = some g.capTriangles := by
  obtain ⟨hlast?, -⟩ := subChecked_one (one_le_rings h.two_le_rings)
  have htop := upperFan?_eq g.upperCenter g.slices fun column =>
    (h.index_exact (first_lt_rings h.two_le_rings) column).1
  have hbottom := lowerFan?_eq g.lowerCenter g.slices fun column =>
    (h.index_exact (last_lt_rings h.two_le_rings) column).1
  simp only [capTriangles?, h.lowerCenter_exact.1, h.upperCenter_exact.1, hlast?, htop, hbottom,
    Option.bind_eq_bind, Option.bind_some, Option.pure_def, capTriangles]

/-- A triangle of a cap has one centre, since the other corners are on the side. -/
theorem Fits.countP_centers {f : Triangle} (hf : f ∈ g.capTriangles) :
    (f.toList.countP fun i => i = g.lowerCenter ∨ i = g.upperCenter) = 1 := by
  have hside {ring : UInt32} (hring : ring.toNat < g.rings.toNat) (column : UInt32) :
      g.index ring column ≠ g.lowerCenter ∧ g.index ring column ≠ g.upperCenter := by
    have hlt := h.toNat_index_lt hring column
    rw [← length_sideVertices] at hlt
    refine ⟨fun heq => ?_, fun heq => ?_⟩
    · rw [heq, h.lowerCenter_exact.2] at hlt
      exact Nat.lt_irrefl _ hlt
    · rw [heq, h.upperCenter_exact.2] at hlt
      exact Nat.not_succ_lt_self hlt
  rcases List.mem_append.mp hf with hf | hf
  · obtain ⟨column, -, rfl⟩ := List.mem_map.mp hf
    have htop := hside (first_lt_rings h.two_le_rings)
    simp [upperFan, Triangle.toList, htop]
  · obtain ⟨column, -, rfl⟩ := List.mem_map.mp hf
    have hbottom := hside (last_lt_rings h.two_le_rings)
    simp [lowerFan, Triangle.toList, hbottom]

end Caps

theorem Fits.triangles?_eq {g : CylinderGrid} {capped : Bool} (h : g.Fits capped) :
    g.triangles? capped = some (g.triangles capped) := by
  obtain ⟨hlast?, -⟩ := subChecked_one (one_le_rings h.two_le_rings)
  simp only [triangles?, hlast?, h.quads?_side, Option.bind_eq_bind, Option.bind_some, triangles]
  split
  next hcapped =>
    subst hcapped
    rw [h.capTriangles?_eq]
    rfl
  next => rfl

theorem Fits.corners {g : CylinderGrid} {capped : Bool} (h : g.Fits capped) {f : Triangle}
    (hf : f ∈ (g.mesh capped).triangles) :
    f.toList.Nodup ∧ ∀ i ∈ f.toList, i.toNat < (g.mesh capped).vertices.size := by
  have hle := h.rows_le
  rw [← h.ringCount_tube] at hle
  have hplace {s : Site h.tube.columns} {limit : Nat} (hlimit : limit ≤ 2 ^ 32)
      (hlt : h.tube.number 0 (h.tube.ringCount + 1) h.tube.ringCount s < limit) :
      (h.place s).toNat < limit :=
    (h.tube.toNat_place (hlt.trans_le hlimit)).trans_lt hlt
  rw [size_vertices, vertexCount, ← h.ringCount_tube]
  cases capped with
  | false =>
    refine h.openWrapping.corners (fun p hp s hs => hplace hle ?_) hf
    obtain ⟨hholds, hside⟩ := (h.tube.mem_sidePatches p).mp hp
    exact h.tube.number_lt_of_isRing (h.tube.hasSite_of_holds hholds s hs)
      (h.tube.isRing_of_isSide hside s hs) (Nat.zero_add _).le
  | true =>
    refine h.closedWrapping.corners (fun p hp s hs => hplace hle ?_) hf
    have hsite := h.tube.hasSite_of_holds (h.closedWrapping.holds p hp) s hs
    rw [if_pos rfl]
    exact h.tube.number_lt hsite (by omega) (by omega) (by omega)

/-- The caps of a cylinder come behind its side. -/
theorem Fits.caps {g : CylinderGrid} (h : g.Fits true) :
    let side := g.mesh false
    let bottom := side.addVertex ⟨0, 0, -g.half⟩
    let top := bottom.2.addVertex ⟨0, 0, g.half⟩
    bottom.1.toNat = side.vertices.size ∧ top.1.toNat = side.vertices.size + 1 ∧
      (g.mesh true).vertices = top.2.vertices ∧
      ∃ fans, (g.mesh true).triangles.toList = side.triangles.toList ++ fans ∧
        fans.length = 2 * g.slices.toNat ∧
        ∀ f ∈ fans, (f.toList.countP fun i => i = bottom.1 ∨ i = top.1) = 1 := by
  intro side bottom top
  have hside : side.vertices = g.sideVertices.toArray := rfl
  have hbottom : bottom.1 = g.lowerCenter := by
    change UInt32.ofNat g.sideVertices.length = _
    rw [← h.lowerCenter_exact.2, UInt32.ofNat_toNat]
  have htop : top.1 = g.upperCenter := by
    change UInt32.ofNat (side.vertices.push _).size = _
    rw [Array.size_push, hside, List.size_toArray, ← h.upperCenter_exact.2, UInt32.ofNat_toNat]
  have hvertices : (g.mesh true).vertices = top.2.vertices := by
    change (g.sideVertices ++ g.centers).toArray = (g.sideVertices.toArray.push _).push _
    rw [List.push_toArray, List.push_toArray, List.append_assoc]
    rfl
  rw [hbottom, htop]
  exact ⟨h.lowerCenter_exact.2, h.upperCenter_exact.2, hvertices, g.capTriangles, rfl,
    g.length_capTriangles, fun f hf => h.countP_centers hf⟩

end CylinderGrid

/-- The vertices of a cylinder are where their numbers say. Its caps come behind its side and
change nothing there. -/
theorem cylinder_numbers {t : Tolerance} {radius height : Float} {capped : Bool}
    (hfits : (t.cylinderGrid radius height).vertexCount capped ≤ 2 ^ 32) :
    let g := t.cylinderGrid radius height
    let m := cylinderMesh t radius height capped
    (m.vertices.size, m.triangles.size) = g.predictedCounts capped ∧
      (∀ ring < g.rings, ∀ column,
        (g.index ring column).toNat =
            ring.toNat * g.slices.toNat + column.toNat % g.slices.toNat ∧
          m.vertices[(g.index ring column).toNat]? = some (g.point ring (column % g.slices))) ∧
      (∀ f ∈ m.triangles, f.toList.Nodup ∧ ∀ i ∈ f.toList, i.toNat < m.vertices.size) ∧
      g.rings - 1 ≠ 0 ∧
      (∀ ring < g.rings, ∀ column, g.index? ring column = some (g.index ring column)) ∧
      g.triangles? capped = some m.triangles.toList ∧
      (capped = true →
        let side := cylinderMesh t radius height false
        let bottom := side.addVertex ⟨0, 0, -g.half⟩
        let top := bottom.2.addVertex ⟨0, 0, g.half⟩
        bottom.1.toNat = side.vertices.size ∧ top.1.toNat = side.vertices.size + 1 ∧
          m.vertices = top.2.vertices ∧
          ∃ fans, m.triangles.toList = side.triangles.toList ++ fans ∧
            fans.length = 2 * g.slices.toNat ∧
            ∀ f ∈ fans, (f.toList.countP fun i => i = bottom.1 ∨ i = top.1) = 1) := by
  intro g m
  have h : g.Fits capped := Tolerance.fits_cylinderGrid hfits
  have hring {ring : UInt32} (hlt : ring < g.rings) : ring.toNat < g.rings.toNat :=
    UInt32.lt_iff_toNat_lt.mp hlt
  refine ⟨h.predictedCounts_eq.symm,
    fun ring hlt column => ⟨(h.index_exact (hring hlt) column).2,
      h.getElem?_vertices (hring hlt) column⟩,
    fun f hf => h.corners hf, ?_, fun ring hlt column => (h.index_exact (hring hlt) column).1,
    h.triangles?_eq, ?_⟩
  · intro hzero
    have hlast := CylinderGrid.toNat_last h.two_le_rings
    have hrings := h.two_le_rings
    rw [show g.rings - 1 = 0 from hzero, UInt32.toNat_zero] at hlast
    omega
  · rintro rfl
    exact h.caps

/-- A cylinder that is cut up as usual, with its caps and without them. -/
theorem cylinder_numbers_usual :
    let g := Tolerance.cylinderGrid {} 0.75 2
    let side := cylinderMesh {} 0.75 2 false
    let m := cylinderMesh {} 0.75 2 true
    side.vertices[(g.index 1 600).toNat]? = m.vertices[(g.index 1 600).toNat]? ∧
      m.vertices.size = side.vertices.size + 2 ∧
      m.triangles.size = side.triangles.size + 2 * g.slices.toNat := by
  intro g side m
  have hsteps : (Tolerance.steps {} (positiveLength 2)).toNat ≤ 512 :=
    (Tolerance.steps_le {} (positiveLength 2)).trans (by decide)
  have hslices : g.slices.toNat ≤ 512 := (Tolerance.slices_le {}).trans (by decide)
  have hrings : g.rings.toNat ≤ 513 := by
    rw [Tolerance.toNat_rings_cylinderGrid]
    omega
  have hcount : g.rings.toNat * g.slices.toNat ≤ 513 * 512 := Nat.mul_le_mul hrings hslices
  have hfits (capped : Bool) : g.vertexCount capped ≤ 2 ^ 32 := by
    rw [CylinderGrid.vertexCount]
    split <;> omega
  have hring : (1 : UInt32) < g.rings :=
    UInt32.lt_iff_toNat_lt.mpr (Tolerance.two_le_rings_cylinderGrid {} 0.75 2)
  obtain ⟨-, hopen, -⟩ := @cylinder_numbers {} 0.75 2 false (hfits false)
  obtain ⟨-, hclosed, -, -, -, -, hcaps⟩ := @cylinder_numbers {} 0.75 2 true (hfits true)
  obtain ⟨-, -, hvertices, fans, htriangles, hfans, -⟩ := hcaps rfl
  refine ⟨(hopen 1 hring 600).2.trans (hclosed 1 hring 600).2.symm, ?_, ?_⟩
  · rw [hvertices]
    change ((side.vertices.push _).push _).size = _
    rw [Array.size_push, Array.size_push]
  · rw [← Array.length_toList, htriangles, List.length_append, hfans, Array.length_toList]

end Facet
