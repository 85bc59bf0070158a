import Facet.Sphere
import Facet.Proofs.SegmentCounts
import Facet.Proofs.Wrapping

namespace Facet

namespace SphereGrid

/-- A sphere that is cut up finely enough and whose vertices can be numbered with 32 bits. -/
structure Fits (g : SphereGrid) : Prop where
  three_le_slices : 3 ≤ g.slices.toNat
  two_le_belts : 2 ≤ g.belts.toNat
  vertexCount_le : g.vertexCount ≤ 2 ^ 32

theorem size_vertices (g : SphereGrid) : g.mesh.vertices.size = g.vertexCount := by
  change g.vertices.length = _
  rw [vertices, List.length_append, List.length_cons, length_flatMap_indicesBelow, parallels,
    List.length_drop, length_indicesBelow]
  rfl

namespace Fits

variable {g : SphereGrid} (h : g.Fits)

include h in
theorem one_le_belts : 1 ≤ g.belts.toNat :=
  Nat.le_of_succ_le h.two_le_belts

def tube : Tube where
  columns := g.slices.toNat
  first := 1
  last := g.belts.toNat - 1
  three_le := h.three_le_slices
  first_le := Nat.le_sub_of_add_le h.two_le_belts

theorem ringCount_tube : h.tube.ringCount = (g.belts.toNat - 1) * g.slices.toNat := by
  have hbelts := h.two_le_belts
  have hrows : g.belts.toNat - 1 - 1 + 1 = g.belts.toNat - 1 := by omega
  change (g.belts.toNat - 1 - 1 + 1) * g.slices.toNat = _
  rw [hrows]

def place : Site h.tube.columns → UInt32 :=
  h.tube.place 1 0 (1 + h.tube.ringCount)

theorem ringCount_lt : h.tube.ringCount + 2 ≤ 2 ^ 32 := by
  rw [ringCount_tube]
  exact h.vertexCount_le

theorem number_lt {s : Site h.tube.columns} (hs : h.tube.HasSite s) :
    h.tube.number 1 0 (1 + h.tube.ringCount) s < 2 ^ 32 := by
  have hlt := h.ringCount_lt
  exact h.tube.number_lt hs (by omega) (by omega) (by omega)

theorem place_injOn : Set.InjOn h.place {s | h.tube.HasSite s} := by
  apply h.tube.place_injOn _ fun s hs => h.number_lt hs
  exact h.tube.number_injOn (by omega) (Or.inl Nat.zero_lt_one) (Or.inr le_rfl)

theorem agrees : h.tube.Agrees g.index h.place := by
  intro r k hfirst hlast hk
  have hbelts : g.belts.toNat < 2 ^ 32 := g.belts.toNat_lt
  change 1 ≤ r at hfirst
  change r ≤ g.belts.toNat - 1 at hlast
  change k ≤ g.slices.toNat at hk
  have hr : (UInt32.ofNat r).toNat = r := UInt32.toNat_ofNat_of_lt' (show r < 2 ^ 32 by omega)
  have hnorth : UInt32.ofNat r ≠ 0 := by
    intro hzero
    rw [hzero, UInt32.toNat_zero] at hr
    omega
  have hsouth : ¬ g.belts ≤ UInt32.ofNat r := by
    rw [UInt32.le_iff_toNat_le, hr]
    omega
  rw [index, if_neg hnorth, if_neg hsouth]
  change _ = UInt32.ofNat (1 + ((r - 1) * g.slices.toNat + (k : ZMod g.slices.toNat).val))
  rw [ZMod.val_natCast, UInt32.ofNat_add, UInt32.ofNat_add, UInt32.ofNat_mul,
    UInt32.ofNat_sub hfirst, UInt32.ofNat_toNat, ofNat_mod_toNat hk, ← UInt32.add_assoc]
  rfl

theorem place_lower : h.place Site.lower = g.south := by
  change UInt32.ofNat (1 + h.tube.ringCount) = _
  rw [ringCount_tube, UInt32.ofNat_add, UInt32.ofNat_mul,
    ofNat_toNat_sub_one h.one_le_belts, UInt32.ofNat_toNat]
  rfl

theorem triangles_eq : g.triangles = h.tube.closedPatches.map (h.tube.triangle h.place) := by
  have hlast : UInt32.ofNat h.tube.last = g.belts - 1 := ofNat_toNat_sub_one h.one_le_belts
  have hrows : (indicesBelow (g.belts - 1)).drop 1 =
      (List.range' h.tube.first (h.tube.last - h.tube.first)).map UInt32.ofNat := by
    rw [drop_indicesBelow, toNat_sub_one h.one_le_belts]
    rfl
  have hupper := h.tube.map_upperFan_eq rfl h.agrees
  have hside := h.tube.flatMap_quad_eq rfl h.agrees hrows
  have hlower := h.tube.map_lowerFan_eq rfl h.agrees
  rw [hlast, place_lower] at hlower
  rw [triangles, hside, hlower, Tube.closedPatches, List.map_append, List.map_append, ← hupper]
  rfl

def wrapping : Wrapping h.tube g.mesh where
  place := h.place
  patches := h.tube.closedPatches
  triangles_eq := h.triangles_eq
  nodup := h.tube.nodup_closedPatches
  holds := fun p hp => (h.tube.mem_closedPatches p).mp hp
  injOn := h.place_injOn.mono fun _ ⟨p, hp, hs⟩ =>
    h.tube.hasSite_of_holds ((h.tube.mem_closedPatches p).mp hp) _ hs

include h in
theorem isClosed : g.mesh.IsClosed :=
  h.wrapping.isClosed fun p hp => (h.tube.mem_closedPatches p).mpr hp

theorem size_triangles : g.mesh.triangles.size = 2 * h.tube.ringCount := by
  rw [h.wrapping.size_triangles]
  exact h.tube.length_closedPatches

include h in
theorem eulerCharacteristic_eq : g.mesh.eulerCharacteristic = 2 := by
  have heuler := two_mul_eulerCharacteristic h.wrapping.nodup_directedEdges
    h.wrapping.fst_ne_snd
  have hvertices : g.mesh.vertices.size = h.tube.ringCount + 2 := by
    rw [size_vertices, ringCount_tube, vertexCount]
  rw [h.isClosed.boundary_eq_nil, List.length_nil, h.size_triangles, hvertices] at heuler
  omega

include h in
theorem exists_triangle {i : Nat} (hi : i < g.mesh.vertices.size) :
    ∃ f ∈ g.mesh.triangles, ∃ v ∈ f.toList, v.toNat = i := by
  have hlt := h.ringCount_lt
  rw [size_vertices, vertexCount, ← h.ringCount_tube] at hi
  have hsite : ∃ s, h.tube.HasSite s ∧ h.tube.number 1 0 (1 + h.tube.ringCount) s = i := by
    rcases Nat.eq_zero_or_pos i with rfl | hpos
    · exact ⟨Site.upper, trivial, rfl⟩
    · rcases Nat.lt_or_ge (i - 1) h.tube.ringCount with hring | hend
      · obtain ⟨r, c, hs, hoffset⟩ := h.tube.exists_offset_eq hring
        refine ⟨Site.ring r c, hs, ?_⟩
        change 1 + h.tube.offset r c = i
        omega
      · refine ⟨Site.lower, trivial, ?_⟩
        change 1 + h.tube.ringCount = i
        omega
  obtain ⟨s, hs, hnumber⟩ := hsite
  obtain ⟨p, hp, hcorner⟩ := h.tube.exists_mem_cornerList hs
  refine ⟨h.tube.triangle h.place p, ?_, h.place s, List.mem_map_of_mem hcorner, ?_⟩
  · rw [← Array.mem_toList_iff, h.wrapping.triangles_eq]
    exact List.mem_map_of_mem ((h.tube.mem_closedPatches p).mpr hp)
  · rw [← hnumber]
    exact h.tube.toNat_place (h.number_lt hs)

end Fits

end SphereGrid

theorem Tolerance.fits_sphereGrid {t : Tolerance}
    (hfits : 2 + (t.belts.toNat - 1) * t.slices.toNat ≤ 2 ^ 32) : t.sphereGrid.Fits where
  three_le_slices := Nat.le_trans (by decide) t.six_le_slices
  two_le_belts := t.two_le_belts
  vertexCount_le := by
    rw [Nat.add_comm] at hfits
    exact hfits

/-- However finely it is cut up, the sphere is a closed surface: each edge has one triangle on
either side, running around it in opposite directions. -/
theorem sphereMesh_closed_surface (t : Tolerance)
    (hfits : 2 + (t.belts.toNat - 1) * t.slices.toNat ≤ 2 ^ 32) :
    (sphereMesh t).IsClosed ∧
      (∀ i < (sphereMesh t).vertices.size,
        ∃ f ∈ (sphereMesh t).triangles, ∃ v ∈ f.toList, v.toNat = i) ∧
      (sphereMesh t).eulerCharacteristic = 2 := by
  have h := Tolerance.fits_sphereGrid hfits
  exact ⟨h.isClosed, fun i hi => h.exists_triangle hi, h.eulerCharacteristic_eq⟩

/-- The bounds cross, which leaves one parallel to both caps and an odd number of slices. -/
def crossedTolerance : Tolerance where
  linear := 0 / 0
  minSegments := 9
  maxSegments := 4

theorem sphereMesh_closed_surface_crossed :
    2 + (crossedTolerance.belts.toNat - 1) * crossedTolerance.slices.toNat ≤ 2 ^ 32 ∧
      (sphereMesh crossedTolerance).IsClosed ∧
      (∀ i < (sphereMesh crossedTolerance).vertices.size,
        ∃ f ∈ (sphereMesh crossedTolerance).triangles, ∃ v ∈ f.toList, v.toNat = i) ∧
      (sphereMesh crossedTolerance).eulerCharacteristic = 2 := by
  have hfits : 2 + (crossedTolerance.belts.toNat - 1) * crossedTolerance.slices.toNat ≤ 2 ^ 32 := by
    have hbelts : crossedTolerance.belts.toNat ≤ 2 := crossedTolerance.belts_le
    have hslices : crossedTolerance.slices.toNat ≤ 9 := crossedTolerance.slices_le
    have hmul := Nat.mul_le_mul (Nat.sub_le_sub_right hbelts 1) hslices
    omega
  exact ⟨hfits, sphereMesh_closed_surface crossedTolerance hfits⟩

end Facet
