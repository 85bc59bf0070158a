import Facet.Cylinder
import Facet.Proofs.SegmentCounts
import Facet.Proofs.Wrapping

namespace Facet

namespace CylinderGrid

/-- The vertices on a ring in the order of the columns. -/
def ringVertices (g : CylinderGrid) (ring : UInt32) : List UInt32 :=
  (indicesBelow g.slices).map (g.index ring)

theorem length_ringVertices (g : CylinderGrid) (ring : UInt32) :
    (g.ringVertices ring).length = g.slices.toNat := by
  rw [ringVertices, length_map_indicesBelow]

/-- A cylinder that is cut up finely enough and whose vertices can be numbered with 32 bits. -/
structure Fits (g : CylinderGrid) (capped : Bool) : Prop where
  three_le_slices : 3 ≤ g.slices.toNat
  two_le_rings : 2 ≤ g.rings.toNat
  vertexCount_le : g.vertexCount capped ≤ 2 ^ 32

theorem length_sideVertices (g : CylinderGrid) :
    g.sideVertices.length = g.rings.toNat * g.slices.toNat := by
  rw [sideVertices, length_flatMap_indicesBelow, length_indicesBelow]

theorem size_vertices (g : CylinderGrid) (capped : Bool) :
    (g.mesh capped).vertices.size = g.vertexCount capped := by
  have hside := g.length_sideVertices
  change (g.vertices capped).length = _
  cases capped with
  | false => exact hside
  | true =>
    change (g.sideVertices ++ g.centers).length = g.rings.toNat * g.slices.toNat + 2
    rw [List.length_append, hside]
    rfl

section Rings

variable {g : CylinderGrid} (h : 2 ≤ g.rings.toNat)

include h

theorem one_le_rings : 1 ≤ g.rings.toNat :=
  Nat.le_of_succ_le h

theorem first_lt_rings : (0 : UInt32).toNat < g.rings.toNat :=
  one_le_rings h

theorem toNat_last : (g.rings - 1).toNat = g.rings.toNat - 1 :=
  toNat_sub_one (one_le_rings h)

theorem last_lt_rings : (g.rings - 1).toNat < g.rings.toNat := by
  rw [toNat_last h]
  omega

end Rings

namespace Fits

variable {g : CylinderGrid} {capped : Bool} (h : g.Fits capped)

def tube : Tube where
  columns := g.slices.toNat
  first := 0
  last := g.rings.toNat - 1
  three_le := h.three_le_slices
  first_le := Nat.zero_le _

theorem first_lt_last : h.tube.first < h.tube.last :=
  Nat.sub_pos_of_lt h.two_le_rings

theorem ringCount_tube : h.tube.ringCount = g.rings.toNat * g.slices.toNat := by
  have hrings := h.two_le_rings
  have hrows : g.rings.toNat - 1 - 0 + 1 = g.rings.toNat := by omega
  change (g.rings.toNat - 1 - 0 + 1) * g.slices.toNat = _
  rw [hrows]

def place : Site h.tube.columns → UInt32 :=
  h.tube.place 0 (h.tube.ringCount + 1) h.tube.ringCount

theorem ringCount_le : h.tube.ringCount ≤ 2 ^ 32 := by
  rw [ringCount_tube]
  exact Nat.le_trans (Nat.le_add_right _ _) h.vertexCount_le

theorem place_injOn_rings : Set.InjOn h.place {s | h.tube.HasSite s ∧ h.tube.IsRing s} := by
  apply h.tube.place_injOn (h.tube.number_injOn_rings _ _ _)
  rintro s ⟨hs, hring⟩
  have hle := h.ringCount_le
  exact h.tube.number_lt_of_isRing hs hring (by omega)

theorem ofNat_last : UInt32.ofNat h.tube.last = g.rings - 1 :=
  ofNat_toNat_sub_one (one_le_rings h.two_le_rings)

theorem agrees : h.tube.Agrees g.index h.place := by
  intro r k hfirst hlast hk
  change k ≤ g.slices.toNat at hk
  change UInt32.ofNat r * g.slices + UInt32.ofNat k % g.slices =
    UInt32.ofNat (0 + (r * g.slices.toNat + (k : ZMod g.slices.toNat).val))
  rw [ZMod.val_natCast, Nat.zero_add, UInt32.ofNat_add, UInt32.ofNat_mul, UInt32.ofNat_toNat,
    ofNat_mod_toNat hk]

theorem place_lower : h.place Site.lower = g.lowerCenter := by
  change UInt32.ofNat h.tube.ringCount = _
  rw [ringCount_tube, UInt32.ofNat_mul, UInt32.ofNat_toNat, UInt32.ofNat_toNat]
  rfl

theorem place_upper : h.place Site.upper = g.upperCenter := by
  change UInt32.ofNat (h.tube.ringCount + 1) = _
  rw [UInt32.ofNat_add, upperCenter, ← h.place_lower]
  rfl

theorem sideTriangles_eq :
    g.sideTriangles = h.tube.sidePatches.map (h.tube.triangle h.place) := by
  have hrows : indicesBelow (g.rings - 1) =
      (List.range' h.tube.first (h.tube.last - h.tube.first)).map UInt32.ofNat := by
    rw [← List.drop_zero (l := indicesBelow (g.rings - 1)), drop_indicesBelow,
      toNat_last h.two_le_rings]
    rfl
  exact h.tube.flatMap_quad_eq rfl h.agrees hrows

theorem capTriangles_eq :
    g.capTriangles =
      (h.tube.upperWedges ++ h.tube.lowerWedges).map (h.tube.triangle h.place) := by
  have hupper := h.tube.map_upperFan_eq rfl h.agrees
  have hlower := h.tube.map_lowerFan_eq rfl h.agrees
  rw [h.ofNat_last, place_lower] at hlower
  rw [place_upper] at hupper
  rw [capTriangles, List.map_append, ← hupper, hlower]
  rfl

theorem index_eq {r : Nat} (hr : r ≤ h.tube.last) {column : UInt32} (hcolumn : column < g.slices) :
    g.index (UInt32.ofNat r) column = h.place (Site.ring r column.toNat) ∧
      g.index (UInt32.ofNat r) (column + 1) = h.place (Site.ring r (column.toNat + 1)) := by
  have hlt : column.toNat < h.tube.columns := UInt32.lt_iff_toNat_lt.mp hcolumn
  have hcolumns := h.agrees.column (Nat.zero_le r) hr hlt
  rwa [UInt32.ofNat_toNat] at hcolumns

theorem exists_column (c : ZMod h.tube.columns) :
    ∃ column < g.slices, (column.toNat : ZMod h.tube.columns) = c := by
  have hlt : c.val < g.slices.toNat := h.tube.val_lt c
  have hsize : g.slices.toNat < 2 ^ 32 := g.slices.toNat_lt
  have hval : (UInt32.ofNat c.val).toNat = c.val :=
    UInt32.toNat_ofNat_of_lt' (show c.val < 2 ^ 32 by omega)
  have : NeZero h.tube.columns := ⟨by have := h.tube.three_le; omega⟩
  refine ⟨UInt32.ofNat c.val, UInt32.lt_iff_toNat_lt.mpr (by rwa [hval]), ?_⟩
  rw [hval, ZMod.natCast_zmod_val]

theorem ringVertices_eq {r : Nat} (hr : r ≤ h.tube.last) :
    g.ringVertices (UInt32.ofNat r) = h.tube.columnList.map fun c => h.place (Site.ring r c) := by
  rw [ringVertices, h.tube.indicesBelow_eq rfl, Tube.columnList, List.map_map, List.map_map]
  exact List.map_congr_left fun k hk =>
    h.agrees r k (Nat.zero_le r) hr (Nat.le_of_lt (List.mem_range.mp hk))

theorem mem_loopEdges_ringVertices {r : Nat} (hr : r ≤ h.tube.last) (e : UInt32 × UInt32) :
    e ∈ loopEdges (g.ringVertices (UInt32.ofNat r)) ↔
      ∃ c, e = (h.place (Site.ring r c), h.place (Site.ring r (c + 1))) := by
  rw [h.ringVertices_eq hr, loopEdges_map, h.tube.loopEdges_columnList, List.map_map,
    List.mem_map]
  constructor
  · rintro ⟨c, -, rfl⟩
    exact ⟨c, rfl⟩
  · rintro ⟨c, rfl⟩
    exact ⟨c, h.tube.mem_columnList c, rfl⟩

include h in
theorem nodup_ringVertices_append : (g.ringVertices 0 ++ g.ringVertices (g.rings - 1)).Nodup := by
  have hlt := h.first_lt_last
  have hsite {r : Nat} (hr : r ≤ h.tube.last) (c : ZMod h.tube.columns) :
      Site.ring r c ∈ {s | h.tube.HasSite s ∧ h.tube.IsRing s} :=
    ⟨⟨Nat.zero_le r, hr⟩, trivial⟩
  have hinj {r s : Nat} {c d : ZMod h.tube.columns} (hr : r ≤ h.tube.last) (hs : s ≤ h.tube.last)
      (heq : h.place (Site.ring r c) = h.place (Site.ring s d)) :
      Site.ring (n := h.tube.columns) r c = Site.ring s d :=
    h.place_injOn_rings (hsite hr c) (hsite hs d) heq
  have hnodup {r : Nat} (hr : r ≤ h.tube.last) : (g.ringVertices (UInt32.ofNat r)).Nodup := by
    rw [h.ringVertices_eq hr]
    apply h.tube.nodup_columnList.map
    intro c d heq
    exact (Site.ring.inj (hinj hr hr heq)).2
  rw [← h.ofNat_last]
  refine (hnodup (Nat.zero_le _)).append (hnodup le_rfl) ?_
  intro v hv hw
  rw [h.ringVertices_eq (Nat.zero_le _)] at hv
  rw [h.ringVertices_eq le_rfl] at hw
  obtain ⟨c, -, rfl⟩ := List.mem_map.mp hv
  obtain ⟨d, -, heq⟩ := List.mem_map.mp hw
  exact hlt.ne (Site.ring.inj (hinj le_rfl (Nat.zero_le _) heq)).1.symm

end Fits

section Closed

variable {g : CylinderGrid} (h : g.Fits true)

theorem Fits.perm_closedPatches :
    (h.tube.sidePatches ++ (h.tube.upperWedges ++ h.tube.lowerWedges)).Perm
      h.tube.closedPatches := by
  rw [← List.append_assoc]
  exact List.perm_append_comm.append_right _

theorem Fits.place_injOn : Set.InjOn h.place {s | h.tube.HasSite s} := by
  have hfits : h.tube.ringCount + 2 ≤ 2 ^ 32 := by
    rw [h.ringCount_tube]
    exact h.vertexCount_le
  apply h.tube.place_injOn (h.tube.number_injOn (by omega) (by omega) (by omega))
  intro s hs
  exact h.tube.number_lt hs (by omega) (by omega) (by omega)

def Fits.closedWrapping : Wrapping h.tube (g.mesh true) where
  place := h.place
  patches := h.tube.sidePatches ++ (h.tube.upperWedges ++ h.tube.lowerWedges)
  triangles_eq := by
    rw [List.map_append, ← h.sideTriangles_eq, ← h.capTriangles_eq]
    rfl
  nodup := h.perm_closedPatches.nodup_iff.mpr h.tube.nodup_closedPatches
  holds := fun p hp => (h.tube.mem_closedPatches p).mp (h.perm_closedPatches.mem_iff.mp hp)
  injOn := h.place_injOn.mono fun _ ⟨p, hp, hs⟩ =>
    h.tube.hasSite_of_holds
      ((h.tube.mem_closedPatches p).mp (h.perm_closedPatches.mem_iff.mp hp)) _ hs

include h

theorem Fits.isClosed : (g.mesh true).IsClosed :=
  h.closedWrapping.isClosed fun p hp =>
    h.perm_closedPatches.mem_iff.mpr ((h.tube.mem_closedPatches p).mpr hp)

theorem Fits.eulerCharacteristic_closed : (g.mesh true).eulerCharacteristic = 2 := by
  have heuler := two_mul_eulerCharacteristic h.closedWrapping.nodup_directedEdges
    h.closedWrapping.fst_ne_snd
  have hvertices : (g.mesh true).vertices.size = h.tube.ringCount + 2 := by
    rw [size_vertices, h.ringCount_tube]
    rfl
  have htriangles : (g.mesh true).triangles.size = 2 * h.tube.ringCount := by
    rw [h.closedWrapping.size_triangles]
    exact h.perm_closedPatches.length_eq.trans h.tube.length_closedPatches
  rw [h.isClosed.boundary_eq_nil, List.length_nil, htriangles, hvertices] at heuler
  omega

end Closed

section Open

variable {g : CylinderGrid} (h : g.Fits false)

def Fits.openWrapping : Wrapping h.tube (g.mesh false) where
  place := h.place
  patches := h.tube.sidePatches
  triangles_eq := h.sideTriangles_eq
  nodup := h.tube.nodup_sidePatches
  holds := fun p hp => ((h.tube.mem_sidePatches p).mp hp).1
  injOn := by
    apply h.place_injOn_rings.mono
    rintro s ⟨p, hp, hs⟩
    obtain ⟨hholds, hside⟩ := (h.tube.mem_sidePatches p).mp hp
    exact ⟨h.tube.hasSite_of_holds hholds s hs, h.tube.isRing_of_isSide hside s hs⟩

include h

theorem Fits.mem_boundary_iff_place (e : UInt32 × UInt32) :
    e ∈ (g.mesh false).boundary ↔ ∃ c,
      e = (h.place (Site.ring 0 (c + 1)), h.place (Site.ring 0 c)) ∨
        e = (h.place (Site.ring h.tube.last c), h.place (Site.ring h.tube.last (c + 1))) :=
  h.openWrapping.mem_boundary_iff h.tube.mem_sidePatches h.first_lt_last e

theorem Fits.mem_boundary_iff (e : UInt32 × UInt32) :
    e ∈ (g.mesh false).boundary ↔ ∃ c < g.slices,
      e = (g.index 0 (c + 1), g.index 0 c) ∨
        e = (g.index (g.rings - 1) c, g.index (g.rings - 1) (c + 1)) := by
  have hcolumn {c : UInt32} (hc : c < g.slices) :
      (e = (g.index 0 (c + 1), g.index 0 c) ∨
        e = (g.index (g.rings - 1) c, g.index (g.rings - 1) (c + 1))) ↔
      (e = (h.place (Site.ring 0 (c.toNat + 1)), h.place (Site.ring 0 c.toNat)) ∨
        e = (h.place (Site.ring h.tube.last c.toNat),
          h.place (Site.ring h.tube.last (c.toNat + 1)))) := by
    obtain ⟨hhere, hnext⟩ := h.index_eq (Nat.zero_le _) hc
    obtain ⟨hhere', hnext'⟩ := h.index_eq le_rfl hc
    rw [h.ofNat_last] at hhere' hnext'
    rw [hhere', hnext', ← hhere, ← hnext]
    rfl
  rw [h.mem_boundary_iff_place]
  constructor
  · rintro ⟨c, he⟩
    obtain ⟨column, hc, rfl⟩ := h.exists_column c
    exact ⟨column, hc, (hcolumn hc).mpr he⟩
  · rintro ⟨column, hc, he⟩
    exact ⟨column.toNat, (hcolumn hc).mp he⟩

/-- An open cylinder ends in two loops, one along each of the outer rings. -/
theorem Fits.perm_boundary :
    (g.mesh false).boundary.Perm
      ((loopEdges (g.ringVertices 0)).map Prod.swap ++
        loopEdges (g.ringVertices (g.rings - 1))) := by
  have hnodup := nodup_swap_loopEdges_append h.nodup_ringVertices_append
  have hboundary : (g.mesh false).boundary.Nodup := h.openWrapping.nodup_directedEdges.filter _
  rw [List.perm_ext_iff_of_nodup hboundary hnodup]
  intro e
  have htop := h.mem_loopEdges_ringVertices (Nat.zero_le _) e.swap
  have hbottom := h.mem_loopEdges_ringVertices le_rfl e
  rw [h.ofNat_last] at hbottom
  rw [h.mem_boundary_iff_place, List.mem_append, hbottom]
  constructor
  · rintro ⟨c, rfl | rfl⟩
    · exact Or.inl (List.mem_map.mpr ⟨_, htop.mpr ⟨c, rfl⟩, rfl⟩)
    · exact Or.inr ⟨c, rfl⟩
  · rintro (he | ⟨c, rfl⟩)
    · obtain ⟨f, hf, rfl⟩ := List.mem_map.mp he
      rw [Prod.swap_swap] at htop
      obtain ⟨c, rfl⟩ := htop.mp hf
      exact ⟨c, Or.inl rfl⟩
    · exact ⟨c, Or.inr rfl⟩

theorem Fits.eulerCharacteristic_open : (g.mesh false).eulerCharacteristic = 0 := by
  have heuler := two_mul_eulerCharacteristic h.openWrapping.nodup_directedEdges
    h.openWrapping.fst_ne_snd
  have hboundary : (g.mesh false).boundary.length = 2 * g.slices.toNat := by
    rw [h.perm_boundary.length_eq, List.length_append, List.length_map, length_loopEdges,
      length_loopEdges, length_ringVertices, length_ringVertices]
    omega
  have htriangles : (g.mesh false).triangles.size =
      2 * ((g.rings.toNat - 1) * g.slices.toNat) := by
    rw [h.openWrapping.size_triangles]
    exact h.tube.length_sidePatches
  have hvertices : (g.mesh false).vertices.size =
      (g.rings.toNat - 1) * g.slices.toNat + g.slices.toNat := by
    have hrings : g.rings.toNat - 1 + 1 = g.rings.toNat :=
      Nat.sub_add_cancel (one_le_rings h.two_le_rings)
    rw [size_vertices, ← Nat.succ_mul, Nat.succ_eq_add_one, hrings]
    rfl
  rw [hboundary, htriangles, hvertices] at heuler
  omega

end Open

end CylinderGrid

theorem Tolerance.toNat_rings_cylinderGrid (t : Tolerance) (radius height : Float) :
    (t.cylinderGrid radius height).rings.toNat =
      min ((t.steps (positiveLength height)).toNat + 1) 0xffffffff := by
  rw [cylinderGrid, toNat_succSaturating]

theorem Tolerance.two_le_rings_cylinderGrid (t : Tolerance) (radius height : Float) :
    2 ≤ (t.cylinderGrid radius height).rings.toNat := by
  have hsteps := t.one_le_steps (positiveLength height)
  rw [t.toNat_rings_cylinderGrid]
  omega

theorem Tolerance.fits_cylinderGrid {t : Tolerance} {radius height : Float} {capped : Bool}
    (hfits : (t.cylinderGrid radius height).vertexCount capped ≤ 2 ^ 32) :
    (t.cylinderGrid radius height).Fits capped where
  three_le_slices := Nat.le_trans (by decide) t.six_le_slices
  two_le_rings := t.two_le_rings_cylinderGrid radius height
  vertexCount_le := hfits

/-- With its caps a cylinder is a closed surface. Without them it is open along the first ring,
whose edges run backward there, and along the last one. -/
theorem cylinderMesh_surface (t : Tolerance) (radius height : Float) (capped : Bool)
    (hfits : (t.cylinderGrid radius height).vertexCount capped ≤ 2 ^ 32) :
    let g := t.cylinderGrid radius height
    let m := cylinderMesh t radius height capped
    (∀ e, m.directedEdges.count e ≤ 1) ∧
      (capped = true → m.IsClosed ∧ m.eulerCharacteristic = 2) ∧
      (capped = false →
        (∀ e, e ∈ m.boundary ↔ ∃ c < g.slices,
          e = (g.index 0 (c + 1), g.index 0 c) ∨
            e = (g.index (g.rings - 1) c, g.index (g.rings - 1) (c + 1))) ∧
        m.boundary.Perm
          ((loopEdges (g.ringVertices 0)).map Prod.swap ++
            loopEdges (g.ringVertices (g.rings - 1))) ∧
        (g.ringVertices 0 ++ g.ringVertices (g.rings - 1)).Nodup ∧
        (∀ ring, (loopEdges (g.ringVertices ring)).length = g.slices.toNat) ∧
        m.eulerCharacteristic = 0) := by
  intro g m
  have h := Tolerance.fits_cylinderGrid hfits
  cases capped with
  | false =>
    refine ⟨List.nodup_iff_count.mp h.openWrapping.nodup_directedEdges, nofun, fun _ => ?_⟩
    refine ⟨h.mem_boundary_iff, h.perm_boundary, h.nodup_ringVertices_append, fun ring => ?_,
      h.eulerCharacteristic_open⟩
    rw [length_loopEdges, CylinderGrid.length_ringVertices]
  | true =>
    exact ⟨List.nodup_iff_count.mp h.closedWrapping.nodup_directedEdges,
      fun _ => ⟨h.isClosed, h.eulerCharacteristic_closed⟩, nofun⟩

/-- As coarse as a cylinder gets: six slices and one step. -/
def coarsestTolerance : Tolerance where
  minSegments := 0
  maxSegments := 0

theorem cylinderMesh_surface_coarsest :
    (coarsestTolerance.cylinderGrid (-1) (0 / 0)).vertexCount true ≤ 2 ^ 32 ∧
      (∀ capped e,
        (cylinderMesh coarsestTolerance (-1) (0 / 0) capped).directedEdges.count e ≤ 1) ∧
      (cylinderMesh coarsestTolerance (-1) (0 / 0) true).IsClosed ∧
      (cylinderMesh coarsestTolerance (-1) (0 / 0) true).eulerCharacteristic = 2 ∧
      (cylinderMesh coarsestTolerance (-1) (0 / 0) false).eulerCharacteristic = 0 := by
  have hfits (capped : Bool) :
      (coarsestTolerance.cylinderGrid (-1) (0 / 0)).vertexCount capped ≤ 2 ^ 32 := by
    have hslices : (coarsestTolerance.cylinderGrid (-1) (0 / 0)).slices.toNat ≤ 6 :=
      coarsestTolerance.slices_le
    have hrings : (coarsestTolerance.cylinderGrid (-1) (0 / 0)).rings.toNat ≤ 2 := by
      have hsteps : (coarsestTolerance.steps (positiveLength (0 / 0))).toNat ≤ 1 :=
        coarsestTolerance.steps_le _
      rw [Tolerance.toNat_rings_cylinderGrid]
      omega
    have hmul := Nat.mul_le_mul hrings hslices
    rw [CylinderGrid.vertexCount]
    split <;> omega
  have hclosed := cylinderMesh_surface coarsestTolerance (-1) (0 / 0) true (hfits true)
  have hopen := cylinderMesh_surface coarsestTolerance (-1) (0 / 0) false (hfits false)
  refine ⟨hfits true, ?_, (hclosed.2.1 rfl).1, (hclosed.2.1 rfl).2, (hopen.2.2 rfl).2.2.2.2⟩
  intro capped
  cases capped with
  | false => exact hopen.1
  | true => exact hclosed.1

end Facet
