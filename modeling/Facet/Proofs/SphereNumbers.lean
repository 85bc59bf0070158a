import Facet.Proofs.GridNumbers
import Facet.Proofs.SolidCounts

namespace Facet

namespace SphereGrid

/-- The poles, and the columns of each parallel between them. -/
inductive IsPlace (g : SphereGrid) : UInt32 × UInt32 → Prop
  | north : g.IsPlace (0, 0)
  | south : g.IsPlace (g.belts, 0)
  | between {parallel column : UInt32} (hpos : 0 < parallel.toNat)
      (hlt : parallel.toNat < g.belts.toNat) (hcolumn : column.toNat < g.slices.toNat) :
      g.IsPlace (parallel, column)

def pointAt (g : SphereGrid) (parallel column : UInt32) : Point :=
  if parallel = 0 then ⟨0, 0, 1⟩
  else if parallel = g.belts then ⟨0, 0, -1⟩
  else g.point parallel (column % g.slices)

def predictedVertices (g : SphereGrid) : Nat :=
  saturated (saturated ((g.belts.toNat - 1) * g.slices.toNat) + 2)

def predictedTriangles (g : SphereGrid) : Nat :=
  saturated (saturated ((g.belts.toNat - 1) * g.slices.toNat) * 2)

def south? (g : SphereGrid) : Option UInt32 := do
  addChecked 1 (← mulChecked (← subChecked g.belts 1) g.slices)

def index? (g : SphereGrid) (parallel column : UInt32) : Option UInt32 :=
  if parallel = 0 then some g.north
  else if g.belts ≤ parallel then g.south?
  else do
    let first ← addChecked 1 (← mulChecked (← subChecked parallel 1) g.slices)
    addChecked first (← modChecked column g.slices)

def triangles? (g : SphereGrid) : Option (List Triangle) := do
  let last ← subChecked g.belts 1
  let upper ← upperFan? g.index? g.north 1 g.slices
  let side ← quads? g.index? ((indicesBelow last).drop 1) g.slices
  let lower ← lowerFan? g.index? (← g.south?) last g.slices
  return upper ++ side ++ lower

/-- The place that a vertex number is for. -/
def placeOf (g : SphereGrid) (i : Nat) : UInt32 × UInt32 :=
  if i = 0 then (0, 0)
  else if i = 1 + (g.belts.toNat - 1) * g.slices.toNat then (g.belts, 0)
  else (UInt32.ofNat (1 + (i - 1) / g.slices.toNat), UInt32.ofNat ((i - 1) % g.slices.toNat))

theorem getElem?_parallels {g : SphereGrid} {parallel : UInt32} (hpos : 0 < parallel.toNat)
    (hlt : parallel.toNat < g.belts.toNat) : g.parallels[parallel.toNat - 1]? = some parallel := by
  rw [parallels, List.getElem?_drop, Nat.add_sub_cancel' hpos, getElem?_indicesBelow hlt,
    UInt32.ofNat_toNat]

namespace Fits

variable {g : SphereGrid} (h : g.Fits)

include h

theorem slices_pos : 0 < g.slices.toNat :=
  Nat.lt_of_lt_of_le (by decide) h.three_le_slices

theorem rows_le : (g.belts.toNat - 1) * g.slices.toNat + 2 ≤ 2 ^ 32 :=
  h.vertexCount_le

theorem south_exact :
    g.south? = some g.south ∧ g.south.toNat = 1 + (g.belts.toNat - 1) * g.slices.toNat := by
  have hle := h.rows_le
  obtain ⟨hlast?, hlast⟩ := subChecked_one h.one_le_belts
  obtain ⟨hrows?, hrows⟩ := mulChecked_exact hlast (b := g.slices) rfl (by omega)
  obtain ⟨hsouth?, hsouth⟩ := addChecked_exact UInt32.toNat_one hrows (by omega)
  refine ⟨?_, hsouth⟩
  rw [south?, hlast?, Option.bind_eq_bind, Option.bind_some, hrows?]
  exact hsouth?

theorem offset_lt {parallel : UInt32} (hpos : 0 < parallel.toNat)
    (hlt : parallel.toNat < g.belts.toNat) (column : UInt32) :
    (parallel.toNat - 1) * g.slices.toNat + column.toNat % g.slices.toNat <
      (g.belts.toNat - 1) * g.slices.toNat :=
  row_add_lt (by omega) (Nat.mod_lt _ h.slices_pos)

theorem index_between {parallel : UInt32} (hpos : 0 < parallel.toNat)
    (hlt : parallel.toNat < g.belts.toNat) (column : UInt32) :
    g.index? parallel column = some (g.index parallel column) ∧
      (g.index parallel column).toNat =
        1 + ((parallel.toNat - 1) * g.slices.toNat + column.toNat % g.slices.toNat) := by
  have hle := h.rows_le
  have hoffset := h.offset_lt hpos hlt column
  -- What one operation gives is what the next one starts from.
  obtain ⟨hrow?, hrow⟩ := subChecked_one hpos
  obtain ⟨hstart?, hstart⟩ := mulChecked_exact hrow (b := g.slices) rfl (by omega)
  obtain ⟨hfirst?, hfirst⟩ := addChecked_exact UInt32.toNat_one hstart (by omega)
  obtain ⟨hindex?, hindex⟩ := addChecked_exact hfirst (UInt32.toNat_mod column g.slices) (by omega)
  have hnorth : parallel ≠ 0 := UInt32.pos_iff_ne_zero.mp hpos
  have hsouth : ¬ g.belts ≤ parallel := fun hge =>
    Nat.not_le_of_lt hlt (UInt32.le_iff_toNat_le.mp hge)
  rw [index, index?, if_neg hnorth, if_neg hnorth, if_neg hsouth, if_neg hsouth, hindex]
  refine ⟨?_, Nat.add_assoc _ _ _⟩
  simp only [hrow?, hstart?, hfirst?, modChecked_eq h.slices_pos, Option.bind_eq_bind,
    Option.bind_some, hindex?]

theorem index?_eq (parallel column : UInt32) :
    g.index? parallel column = some (g.index parallel column) := by
  rcases Nat.eq_zero_or_pos parallel.toNat with hzero | hpos
  · obtain rfl : parallel = 0 := UInt32.toNat_inj.mp hzero
    rfl
  · rcases Nat.lt_or_ge parallel.toNat g.belts.toNat with hlt | hge
    · exact (h.index_between hpos hlt column).1
    · have hnorth : parallel ≠ 0 := UInt32.pos_iff_ne_zero.mp hpos
      have hsouth : g.belts ≤ parallel := UInt32.le_iff_toNat_le.mpr hge
      rw [index, index?, if_neg hnorth, if_neg hnorth, if_pos hsouth, if_pos hsouth]
      exact h.south_exact.1

theorem triangles?_eq : g.triangles? = some g.triangles := by
  obtain ⟨hlast?, hlast⟩ := subChecked_one h.one_le_belts
  have hrows : ∀ row ∈ (indicesBelow (g.belts - 1)).drop 1, row.toNat + 1 < 2 ^ 32 ∧ ∀ column,
      g.index? row column = some (g.index row column) ∧
        g.index? (row + 1) column = some (g.index (row + 1) column) := by
    intro row hrow
    have hlt := mem_indicesBelow (List.mem_of_mem_drop hrow)
    have hbelts := g.belts.toNat_lt
    exact ⟨by omega, fun column => ⟨h.index?_eq row column, h.index?_eq (row + 1) column⟩⟩
  simp only [triangles?, hlast?, h.south_exact.1, quads?_eq g.slices hrows,
    upperFan?_eq g.north g.slices (h.index?_eq 1), lowerFan?_eq g.south g.slices (h.index?_eq _),
    Option.bind_eq_bind, Option.bind_some, Option.pure_def, triangles]

theorem belts_ne_zero : g.belts ≠ 0 :=
  UInt32.pos_iff_ne_zero.mp h.one_le_belts

theorem index_belts (column : UInt32) : g.index g.belts column = g.south := by
  rw [index, if_neg h.belts_ne_zero, if_pos (UInt32.le_refl _)]

theorem getElem?_vertices {parallel : UInt32} (hle : parallel ≤ g.belts) (column : UInt32) :
    g.mesh.vertices[(g.index parallel column).toNat]? = some (g.pointAt parallel column) := by
  let rows := g.parallels.flatMap fun parallel => (indicesBelow g.slices).map (g.point parallel)
  have hrows : rows.length = (g.belts.toNat - 1) * g.slices.toNat := by
    rw [length_flatMap_indicesBelow, parallels, List.length_drop, length_indicesBelow]
  have hvertices : g.mesh.vertices = (⟨0, 0, 1⟩ :: rows ++ [(⟨0, 0, -1⟩ : Point)]).toArray :=
    rfl
  rw [hvertices, List.getElem?_toArray]
  rcases Nat.eq_zero_or_pos parallel.toNat with hzero | hpos
  · obtain rfl : parallel = 0 := UInt32.toNat_inj.mp hzero
    rfl
  rcases Nat.lt_or_eq_of_le (UInt32.le_iff_toNat_le.mp hle) with hlt | heq
  · have hnorth : parallel ≠ 0 := UInt32.pos_iff_ne_zero.mp hpos
    have hsouth : parallel ≠ g.belts := fun heq => absurd (congrArg UInt32.toNat heq) hlt.ne
    have hoffset := h.offset_lt hpos hlt column
    rw [← hrows] at hoffset
    rw [pointAt, if_neg hnorth, if_neg hsouth, (h.index_between hpos hlt column).2,
      List.getElem?_append_left (by rw [List.length_cons]; omega), Nat.add_comm 1,
      List.getElem?_cons_succ]
    exact getElem?_flatMap_indicesBelow (getElem?_parallels hpos hlt) column h.slices_pos
  · obtain rfl : parallel = g.belts := UInt32.toNat_inj.mp heq
    have hlength : g.south.toNat = ((⟨0, 0, 1⟩ : Point) :: rows).length := by
      rw [h.south_exact.2, List.length_cons, hrows, Nat.add_comm]
    rw [h.index_belts, hlength, List.getElem?_concat_length, pointAt, if_neg h.belts_ne_zero,
      if_pos rfl]

theorem toNat_index_lt {p : UInt32 × UInt32} (hp : g.IsPlace p) :
    (g.index p.1 p.2).toNat < g.vertexCount := by
  rw [vertexCount]
  cases hp with
  | north => exact Nat.succ_pos _
  | south =>
    rw [h.index_belts, h.south_exact.2]
    omega
  | @between parallel column hpos hlt hcolumn =>
    have hoffset := h.offset_lt hpos hlt column
    rw [(h.index_between hpos hlt column).2]
    omega

theorem placeOf_index {p : UInt32 × UInt32} (hp : g.IsPlace p) :
    g.placeOf (g.index p.1 p.2).toNat = p := by
  cases hp with
  | north => rfl
  | south => rw [h.index_belts, h.south_exact.2, placeOf, if_neg (by omega), if_pos rfl]
  | @between parallel column hpos hlt hcolumn =>
    have hoffset : (parallel.toNat - 1) * g.slices.toNat + column.toNat <
        (g.belts.toNat - 1) * g.slices.toNat :=
      row_add_lt (by omega) hcolumn
    obtain ⟨hrow, hrest⟩ := (Nat.div_mod_unique h.slices_pos).mpr
      ⟨show column.toNat + g.slices.toNat * (parallel.toNat - 1) =
        (parallel.toNat - 1) * g.slices.toNat + column.toNat by
          rw [Nat.mul_comm, Nat.add_comm], hcolumn⟩
    rw [(h.index_between hpos hlt column).2, Nat.mod_eq_of_lt hcolumn, placeOf,
      if_neg (by omega), if_neg (by omega), Nat.add_sub_cancel_left, hrow, hrest,
      Nat.add_sub_cancel' hpos, UInt32.ofNat_toNat, UInt32.ofNat_toNat]

theorem index_ofNat {row column : Nat} (hrow : row < g.belts.toNat - 1)
    (hcolumn : column < g.slices.toNat) :
    g.IsPlace (UInt32.ofNat (1 + row), UInt32.ofNat column) ∧
      (g.index (UInt32.ofNat (1 + row)) (UInt32.ofNat column)).toNat =
        1 + (row * g.slices.toNat + column) := by
  have hbelts := g.belts.toNat_lt
  have hslices := g.slices.toNat_lt
  have hparallel : (UInt32.ofNat (1 + row)).toNat = 1 + row :=
    UInt32.toNat_ofNat_of_lt' (show 1 + row < 2 ^ 32 by omega)
  have hrest : (UInt32.ofNat column).toNat = column :=
    UInt32.toNat_ofNat_of_lt' (show column < 2 ^ 32 by omega)
  refine ⟨.between (by omega) (by omega) (by omega), ?_⟩
  rw [(h.index_between (by omega) (by omega) _).2, hparallel, hrest, Nat.mod_eq_of_lt hcolumn,
    Nat.add_sub_cancel_left]

theorem isPlace_placeOf {i : Nat} (hi : i < g.vertexCount) :
    g.IsPlace (g.placeOf i) ∧ (g.index (g.placeOf i).1 (g.placeOf i).2).toNat = i := by
  rw [vertexCount] at hi
  unfold placeOf
  split
  next hzero => exact ⟨.north, hzero.symm⟩
  next hzero =>
    split
    next hlast =>
      rw [h.index_belts, h.south_exact.2]
      exact ⟨.south, hlast.symm⟩
    next hlast =>
      have hrow : (i - 1) / g.slices.toNat < g.belts.toNat - 1 :=
        Nat.div_lt_of_lt_mul (by rw [Nat.mul_comm]; omega)
      obtain ⟨hplace, hindex⟩ := h.index_ofNat hrow (Nat.mod_lt (i - 1) h.slices_pos)
      rw [Nat.div_add_mod', Nat.add_sub_cancel' (Nat.pos_of_ne_zero hzero)] at hindex
      exact ⟨hplace, hindex⟩

/-- The numbers are those of the vertices, and each of them is that of one place. -/
theorem index_bijOn :
    Set.BijOn (fun p : UInt32 × UInt32 => (g.index p.1 p.2).toNat) {p | g.IsPlace p}
      {i | i < g.mesh.vertices.size} := by
  have hinverse : Set.InvOn g.placeOf (fun p : UInt32 × UInt32 => (g.index p.1 p.2).toNat)
      {p | g.IsPlace p} {i | i < g.vertexCount} :=
    ⟨fun p hp => h.placeOf_index hp, fun i hi => (h.isPlace_placeOf hi).2⟩
  rw [size_vertices]
  exact hinverse.bijOn (fun p hp => h.toNat_index_lt hp) fun i hi => (h.isPlace_placeOf hi).1

theorem corners {f : Triangle} (hf : f ∈ g.mesh.triangles) :
    f.toList.Nodup ∧ ∀ i ∈ f.toList, i.toNat < g.mesh.vertices.size := by
  refine h.wrapping.corners (fun p hp s hs => ?_) hf
  have hsite := h.tube.hasSite_of_holds (h.wrapping.holds p hp) s hs
  have hcount := h.ringCount_tube
  change (h.place s).toNat < _
  rw [size_vertices, vertexCount]
  exact (h.tube.toNat_place (h.number_lt hsite)).trans_lt
    (h.tube.number_lt hsite (by omega) (by omega) (by omega))

theorem saturated_rows :
    saturated ((g.belts.toNat - 1) * g.slices.toNat) = (g.belts.toNat - 1) * g.slices.toNat := by
  have hle := h.rows_le
  exact saturated_of_lt (by omega)

theorem predictedVertices_eq : g.predictedVertices = g.vertexCount := by
  have hle := h.rows_le
  rw [predictedVertices, h.saturated_rows]
  exact saturated_of_lt (by omega)

theorem predictedTriangles_eq : g.predictedTriangles = g.triangleCount := by
  have hle := h.rows_le
  rw [predictedTriangles, h.saturated_rows, triangleCount, Nat.mul_comm 2]
  exact saturated_of_lt (by omega)

end Fits

end SphereGrid

/-- The vertices of a sphere are where their numbers say, for every number of slices and of belts
that 32 bits have numbers for. -/
theorem sphere_numbers {g : SphereGrid} (hslices : 6 ≤ g.slices.toNat)
    (hbelts : 2 ≤ g.belts.toNat)
    (hfits : 2 + (g.belts.toNat - 1) * g.slices.toNat ≤ 2 ^ 32) :
    (∀ t : Tolerance, 6 ≤ t.sphereGrid.slices.toNat ∧ 2 ≤ t.sphereGrid.belts.toNat) ∧
      g.mesh.vertices.size = g.predictedVertices ∧
      g.mesh.triangles.size = g.predictedTriangles ∧
      (∀ parallel ≤ g.belts, ∀ column,
        g.mesh.vertices[(g.index parallel column).toNat]? = some (g.pointAt parallel column)) ∧
      Set.BijOn (fun p : UInt32 × UInt32 => (g.index p.1 p.2).toNat) {p | g.IsPlace p}
        {i | i < g.mesh.vertices.size} ∧
      (∀ f ∈ g.mesh.triangles,
        f.toList.Nodup ∧ ∀ i ∈ f.toList, i.toNat < g.mesh.vertices.size) ∧
      g.south? = some g.south ∧
      (∀ parallel column, g.index? parallel column = some (g.index parallel column)) ∧
      g.triangles? = some g.mesh.triangles.toList := by
  have h : g.Fits :=
    ⟨Nat.le_trans (by decide) hslices, hbelts, (Nat.add_comm _ 2).trans_le hfits⟩
  exact ⟨fun t => ⟨t.six_le_slices, t.two_le_belts⟩,
    g.size_vertices.trans h.predictedVertices_eq.symm,
    (SphereGrid.size_triangles hbelts).trans h.predictedTriangles_eq.symm,
    fun _ hle column => h.getElem?_vertices hle column, h.index_bijOn, fun _ hf => h.corners hf,
    h.south_exact.1, h.index?_eq, h.triangles?_eq⟩

/-- With one parallel and as many slices as there are numbers for, the south pole gets the last
number. -/
theorem sphere_numbers_widest :
    let g : SphereGrid := ⟨4294967294, 2⟩
    g.mesh.vertices.size = 2 ^ 32 ∧ g.south? = some 4294967295 ∧
      g.mesh.vertices[(g.index 2 7).toNat]? = some ⟨0, 0, -1⟩ ∧
      g.mesh.vertices[(g.index 1 4294967295).toNat]? = some (g.point 1 1) := by
  intro g
  obtain ⟨-, hvertices, -, hpoints, -, -, hsouth, -, -⟩ :=
    sphere_numbers (g := g) (by decide) (by decide) (by decide)
  have hsize : g.predictedVertices = 2 ^ 32 := by decide
  have hlast : g.south = 4294967295 := by decide
  have hcolumn : (4294967295 : UInt32) % g.slices = 1 := by decide
  have hbetween : g.pointAt 1 4294967295 = g.point 1 1 := by
    rw [SphereGrid.pointAt, hcolumn]
    rfl
  exact ⟨hvertices.trans hsize, hsouth.trans (congrArg some hlast), hpoints 2 (by decide) 7,
    (hpoints 1 (by decide) 4294967295).trans (congrArg some hbetween)⟩

end Facet
