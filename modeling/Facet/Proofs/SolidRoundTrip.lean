import Facet.Proofs.IgesRoundTrip
import Facet.Proofs.SolidCounts
import Facet.Proofs.StepReload

namespace Facet

theorem Mesh.recomputeNormals_clearNormals {m : Mesh} (h : m.normals = some m.computeNormals) :
    m.clearNormals.recomputeNormals = m := by
  obtain ⟨vertices, triangles, normals, hsize⟩ := m
  have hnormals : normals = some (ofParts vertices triangles).computeNormals := h
  subst hnormals
  rfl

/-- A model with a name as documents give it and with the normals of its own faces. -/
structure Model.IsComputed (m : Model) : Prop where
  one_line : '\n' ∉ m.name.toList
  trimmed : trim m.name.toList = m.name.toList
  normals : m.mesh.normals = some m.mesh.computeNormals

def Model.clearNormals (m : Model) : Model :=
  { m with mesh := m.mesh.clearNormals }

namespace Model.IsComputed

variable {m : Model} (h : m.IsComputed)

include h

theorem ensureNormals_clearNormals : m.clearNormals.ensureNormals = m := by
  change { m with mesh := m.mesh.clearNormals.recomputeNormals } = m
  rw [Mesh.recomputeNormals_clearNormals h.normals]

theorem readStep_stepText_iff : readStep (stepText m) = .ok m ↔ m.mesh.Countable := by
  constructor
  · intro hread
    exact (isSettled_of_readStep hread).countable
  · intro hcount
    have hsome : m.mesh.normals.isSome = true := by
      rw [h.normals]
      rfl
    have hsettled : m.IsSettled := ⟨h.one_line, h.trimmed, hcount, hsome⟩
    exact hsettled.readStep_stepText

theorem readStep_stepText_clearNormals_iff :
    readStep (stepText m.clearNormals) = .ok m ↔ m.mesh.Countable := by
  constructor
  · intro hread
    exact (isSettled_of_readStep hread).countable
  · intro hcount
    have hread := readStep_stepText m.clearNormals h.one_line ⟨hcount.vertices, hcount.triangles⟩
    refine hread.trans (congrArg Except.ok ?_)
    have hname : String.ofList (trim m.name.toList) = m.name := by
      rw [h.trimmed, String.ofList_toList]
    change (⟨String.ofList (trim m.name.toList), (Mesh.ofParts m.mesh.vertices.toList.toArray
      m.mesh.triangles.toList.toArray).recomputeNormals⟩ : Model) = m
    rw [hname, Array.toArray_toList, Array.toArray_toList]
    exact h.ensureNormals_clearNormals

theorem readIges_igesText (hvertices : m.mesh.vertices.size ≠ 0)
    (htriangles : m.mesh.triangles.size ≠ 0) :
    readIges (igesText m) = .ok m.clearNormals := by
  rw [Facet.readIges_igesText m h.one_line, if_neg (not_or.mpr ⟨hvertices, htriangles⟩),
    trimEnd_of_trim h.trimmed, String.ofList_toList]
  rfl

end Model.IsComputed

theorem Solid.normals_tessellate (t : Tolerance) (solid : Solid) :
    (solid.tessellate t).normals = some (solid.tessellate t).computeNormals := by
  cases solid with
  | unitSphere => rfl
  | cylinder radius height capped => rfl

theorem Solid.countable_tessellate_iff (t : Tolerance) (solid : Solid) :
    (solid.tessellate t).Countable ↔ (solid.tessellate t).triangles.size ≤ countLimit := by
  constructor
  · intro h
    exact h.triangles
  · intro h
    exact ⟨Nat.le_trans (solid.size_vertices_le_size_triangles t) h, h⟩

/-- What is made of a solid survives both kinds of documents. One without normals gives the same
ones again, as they are computed from what it keeps. Only a cylinder with more triangles than 64 bits
can count has no STEP document that can be read, and it takes a finer range than 2³¹ to make one. -/
theorem tessellate_survives_documents (t : Tolerance) (solid : Solid) {name : String}
    (hname : '\n' ∉ name.toList) (htrim : trim name.toList = name.toList) :
    let m : Model := ⟨name, solid.tessellate t⟩
    let bare : Model := ⟨name, (solid.tessellate t).clearNormals⟩
    (readStep (stepText m) = .ok m ↔ m.mesh.triangles.size ≤ countLimit) ∧
      (readStep (stepText bare) = .ok m ↔ m.mesh.triangles.size ≤ countLimit) ∧
      (solid = .unitSphere ∨ t.maxSegments.toNat < 2 ^ 31 → m.mesh.triangles.size ≤ countLimit) ∧
      readIges (igesText m) = .ok bare ∧ bare.ensureNormals = m := by
  intro m bare
  have h : m.IsComputed := ⟨hname, htrim, solid.normals_tessellate t⟩
  have hcount := solid.countable_tessellate_iff t
  have hvertices := solid.vertices_pos t
  have htriangles := Nat.lt_of_lt_of_le hvertices (solid.size_vertices_le_size_triangles t)
  refine ⟨h.readStep_stepText_iff.trans hcount, h.readStep_stepText_clearNormals_iff.trans hcount,
    ?_, h.readIges_igesText hvertices.ne' htriangles.ne', h.ensureNormals_clearNormals⟩
  intro hrange
  exact Nat.le_sub_one_of_lt (solid.size_triangles_lt t hrange)

theorem tessellate_survives_documents_coarsest :
    let m : Model := ⟨"part 7", cylinderMesh coarsestTolerance (-1) (0 / 0) true⟩
    let bare : Model := ⟨"part 7", m.mesh.clearNormals⟩
    readStep (stepText m) = .ok m ∧ readStep (stepText bare) = .ok m ∧
      readIges (igesText m) = .ok bare ∧ bare.ensureNormals = m := by
  intro m bare
  obtain ⟨hstep, hbare, hcount, higes, hnormals⟩ :=
    tessellate_survives_documents coarsestTolerance (.cylinder (-1) (0 / 0) true)
      (show '\n' ∉ "part 7".toList by decide) (by decide)
  have hfew := hcount (Or.inr (by decide))
  exact ⟨hstep.mpr hfew, hbare.mpr hfew, higes, hnormals⟩

end Facet
