import Facet.Proofs.StepFold
import Facet.Proofs.StepWriting

namespace Facet

theorem draftOfBlocks_writtenBlocks (m : Model) (hname : '\n' ∉ m.name.toList)
    (h : m.mesh.Countable) :
    draftOfBlocks (m.writtenBlocks hname h) =
      ⟨trim m.name.toList, m.mesh.vertices.toList, m.mesh.triangles.toList,
        m.mesh.normals.map Array.toList⟩ := by
  obtain ⟨name, ⟨vertices, triangles, normals, hsize⟩⟩ := m
  have hpoints := map_point_ofPoint vertices.toList
  have htriangles := map_triangle_ofTriangle triangles.toList
  have hblank : trim (' ' :: name.toList) = trim name.toList := rfl
  cases normals with
  | none =>
    rw [← hpoints, ← htriangles, ← hblank]
    rfl
  | some ns =>
    have hnormals := map_point_ofPoint ns.toList
    rw [← hpoints, ← htriangles, ← hblank, Option.map_some, ← hnormals]
    rfl

theorem readStep_stepText (m : Model) (hname : '\n' ∉ m.name.toList) (h : m.mesh.Countable) :
    readStep (stepText m) =
      .ok (StepDraft.model ⟨trim m.name.toList, m.mesh.vertices.toList, m.mesh.triangles.toList,
        m.mesh.normals.map Array.toList⟩) := by
  rw [stepText_eq_blocks m hname h, readStep_document, draftOfBlocks_writtenBlocks]

theorem givenNormals_toList (m : Mesh) :
    (Mesh.ofParts m.vertices m.triangles).givenNormals (m.normals.map Array.toList) =
      m.normals.getD m.computeNormals := by
  obtain ⟨vertices, triangles, normals, hsize⟩ := m
  cases normals with
  | none => rfl
  | some ns =>
    simp [Mesh.givenNormals, Mesh.ofParts, hsize ns rfl]

/-- A written model reads back with its name trimmed and with the normals it had, or the computed
ones if it had none. -/
theorem step_round_trip (m : Model) (hname : '\n' ∉ m.name.toList) (h : m.mesh.Countable) :
    ∃ r, readStep (stepText m) = .ok r ∧
      IsTrimOf m.name.toList r.name.toList ∧ r.name = String.ofList (trim m.name.toList) ∧
      (r.name = m.name ↔ trim m.name.toList = m.name.toList) ∧
      r.mesh.vertices = m.mesh.vertices ∧ r.mesh.triangles = m.mesh.triangles ∧
      r.mesh.normals = some (m.mesh.normals.getD m.mesh.computeNormals) := by
  let draft : StepDraft := ⟨trim m.name.toList, m.mesh.vertices.toList, m.mesh.triangles.toList,
    m.mesh.normals.map Array.toList⟩
  obtain ⟨hread, hvertices, htriangles⟩ := draft.model_parts
  refine ⟨draft.model, readStep_stepText m hname h, ?_, hread, ?_, ?_, ?_, ?_⟩
  · rw [hread, String.toList_ofList]
    exact isTrimOf_trim m.name.toList
  · rw [hread, ← String.toList_inj, String.toList_ofList]
  · rw [hvertices, Array.toArray_toList]
  · rw [htriangles, Array.toArray_toList]
  · rw [draft.model_normals, Array.toArray_toList, Array.toArray_toList, givenNormals_toList]

theorem step_round_trip_padded_name :
    ∃ r, readStep (stepText ⟨"\t NAME 2 ", Mesh.ofParts #[⟨signedFloat false infinityBits, 0, 0⟩]
        #[⟨7, 7, 0⟩]⟩) = .ok r ∧ r.name = "NAME 2" ∧
      r.mesh.vertices = #[⟨signedFloat false infinityBits, 0, 0⟩] ∧
      r.mesh.triangles = #[⟨7, 7, 0⟩] := by
  obtain ⟨r, hread, -, hname, -, hvertices, htriangles, -⟩ := step_round_trip
    ⟨"\t NAME 2 ", Mesh.ofParts #[⟨signedFloat false infinityBits, 0, 0⟩] #[⟨7, 7, 0⟩]⟩
    (by decide) ⟨by decide, by decide⟩
  exact ⟨r, hread, hname.trans (by decide), hvertices, htriangles⟩

end Facet
