import Facet.Proofs.IgesWriting

namespace Facet

theorem put_ofName (name : List Char) :
    ({} : IgesDraft).put (IgesLine.ofName name) = { name := trimEnd name } := by
  unfold IgesLine.ofName
  split
  next hblank => rw [hblank]; rfl
  next => rfl

theorem foldl_put_igesFound (m : Model) :
    m.igesFound.foldl IgesDraft.put {} =
      ⟨trimEnd m.name.toList, m.mesh.vertices.toList.reverse,
        m.mesh.triangles.toList.reverse⟩ := by
  rw [Model.igesFound, List.foldl_cons, List.foldl_append, put_ofName, foldl_put_vertices,
    foldl_put_faces, List.append_nil, List.append_nil]

theorem IgesDraft.model_of_reversed (name : List Char) (vertices : Array Point)
    (triangles : Array Triangle) :
    IgesDraft.model ⟨name, vertices.toList.reverse, triangles.toList.reverse⟩ =
      if vertices.size = 0 ∨ triangles.size = 0 then
        .error (.missingGeometry vertices.size triangles.size)
      else .ok ⟨String.ofList name, Mesh.ofParts vertices triangles⟩ := by
  simp [model]

/-- What is read from a written model, in full. -/
theorem readIges_igesText (m : Model) (hname : '\n' ∉ m.name.toList) :
    readIges (igesText m) =
      if m.mesh.vertices.size = 0 ∨ m.mesh.triangles.size = 0 then
        .error (.missingGeometry m.mesh.vertices.size m.mesh.triangles.size)
      else .ok ⟨String.ofList (trimEnd m.name.toList),
        Mesh.ofParts m.mesh.vertices m.mesh.triangles⟩ := by
  have hheader : trim igesHeader.toList = igesHeader.toList := by decide
  have hread : readIgesLines {} 2 (m.igesLines ++ igesTerminator.toList :: [[]]) =
      .ok (m.igesFound.foldl IgesDraft.put {}) := by
    rw [readIgesLines_append (igesFound_isReadFrom m), readIgesLines_terminator]
  simp only [readIges, lines_igesText m hname, List.headD_cons, List.tail_cons, hheader, if_true,
    hread, foldl_put_igesFound]
  exact IgesDraft.model_of_reversed _ _ _

/-- A written model reads back with the blanks behind its name cut and without its normals, and
not at all if it has no vertices or no triangles. -/
theorem iges_round_trip (m : Model) (hname : '\n' ∉ m.name.toList) :
    (m.mesh.vertices.size = 0 ∨ m.mesh.triangles.size = 0 →
      readIges (igesText m) =
        .error (.missingGeometry m.mesh.vertices.size m.mesh.triangles.size)) ∧
    (m.mesh.vertices.size ≠ 0 → m.mesh.triangles.size ≠ 0 →
      ∃ r, readIges (igesText m) = .ok r ∧
        IsTrimEndOf m.name.toList r.name.toList ∧
        r.name = String.ofList (trimEnd m.name.toList) ∧
        (IsBlanks m.name.toList → r.name = "") ∧
        r.mesh.vertices = m.mesh.vertices ∧ r.mesh.triangles = m.mesh.triangles ∧
        r.mesh.normals = none) := by
  rw [readIges_igesText m hname]
  constructor
  · intro hmissing
    rw [if_pos hmissing]
  · intro hvertices htriangles
    rw [if_neg (not_or.mpr ⟨hvertices, htriangles⟩)]
    refine ⟨_, rfl, ?_, rfl, ?_, rfl, rfl, rfl⟩
    · rw [String.toList_ofList]
      exact isTrimEndOf_trimEnd m.name.toList
    · intro hblank
      rw [trimEnd_of_isBlanks hblank]

theorem iges_round_trip_padded_name :
    (∃ r, readIges (igesText ⟨" END-IGES\t\r", Mesh.ofParts #[⟨signedFloat true 0, 0, 0⟩]
        #[⟨7, 7, 0⟩]⟩) = .ok r ∧ r.name = " END-IGES" ∧
      r.mesh.vertices = #[⟨signedFloat true 0, 0, 0⟩] ∧ r.mesh.triangles = #[⟨7, 7, 0⟩]) ∧
    readIges (igesText ⟨"VERTEX 0 0 0", Mesh.ofParts #[] #[⟨0, 1, 2⟩]⟩) =
      .error (.missingGeometry 0 1) := by
  obtain ⟨-, hpresent⟩ := iges_round_trip
    ⟨" END-IGES\t\r", Mesh.ofParts #[⟨signedFloat true 0, 0, 0⟩] #[⟨7, 7, 0⟩]⟩ (by decide)
  obtain ⟨r, hread, -, hname, -, hvertices, htriangles, -⟩ := hpresent (by decide) (by decide)
  obtain ⟨hmissing, -⟩ := iges_round_trip ⟨"VERTEX 0 0 0", Mesh.ofParts #[] #[⟨0, 1, 2⟩]⟩ (by decide)
  exact ⟨⟨r, hread, hname.trans (by decide), hvertices, htriangles⟩, hmissing (Or.inl rfl)⟩

end Facet
