import Facet.Proofs.StepFold
import Facet.Proofs.StepJoining

namespace Facet

theorem noNumberAhead_keyword (part : CountedSection) {rest : List Char} (h : EndsWord rest) :
    NoNumberAhead (part.keyword.toList ++ rest) := by
  have hword := nextWord?_word_append (isWord_keyword part) h
  have hnone : readFloat part.keyword.toList = none := by cases part <;> rfl
  simp [NoNumberAhead, readNext, hword, hnone]

theorem sectionText_append {α : Type} (part : CountedSection) (recordText : α → List Char)
    (records : List α) (rest : List Char) :
    sectionText part recordText records ++ rest =
      part.keyword.toList ++ ' ' :: (countText records.length ++ '\n' ::
        ((records.flatMap fun record => line (recordText record)) ++ rest)) := by
  simp [sectionText, line]

theorem noNumberAhead_text (m : Mesh) : NoNumberAhead m.text := by
  rw [Mesh.text, sectionText_append]
  exact noNumberAhead_keyword .vertices (endsWord_cons (by decide) _)

/-- A count that no document can hold is refused when it is read. -/
theorem readSections_sectionText_of_lt {α : Type} (part : CountedSection)
    (recordText : α → List Char) {records : List α} (h : countLimit < records.length)
    (rest : List Char) :
    ∃ e, readSections (sectionText part recordText records ++ rest) = .error e := by
  let after := '\n' :: ((records.flatMap fun record => line (recordText record)) ++ rest)
  have hcount : nextWord? (' ' :: (countText records.length ++ after)) =
      some (countText records.length, after) := by
    have hgap : IsBlanks [' '] := by decide
    exact (nextWord?_blanks_append hgap _).trans
      (nextWord?_word_append (isWord_countText _) (endsWord_cons (by decide) _))
  have hsection : readSection part.keyword.toList (' ' :: (countText records.length ++ after)) =
      .error (.badCount part (String.ofList (countText records.length))) := by
    simp [readSection, ofWord_keyword, readSectionCount, hcount, readCount_countText_of_lt h]
  rw [sectionText_append]
  exact ⟨_, readSections_of_error
    (nextWord?_word_append (isWord_keyword part) (endsWord_cons (by decide) _)) hsection⟩

theorem countable_of_readSections_text {m : Mesh} {sections : List StepSection}
    (h : readSections m.text = .ok sections) : m.Countable := by
  have hvertices : m.vertices.toList.length ≤ countLimit := by
    by_contra hlong
    obtain ⟨e, he⟩ := readSections_sectionText_of_lt .vertices pointText (Nat.not_le.mp hlong)
      (sectionText .indices triangleText m.triangles.toList ++ m.normalsText)
    cases he.symm.trans h
  refine ⟨hvertices, ?_⟩
  by_contra hlong
  obtain ⟨e, he⟩ := readSections_sectionText_of_lt .indices triangleText (Nat.not_le.mp hlong)
    m.normalsText
  have hblock := readSections_block_append (.vertices (.ofRecords Triple.ofPoint hvertices))
    (sectionText .indices triangleText m.triangles.toList ++ m.normalsText)
  rw [he] at hblock
  have htext : m.text = (StepBlock.vertices (.ofRecords Triple.ofPoint hvertices)).text ++
      (sectionText .indices triangleText m.triangles.toList ++ m.normalsText) :=
    congrArg (· ++ _) (sectionText_eq_body text_ofPoint .vertices hvertices)
  rw [htext, hblock] at h
  cases h

theorem lastOf_writtenBlocks (m : Mesh) (h : m.Countable) :
    lastOf StepBlock.vertices? (m.writtenBlocks h) = some m.vertices.toList ∧
      lastOf StepBlock.triangles? (m.writtenBlocks h) = some m.triangles.toList := by
  obtain ⟨vertices, triangles, normals, hsize⟩ := m
  have hpoints := congrArg some (map_point_ofPoint vertices.toList)
  have htriangles := congrArg some (map_triangle_ofTriangle triangles.toList)
  cases normals with
  | none => exact ⟨hpoints, htriangles⟩
  | some ns => exact ⟨hpoints, htriangles⟩

/-- The mesh of a written model wins over whatever has been read before it. -/
theorem foldl_put_written (m : Mesh) (h : m.Countable) (draft : StepDraft) :
    let put := ((m.writtenBlocks h).flatMap StepBlock.sections).foldl StepDraft.put draft
    put.vertices = m.vertices.toList ∧ put.triangles = m.triangles.toList := by
  obtain ⟨hlastVertices, hlastTriangles⟩ := lastOf_writtenBlocks m h
  have hvertices := foldl_put_sections StepDraft.vertices StepBlock.vertices? id
    (by intro block draft; cases block <;> rfl) (m.writtenBlocks h) draft
  have htriangles := foldl_put_sections StepDraft.triangles StepBlock.triangles? id
    (by intro block draft; cases block <;> rfl) (m.writtenBlocks h) draft
  rw [hlastVertices] at hvertices
  rw [hlastTriangles] at htriangles
  exact ⟨hvertices, htriangles⟩

/-- Whatever a name holds, the sections of the mesh are read as they were written, and last. -/
theorem readStep_stepText_eq_ok {m r : Model} (h : readStep (stepText m) = .ok r) :
    ∃ earlier, ∃ hcount : m.mesh.Countable,
      r = modelOfSections
        (earlier ++ (m.mesh.writtenBlocks hcount).flatMap StepBlock.sections) := by
  have hparts := readSections_append (noNumberAhead_text m.mesh)
    (endsLine_append_feed ("NAME ".toList ++ m.name.toList))
  rw [stepText_eq, readStep_header_append] at h
  cases hall : readSections (m.nameText ++ m.mesh.text) with
  | error e => rw [hall] at h; cases h
  | ok sections =>
    rw [hall] at h
    have hjoined : (readSections (m.nameText ++ m.mesh.text)).toOption = some sections := by
      rw [hall]; rfl
    obtain ⟨earlier, -, hlater⟩ := Option.bind_eq_some_iff.mp (hparts.symm.trans hjoined)
    obtain ⟨later, hread, rfl⟩ := Option.map_eq_some_iff.mp hlater
    have hwritten := eq_ok_of_toOption hread
    have hcount := countable_of_readSections_text hwritten
    rw [m.mesh.text_eq_blocks hcount, readSections_blocks] at hwritten
    rw [← Except.ok.inj hwritten] at h
    exact ⟨earlier, hcount, (Except.ok.inj h).symm⟩

theorem step_name_keeps_geometry (m r : Model) (h : readStep (stepText m) = .ok r) :
    r.mesh.vertices = m.mesh.vertices ∧ r.mesh.triangles = m.mesh.triangles := by
  obtain ⟨earlier, hcount, rfl⟩ := readStep_stepText_eq_ok h
  obtain ⟨hvertices, htriangles⟩ :=
    foldl_put_written m.mesh hcount (earlier.foldl StepDraft.put {})
  rw [← List.foldl_append] at hvertices htriangles
  obtain ⟨-, hmodelVertices, hmodelTriangles⟩ := StepDraft.model_parts
    ((earlier ++ (m.mesh.writtenBlocks hcount).flatMap StepBlock.sections).foldl StepDraft.put {})
  constructor
  · rw [modelOfSections, hmodelVertices, hvertices, Array.toArray_toList]
  · rw [modelOfSections, hmodelTriangles, htriangles, Array.toArray_toList]

/-- The name opens sections of its own and ends in the middle of a record. -/
theorem step_name_keeps_geometry_of_sections :
    ∃ r, readStep (stepText ⟨"a\nVERTICES 1\n5 5 5\nINDICES 0\nNORMALS 9\n1 2",
        Mesh.ofParts #[⟨0, 0, 0⟩] #[⟨7, 7, 0⟩]⟩) = .ok r ∧
      r.mesh.vertices = #[⟨0, 0, 0⟩] ∧ r.mesh.triangles = #[⟨7, 7, 0⟩] := by
  have haccepted : (readStep (stepText ⟨"a\nVERTICES 1\n5 5 5\nINDICES 0\nNORMALS 9\n1 2",
      Mesh.ofParts #[⟨0, 0, 0⟩] #[⟨7, 7, 0⟩]⟩)).toOption.isSome = true := by
    decide +kernel
  obtain ⟨r, hr⟩ := Option.isSome_iff_exists.mp haccepted
  have hread := eq_ok_of_toOption hr
  exact ⟨r, hread, step_name_keeps_geometry _ r hread⟩

end Facet
