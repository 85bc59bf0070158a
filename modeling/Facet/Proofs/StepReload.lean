import Facet.Proofs.StepRoundTrip
import Facet.Proofs.StepSections

namespace Facet

/-- What holds of a draft that well-formed sections add up to. -/
structure StepDraft.WellFormed (draft : StepDraft) : Prop where
  one_line : '\n' ∉ draft.name
  trimmed : trim draft.name = draft.name
  vertices : draft.vertices.length ≤ countLimit
  triangles : draft.triangles.length ≤ countLimit

theorem StepDraft.WellFormed.empty : ({} : StepDraft).WellFormed :=
  ⟨by decide, rfl, Nat.zero_le _, Nat.zero_le _⟩

theorem StepDraft.WellFormed.put {draft : StepDraft} {found : StepSection} (h : draft.WellFormed)
    (hfound : found.WellFormed) : (draft.put found).WellFormed := by
  cases found with
  | name text => exact ⟨hfound.1, hfound.2, h.vertices, h.triangles⟩
  | vertices points => exact ⟨h.one_line, h.trimmed, hfound, h.triangles⟩
  | indices triangles => exact ⟨h.one_line, h.trimmed, h.vertices, hfound⟩
  | normals declared points => exact ⟨h.one_line, h.trimmed, h.vertices, h.triangles⟩
  | unknown word => exact h

theorem StepDraft.WellFormed.foldl_put {sections : List StepSection} {draft : StepDraft}
    (h : draft.WellFormed) (hall : ∀ found ∈ sections, found.WellFormed) :
    (sections.foldl StepDraft.put draft).WellFormed := by
  induction sections generalizing draft with
  | nil => exact h
  | cons found sections ih =>
    exact ih (h.put (hall found List.mem_cons_self)) fun other hother =>
      hall other (List.mem_cons_of_mem found hother)

/-- A model that a STEP document holds without loss. -/
structure Model.IsSettled (m : Model) : Prop where
  one_line : '\n' ∉ m.name.toList
  trimmed : trim m.name.toList = m.name.toList
  countable : m.mesh.Countable
  normals : m.mesh.normals.isSome = true

theorem StepDraft.WellFormed.isSettled_model {draft : StepDraft} (h : draft.WellFormed) :
    draft.model.IsSettled := by
  obtain ⟨hname, hvertices, htriangles⟩ := draft.model_parts
  refine ⟨?_, ?_, ⟨?_, ?_⟩, ?_⟩
  · rw [hname, String.toList_ofList]
    exact h.one_line
  · rw [hname, String.toList_ofList]
    exact h.trimmed
  · rw [hvertices]
    exact h.vertices
  · rw [htriangles]
    exact h.triangles
  · rw [draft.model_normals]
    rfl

/-- Whatever is read is settled, however the document is laid out. -/
theorem isSettled_of_readStep {text : List Char} {m : Model} (h : readStep text = .ok m) :
    m.IsSettled := by
  obtain ⟨sections, hsections, rfl⟩ := exists_stepSections h
  have hdraft := StepDraft.WellFormed.empty.foldl_put (stepSections_wellFormed hsections)
  exact hdraft.isSettled_model

/-- A settled model is read back as it was written. -/
theorem Model.IsSettled.readStep_stepText {m : Model} (h : m.IsSettled) :
    readStep (stepText m) = .ok m := by
  obtain ⟨name, vertices, triangles, normals, hsize⟩ := m
  obtain ⟨ns, rfl⟩ := Option.isSome_iff_exists.mp h.normals
  rw [Facet.readStep_stepText _ h.one_line h.countable, h.trimmed]
  simp [StepDraft.model, Mesh.setNormals, Mesh.ofParts, Except.toOption, hsize ns rfl]

/-- To read a document and to write what was read settles it: what is read from the outcome is the
same model, and it is written the same way. -/
theorem step_reload {text : List Char} {m : Model} (h : readStep text = .ok m) :
    '\n' ∉ m.name.toList ∧ trim m.name.toList = m.name.toList ∧
      (∃ ns, m.mesh.normals = some ns ∧ ns.size = m.mesh.vertices.size) ∧
      readStep (stepText m) = .ok m ∧
      (readStep (stepText m)).map stepText = .ok (stepText m) := by
  have hsettled := isSettled_of_readStep h
  have hsame := hsettled.readStep_stepText
  obtain ⟨ns, hns⟩ := Option.isSome_iff_exists.mp hsettled.normals
  refine ⟨hsettled.one_line, hsettled.trimmed, ⟨ns, hns, m.mesh.normals_size ns hns⟩, hsame, ?_⟩
  rw [hsame]
  rfl

/-- Names are given twice, blanks are everywhere and the normals break off. -/
theorem step_reload_untidy :
    ∃ m, readStep ("\n WOODSHOP_STEP 9\r\nNAME old\r\nUNITS mm\nVERTICES 1 0\n0 NaN " ++
        "NAME \t part 7 \r\nNORMALS 2 1 0\n").toList = .ok m ∧
      m.name = "part 7" ∧ readStep (stepText m) = .ok m := by
  have haccepted : (readStep ("\n WOODSHOP_STEP 9\r\nNAME old\r\nUNITS mm\nVERTICES 1 0\n0 NaN " ++
      "NAME \t part 7 \r\nNORMALS 2 1 0\n").toList).toOption.map Model.name = some "part 7" := by
    decide +kernel
  obtain ⟨m, hm, hname⟩ := Option.map_eq_some_iff.mp haccepted
  have hread := eq_ok_of_toOption hm
  obtain ⟨-, -, -, hsame, -⟩ := step_reload hread
  exact ⟨m, hread, hname, hsame⟩

end Facet
