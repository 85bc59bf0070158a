import Facet.Proofs.StepFold
import Facet.Proofs.StepSections

namespace Facet

/-- What a section with normals declares and what it holds. -/
def StepSection.normals? : StepSection → Option (Nat × List Point)
  | normals declared points => some (declared, points)
  | _ => none

def lastNormals (sections : List StepSection) : Option (Nat × List Point) :=
  (sections.filterMap StepSection.normals?).getLast?

/-- The records of a section that declares one for each vertex and holds them all, and the computed
normals in every other case. -/
def Mesh.declaredNormals (m : Mesh) : Option (Nat × List Point) → Array Point
  | some (declared, points) =>
    if declared = m.vertices.size ∧ points.length = declared then points.toArray
    else m.computeNormals
  | none => m.computeNormals

theorem normals_foldl_put (sections : List StepSection) :
    (sections.foldl StepDraft.put {}).normals = (lastNormals sections).map Prod.snd := by
  have hput : ∀ (draft : StepDraft) (found : StepSection), (draft.put found).normals =
      (found.normals?.map fun given => some given.2).getD draft.normals := by
    intro draft found
    cases found <;> rfl
  rw [foldl_eq_last StepDraft.normals _ _ hput, lastNormals]
  cases (sections.filterMap StepSection.normals?).getLast? <;> rfl

theorem givenNormals_congr {a b : Mesh} (hvertices : a.vertices = b.vertices)
    (htriangles : a.triangles = b.triangles) (given : Option (List Point)) :
    a.givenNormals given = b.givenNormals given := by
  obtain ⟨vertices, triangles, normals, hsize⟩ := a
  obtain ⟨_, _, others, hothers⟩ := b
  cases hvertices
  cases htriangles
  rfl

/-- Only how many records are there decides about them, and not how many were declared. -/
theorem normals_modelOfSections (sections : List StepSection) :
    (modelOfSections sections).mesh.normals =
      some ((modelOfSections sections).mesh.givenNormals
        ((lastNormals sections).map Prod.snd)) := by
  obtain ⟨-, hvertices, htriangles⟩ := (sections.foldl StepDraft.put {}).model_parts
  rw [modelOfSections, StepDraft.model_normals, normals_foldl_put,
    givenNormals_congr hvertices.symm htriangles.symm]

theorem length_le_of_lastNormals {text : List Char} {sections : List StepSection} {declared : Nat}
    {points : List Point} (h : stepSections text = .ok sections)
    (hlast : lastNormals sections = some (declared, points)) : points.length ≤ declared := by
  obtain ⟨found, hfound, hnormals⟩ := List.mem_filterMap.mp (List.mem_of_getLast? hlast)
  have hsection := stepSections_wellFormed h found hfound
  cases found with
  | normals count records =>
    cases Option.some.inj hnormals
    exact hsection
  | _ => cases hnormals

/-- More normals are declared than there are vertices, and they break off behind as many as there
are vertices. -/
def Mesh.IsSurplus (m : Mesh) (given : Option (Nat × List Point)) : Prop :=
  ∃ declared points, given = some (declared, points) ∧ m.vertices.size < declared ∧
    points.length = m.vertices.size

theorem givenNormals_eq_declaredNormals {m : Mesh} {given : Option (Nat × List Point)}
    (hle : ∀ declared points, given = some (declared, points) → points.length ≤ declared)
    (hsurplus : ¬ m.IsSurplus given) :
    m.givenNormals (given.map Prod.snd) = m.declaredNormals given := by
  cases given with
  | none => rfl
  | some last =>
    obtain ⟨declared, points⟩ := last
    have hlength := hle declared points rfl
    by_cases hfit : points.length = m.vertices.size
    · have hdeclared : declared ≤ m.vertices.size :=
        Nat.not_lt.mp fun hlt => hsurplus ⟨declared, points, rfl, hlt, hfit⟩
      have hfull : points.length = declared := by omega
      rw [Mesh.declaredNormals, if_pos ⟨hfull ▸ hfit, hfull⟩]
      exact if_pos hfit
    · rw [Mesh.declaredNormals, if_neg fun hall => hfit (hall.2.trans hall.1)]
      exact if_neg hfit

/-- The normals are those of the last section if it declares one for each vertex and is complete,
and the computed ones if not, with one exception: a section that declares more than there are
vertices and breaks off behind as many as there are is used as well. -/
theorem readStep_normals_origin {text : List Char} {m : Model} (h : readStep text = .ok m) :
    ∃ sections, stepSections text = .ok sections ∧
      (¬ m.mesh.IsSurplus (lastNormals sections) →
        m.mesh.normals = some (m.mesh.declaredNormals (lastNormals sections))) ∧
      (∀ declared points, lastNormals sections = some (declared, points) →
        m.mesh.vertices.size < declared → points.length = m.mesh.vertices.size →
        m.mesh.normals = some points.toArray) := by
  obtain ⟨sections, hsections, rfl⟩ := exists_stepSections h
  refine ⟨sections, hsections, fun hsurplus => ?_, fun declared points hlast _ hfit => ?_⟩
  · rw [normals_modelOfSections, givenNormals_eq_declaredNormals
      (fun _ _ => length_le_of_lastNormals hsections) hsurplus]
  · rw [normals_modelOfSections, hlast]
    exact congrArg some (if_pos hfit)

/-- Two sections with normals, of which the last one fits. -/
theorem readStep_normals_origin_repeated :
    ∃ m sections,
      readStep "WOODSHOP_STEP\nNORMALS 2 1 0\nVERTICES 1 0 0 0\nNORMALS 1 0 1 0\n".toList =
        .ok m ∧
      stepSections "WOODSHOP_STEP\nNORMALS 2 1 0\nVERTICES 1 0 0 0\nNORMALS 1 0 1 0\n".toList =
        .ok sections ∧
      m.mesh.vertices.size = 1 ∧
      (lastNormals sections).map (fun given => (given.1, given.2.length)) = some (1, 1) ∧
      m.mesh.normals = some (m.mesh.declaredNormals (lastNormals sections)) := by
  let text := "WOODSHOP_STEP\nNORMALS 2 1 0\nVERTICES 1 0 0 0\nNORMALS 1 0 1 0\n".toList
  have haccepted : (readStep text).toOption.map (·.mesh.vertices.size) = some 1 := by
    decide +kernel
  have hgiven : (stepSections text).toOption.map (fun sections =>
      (lastNormals sections).map fun given => (given.1, given.2.length)) = some (some (1, 1)) := by
    decide +kernel
  obtain ⟨m, hm, hsize⟩ := Option.map_eq_some_iff.mp haccepted
  have hread := eq_ok_of_toOption hm
  obtain ⟨sections, hsections, hfits, -⟩ := readStep_normals_origin hread
  have hlast : (lastNormals sections).map (fun given => (given.1, given.2.length)) =
      some (1, 1) := by
    rw [hsections] at hgiven
    exact Option.some.inj hgiven
  refine ⟨m, sections, hread, hsections, hsize, hlast, hfits ?_⟩
  rintro ⟨declared, points, hgivenLast, hmore, -⟩
  rw [hgivenLast] at hlast
  have hdeclared : declared = 1 := (Prod.mk.inj (Option.some.inj hlast)).1
  omega

/-- Four normals are declared for three vertices. Three are there, and they are used. -/
theorem surplus_declaration_keeps_normals :
    ∃ m sections, readStep ("WOODSHOP_STEP 1.1\nVERTICES 3\n0 0 0\n1 0 0\n0 1 0\n" ++
        "INDICES 1\n0 1 2\nNORMALS 4\n1 0 0\n1 0 0\n1 0 0\n").toList = .ok m ∧
      stepSections ("WOODSHOP_STEP 1.1\nVERTICES 3\n0 0 0\n1 0 0\n0 1 0\n" ++
        "INDICES 1\n0 1 2\nNORMALS 4\n1 0 0\n1 0 0\n1 0 0\n").toList = .ok sections ∧
      m.mesh.vertices.size = 3 ∧ (lastNormals sections).map Prod.fst = some 4 ∧
      m.mesh.normals ≠ some (m.mesh.declaredNormals (lastNormals sections)) := by
  let text := ("WOODSHOP_STEP 1.1\nVERTICES 3\n0 0 0\n1 0 0\n0 1 0\n" ++
    "INDICES 1\n0 1 2\nNORMALS 4\n1 0 0\n1 0 0\n1 0 0\n").toList
  -- The x components tell the given normals from the computed ones.
  let xs (normals : Array Point) : List UInt64 := normals.toList.map (·.x.toBits)
  have hmodel : (readStep text).toOption.map (fun m =>
      (m.mesh.vertices.size, m.mesh.normals.map xs, xs m.mesh.computeNormals)) =
        some (3, some (xs #[⟨1, 0, 0⟩, ⟨1, 0, 0⟩, ⟨1, 0, 0⟩]),
          xs #[⟨0, 0, 1⟩, ⟨0, 0, 1⟩, ⟨0, 0, 1⟩]) := by
    decide +kernel
  have hsections : (stepSections text).toOption.map
      (fun sections => (lastNormals sections).map Prod.fst) = some (some 4) := by
    decide +kernel
  obtain ⟨m, hm, hmesh⟩ := Option.map_eq_some_iff.mp hmodel
  obtain ⟨sections, hs, hlast⟩ := Option.map_eq_some_iff.mp hsections
  obtain ⟨hsize, hrest⟩ := Prod.mk.inj hmesh
  obtain ⟨hgiven, hcomputed⟩ := Prod.mk.inj hrest
  refine ⟨m, sections, eq_ok_of_toOption hm, eq_ok_of_toOption hs, hsize, hlast, ?_⟩
  obtain ⟨⟨declared, points⟩, hnormals, rfl⟩ := Option.map_eq_some_iff.mp hlast
  have hdeclared : m.mesh.declaredNormals (lastNormals sections) = m.mesh.computeNormals := by
    rw [hnormals, Mesh.declaredNormals, if_neg fun hall => absurd (hall.1.trans hsize) (by decide)]
  intro hsame
  rw [hdeclared] at hsame
  rw [hsame, Option.map_some, hcomputed] at hgiven
  exact absurd hgiven (by decide)

end Facet
