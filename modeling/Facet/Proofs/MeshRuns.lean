import Facet.Edit
import Facet.Proofs.IgesRecords
import Facet.Proofs.StepSections
import Facet.Proofs.StepWriting

namespace Facet

/-- Vertices, triangles and perhaps normals, of which nothing is promised. -/
structure MeshParts where
  vertices : Array Point
  triangles : Array Triangle
  normals : Option (Array Point) := none

def Mesh.parts (m : Mesh) : MeshParts :=
  ⟨m.vertices, m.triangles, m.normals⟩

namespace MeshParts

/-- There are no normals, or one for each vertex. -/
def Fits (d : MeshParts) : Prop :=
  ∀ ns, d.normals = some ns → ns.size = d.vertices.size

def computeNormals (d : MeshParts) : Array Point :=
  (Mesh.ofParts d.vertices d.triangles).computeNormals

/-- The changes that all meshes come from. Normals are looked at only when they are given. -/
inductive Change : MeshParts → MeshParts → Prop
  | replace (d : MeshParts) (vertices : Array Point) (triangles : Array Triangle) :
      Change d ⟨vertices, triangles, none⟩
  | addVertex (d : MeshParts) (p : Point) : Change d ⟨d.vertices.push p, d.triangles, none⟩
  | addTriangle (d : MeshParts) (t : Triangle) :
      Change d ⟨d.vertices, d.triangles.push t, d.normals⟩
  | setNormals (d : MeshParts) (ns : Array Point) (h : ns.size = d.vertices.size) :
      Change d ⟨d.vertices, d.triangles, some ns⟩
  | clearNormals (d : MeshParts) : Change d ⟨d.vertices, d.triangles, none⟩
  | recomputeNormals (d : MeshParts) :
      Change d ⟨d.vertices, d.triangles, some d.computeNormals⟩

/-- Finitely many changes, one after the other. -/
abbrev Changes : MeshParts → MeshParts → Prop :=
  Relation.ReflTransGen Change

theorem Change.fits {d e : MeshParts} (h : Change d e) (hd : d.Fits) : e.Fits := by
  intro ns hns
  cases h with
  | replace vertices triangles => cases hns
  | addVertex p => cases hns
  | addTriangle t => exact hd ns hns
  | setNormals given h =>
    cases Option.some.inj hns
    exact h
  | clearNormals => cases hns
  | recomputeNormals =>
    cases Option.some.inj hns
    exact Mesh.size_computeNormals _

theorem Changes.fits {d e : MeshParts} (h : Changes d e) (hd : d.Fits) : e.Fits := by
  induction h with
  | refl => exact hd
  | tail _ hchange ih => exact hchange.fits ih

end MeshParts

open MeshParts

namespace Mesh

/-- A mesh that changes lead to from any other, because the first of them replaces it. -/
def IsBuilt (m : Mesh) : Prop :=
  ∀ d, Changes d m.parts

theorem isBuilt_ofParts (vertices : Array Point) (triangles : Array Triangle) :
    (ofParts vertices triangles).IsBuilt :=
  fun d => .single (.replace d vertices triangles)

theorem IsBuilt.recomputeNormals {m : Mesh} (h : m.IsBuilt) : m.recomputeNormals.IsBuilt :=
  fun d => (h d).tail (.recomputeNormals m.parts)

theorem change_setNormals {m r : Mesh} {ns : Array Point} (h : m.setNormals ns = .ok r) :
    Change m.parts r.parts := by
  unfold setNormals at h
  split at h
  next hsize =>
    cases Except.ok.inj h
    exact .setNormals m.parts ns hsize
  next => cases h

theorem IsBuilt.setNormals {m r : Mesh} {ns : Array Point} (h : m.IsBuilt)
    (hset : m.setNormals ns = .ok r) : r.IsBuilt :=
  fun d => (h d).tail (change_setNormals hset)

theorem changes_ensureNormals (m : Mesh) : Changes m.parts m.ensureNormals.parts := by
  unfold ensureNormals
  split
  next => exact .refl
  next => exact .single (.recomputeNormals m.parts)

end Mesh

theorem isBuilt_tessellate (t : Tolerance) (solid : Solid) : (solid.tessellate t).IsBuilt := by
  cases solid with
  | unitSphere => exact (Mesh.isBuilt_ofParts _ _).recomputeNormals
  | cylinder radius height capped => exact (Mesh.isBuilt_ofParts _ _).recomputeNormals

theorem StepDraft.isBuilt_model (draft : StepDraft) : draft.model.mesh.IsBuilt := by
  let mesh := Mesh.ofParts draft.vertices.toArray draft.triangles.toArray
  have hmesh : mesh.IsBuilt := Mesh.isBuilt_ofParts _ _
  change ((draft.normals.bind fun ns => (mesh.setNormals ns.toArray).toOption).getD
    mesh.recomputeNormals).IsBuilt
  cases hgiven : draft.normals.bind fun ns => (mesh.setNormals ns.toArray).toOption with
  | none => exact hmesh.recomputeNormals
  | some given =>
    obtain ⟨ns, -, hset⟩ := Option.bind_eq_some_iff.mp hgiven
    exact hmesh.setNormals (eq_ok_of_toOption hset)

theorem isBuilt_ofText {format : MeshFormat} {text : String} {m : Model}
    (h : Model.ofText format text = .ok m) : m.mesh.IsBuilt := by
  cases format with
  | step =>
    obtain ⟨sections, -, rfl⟩ := exists_stepSections h
    exact StepDraft.isBuilt_model _
  | iges =>
    obtain ⟨draft, -, rfl⟩ := exists_igesDraft h
    exact Mesh.isBuilt_ofParts _ _

theorem Payload.isBuilt_mesh {p : Payload} {m : Mesh} (h : p.mesh = .ok m) : m.IsBuilt := by
  unfold Payload.mesh at h
  cases hparts : p.meshParts? with
  | none =>
    rw [hparts] at h
    cases h
  | some parts =>
    obtain ⟨vertices, triangles, normals⟩ := parts
    rw [hparts] at h
    have hbare := Mesh.isBuilt_ofParts vertices.toArray triangles.toArray
    cases normals with
    | none =>
      cases Except.ok.inj h
      exact hbare
    | some ns =>
      cases hset : (Mesh.ofParts vertices.toArray triangles.toArray).setNormals ns.toArray with
      | error e =>
        simp only [orMalformed, bind, Except.bind, hset] at h
        cases h
      | ok given =>
        simp only [orMalformed, bind, Except.bind, hset] at h
        cases Except.ok.inj h
        exact hbare.setNormals hset

/-- Every edit that can be made is a sequence of changes. -/
theorem Edit.changes_apply {m r : Model} {edit : Edit} (h : edit.apply m = .ok r) :
    Changes m.mesh.parts r.mesh.parts := by
  cases edit with
  | clear =>
    cases Except.ok.inj h
    exact Mesh.isBuilt_ofParts #[] #[] m.mesh.parts
  | rename name =>
    cases Except.ok.inj h
    exact .refl
  | replace vertices triangles =>
    cases Except.ok.inj h
    exact Mesh.isBuilt_ofParts vertices triangles m.mesh.parts
  | addVertex p =>
    cases Except.ok.inj h
    exact .single (.addVertex m.mesh.parts p)
  | addTriangle t =>
    cases Except.ok.inj h
    exact .single (.addTriangle m.mesh.parts t)
  | setNormals ns =>
    simp only [apply] at h
    split at h
    next given hset =>
      cases Except.ok.inj h
      exact .single (Mesh.change_setNormals hset)
    next => cases h
  | clearNormals =>
    cases Except.ok.inj h
    exact .single (.clearNormals m.mesh.parts)
  | recomputeNormals =>
    cases Except.ok.inj h
    exact .single (.recomputeNormals m.mesh.parts)
  | ensureNormals =>
    cases Except.ok.inj h
    exact m.mesh.changes_ensureNormals
  | receive payload =>
    simp only [apply] at h
    split at h
    next mesh hmesh =>
      cases Except.ok.inj h
      exact Payload.isBuilt_mesh hmesh m.mesh.parts
    next => cases h
  | tessellate solid tolerance =>
    cases Except.ok.inj h
    exact isBuilt_tessellate tolerance solid m.mesh.parts
  | read format text =>
    simp only [apply] at h
    split at h
    next found hread =>
      cases Except.ok.inj h
      exact isBuilt_ofText hread m.mesh.parts
    next => cases h
  | writeAndRead format =>
    simp only [apply] at h
    split at h
    next found hread =>
      cases Except.ok.inj h
      exact isBuilt_ofText hread m.mesh.parts
    next => cases h

theorem Edit.changes_step (m : Model) (edit : Edit) :
    Changes m.mesh.parts ((edit.apply m).toOption.getD m).mesh.parts := by
  cases h : edit.apply m with
  | error e => exact .refl
  | ok r => exact changes_apply h

theorem Edit.changes_run (m : Model) (edits : List Edit) :
    Changes m.mesh.parts (run m edits).mesh.parts := by
  induction edits generalizing m with
  | nil => exact .refl
  | cons edit edits ih => exact (changes_step m edit).trans (ih _)

theorem Edit.run_setNormals_of_ne {m : Model} {ns : Array Point}
    (h : ns.size ≠ m.mesh.vertices.size) :
    apply m (.setNormals ns) = .error (.normals ⟨ns.size, m.mesh.vertices.size⟩) ∧
      run m [.setNormals ns] = m := by
  have hfail : apply m (.setNormals ns) = .error (.normals ⟨ns.size, m.mesh.vertices.size⟩) := by
    simp only [apply, Mesh.setNormals, dif_neg h]
  refine ⟨hfail, ?_⟩
  rw [run, List.foldl_cons, hfail]
  rfl

theorem stepText_eq_append_normals (m : Model) :
    stepText m = stepText { m with mesh := m.mesh.clearNormals } ++ m.mesh.normalsText := by
  have hbare : m.mesh.clearNormals.normalsText = [] := rfl
  rw [stepText_eq, stepText_eq, Mesh.text, Mesh.text, hbare, List.append_nil]
  simp only [List.append_assoc, List.cons_append]
  rfl

/-- Where there is one normal for each vertex, the section says so and has a line for each. -/
theorem normalsText_of_fits {m : Mesh} (h : m.parts.Fits) {ns : Array Point}
    (hns : m.normals = some ns) :
    m.normalsText = line ("NORMALS ".toList ++ countText m.vertices.size) ++
      (ns.toList.map pointText).flatMap line := by
  have hsize : ns.toList.length = m.vertices.size := h ns hns
  rw [Mesh.normalsText_of_some hns hsize, sectionText, hsize, List.flatMap_map]
  simp [line, CountedSection.keyword]

theorem isSome_normals_iff_written {m : Model} (h : m.mesh.parts.Fits) :
    m.mesh.normals.isSome = true ↔
      ∃ rows : List (List Char), rows.length = m.mesh.vertices.size ∧
        stepText m = stepText { m with mesh := m.mesh.clearNormals } ++
          (line ("NORMALS ".toList ++ countText m.mesh.vertices.size) ++ rows.flatMap line) := by
  constructor
  · intro hsome
    obtain ⟨ns, hns⟩ := Option.isSome_iff_exists.mp hsome
    refine ⟨ns.toList.map pointText, ?_, ?_⟩
    · rw [List.length_map]
      exact h ns hns
    · rw [stepText_eq_append_normals, normalsText_of_fits h hns]
  · rintro ⟨rows, -, htext⟩
    rw [stepText_eq_append_normals m] at htext
    have hsection := List.append_cancel_left htext
    by_contra hnone
    rw [Mesh.normalsText_of_none (Option.not_isSome_iff_eq_none.mp hnone)] at hsection
    simp [line] at hsection

/-- However a mesh has come about, it has no normals or one for each vertex. Normals that do not fit
are refused and change nothing. A STEP document has a section for normals, with a line for each
vertex, exactly when there are some. -/
theorem normals_fit_in_every_run (edits : List Edit) :
    let m := Edit.run Model.empty edits
    Changes Model.empty.mesh.parts m.mesh.parts ∧
      (m.mesh.normals = none ∨ ∃ ns, m.mesh.normals = some ns ∧ ns.size = m.mesh.vertices.size) ∧
      (∀ ns, ns.size ≠ m.mesh.vertices.size →
        Edit.apply m (.setNormals ns) = .error (.normals ⟨ns.size, m.mesh.vertices.size⟩) ∧
        Edit.run m [.setNormals ns] = m) ∧
      (m.mesh.normals.isSome = true ↔
        ∃ rows : List (List Char), rows.length = m.mesh.vertices.size ∧
          stepText m = stepText { m with mesh := m.mesh.clearNormals } ++
            (line ("NORMALS ".toList ++ countText m.mesh.vertices.size) ++ rows.flatMap line)) := by
  intro m
  have hchanges := Edit.changes_run Model.empty edits
  have hfits : m.mesh.parts.Fits := hchanges.fits fun ns hns => nomatch hns
  refine ⟨hchanges, ?_, fun ns => Edit.run_setNormals_of_ne, isSome_normals_iff_written hfits⟩
  cases hnormals : m.mesh.normals with
  | none => exact Or.inl rfl
  | some ns => exact Or.inr ⟨ns, rfl, hfits ns hnormals⟩

/-- A vertex with its normal: normals for no vertex are refused, and the document keeps the one. -/
theorem normals_fit_in_every_run_refused :
    let m := Edit.run Model.empty [.addVertex Point.zero, .setNormals #[Point.up]]
    m.mesh.vertices = #[Point.zero] ∧ m.mesh.normals = some #[Point.up] ∧
      Edit.apply m (.setNormals #[]) = .error (.normals ⟨0, 1⟩) ∧
      Edit.run m [.setNormals #[]] = m ∧
      ∃ rows : List (List Char), rows.length = 1 ∧
        stepText m = stepText { m with mesh := m.mesh.clearNormals } ++
          (line ("NORMALS ".toList ++ countText 1) ++ rows.flatMap line) := by
  intro m
  obtain ⟨-, -, hrefused, hwritten⟩ :=
    normals_fit_in_every_run [.addVertex Point.zero, .setNormals #[Point.up]]
  obtain ⟨hfail, hkept⟩ := hrefused #[] (by decide)
  exact ⟨rfl, rfl, hfail, hkept, hwritten.mp rfl⟩

end Facet
