import Facet.Proofs.StepWriting

namespace Facet

namespace StepBlock

def name? : StepBlock → Option (List Char)
  | name tail => some (trim tail.text)
  | _ => none

def vertices? : StepBlock → Option (List Point)
  | vertices body => some (body.records.map Triple.point)
  | _ => none

def triangles? : StepBlock → Option (List Triangle)
  | indices body => some (body.records.map Triple.triangle)
  | _ => none

def normals? : StepBlock → Option (List Point)
  | normals body => some (body.records.map Triple.point)
  | _ => none

end StepBlock

/-- The last thing of its kind that a document says. -/
def lastOf {α : Type} (kind : StepBlock → Option α) (blocks : List StepBlock) : Option α :=
  (blocks.filterMap kind).getLast?

def draftOfBlocks (blocks : List StepBlock) : StepDraft where
  name := (lastOf StepBlock.name? blocks).getD []
  vertices := (lastOf StepBlock.vertices? blocks).getD []
  triangles := (lastOf StepBlock.triangles? blocks).getD []
  normals := lastOf StepBlock.normals? blocks

/-- The normals that are given, if there is one for each vertex, and the computed ones if not. -/
def Mesh.givenNormals (m : Mesh) (given : Option (List Point)) : Array Point :=
  match given with
  | some ns => if ns.length = m.vertices.size then ns.toArray else m.computeNormals
  | none => m.computeNormals

/-- Where each step replaces what it says something about, a fold keeps the last thing said. -/
theorem foldl_eq_last {σ ι α β : Type} {step : σ → ι → σ} (get : σ → β) (kind : ι → Option α)
    (f : α → β) (hstep : ∀ state item, get (step state item) = ((kind item).map f).getD (get state))
    (items : List ι) (state : σ) :
    get (items.foldl step state) = ((items.filterMap kind).getLast?.map f).getD (get state) := by
  induction items using List.reverseRecOn with
  | nil => rfl
  | append_singleton items item ih =>
    rw [List.foldl_append, List.foldl_cons, List.foldl_nil, hstep, ih, List.filterMap_append]
    cases hk : kind item with
    | none => simp [hk]
    | some a => simp [hk]

/-- A part of the draft that one kind of block replaces is that of the last such block. -/
theorem foldl_put_sections {α β : Type} (get : StepDraft → β) (kind : StepBlock → Option α)
    (f : α → β)
    (hput : ∀ block draft, get (block.sections.foldl StepDraft.put draft) =
      ((kind block).map f).getD (get draft))
    (blocks : List StepBlock) (draft : StepDraft) :
    get ((blocks.flatMap StepBlock.sections).foldl StepDraft.put draft) =
      ((lastOf kind blocks).map f).getD (get draft) := by
  rw [List.foldl_flatMap]
  exact foldl_eq_last get kind f (fun draft block => hput block draft) blocks draft

theorem foldl_put_blocks (blocks : List StepBlock) :
    (blocks.flatMap StepBlock.sections).foldl StepDraft.put {} = draftOfBlocks blocks := by
  have hname := foldl_put_sections StepDraft.name StepBlock.name? id
    (by intro block draft; cases block <;> rfl) blocks {}
  have hvertices := foldl_put_sections StepDraft.vertices StepBlock.vertices? id
    (by intro block draft; cases block <;> rfl) blocks {}
  have htriangles := foldl_put_sections StepDraft.triangles StepBlock.triangles? id
    (by intro block draft; cases block <;> rfl) blocks {}
  have hnormals := foldl_put_sections StepDraft.normals StepBlock.normals? some
    (by intro block draft; cases block <;> rfl) blocks {}
  rw [Option.map_id] at hname hvertices htriangles
  have hgiven : ((lastOf StepBlock.normals? blocks).map some).getD none =
      lastOf StepBlock.normals? blocks := by
    cases lastOf StepBlock.normals? blocks <;> rfl
  cases hdraft : (blocks.flatMap StepBlock.sections).foldl StepDraft.put {} with
  | mk name vertices triangles normals =>
    simp only [hdraft] at hname hvertices htriangles hnormals
    rw [hname, hvertices, htriangles, hnormals, hgiven]
    rfl

theorem StepDraft.model_normals (draft : StepDraft) :
    draft.model.mesh.normals =
      some ((Mesh.ofParts draft.vertices.toArray draft.triangles.toArray).givenNormals
        draft.normals) := by
  cases hnormals : draft.normals with
  | none => simp [model, hnormals, Mesh.givenNormals, Mesh.recomputeNormals]
  | some ns =>
    by_cases hfit : ns.length = draft.vertices.length
    · simp [model, hnormals, Mesh.givenNormals, Mesh.setNormals, Mesh.ofParts, hfit,
        Except.toOption]
    · simp [model, hnormals, Mesh.givenNormals, Mesh.setNormals, Mesh.ofParts, hfit,
        Except.toOption, Mesh.recomputeNormals]

theorem StepDraft.model_parts (draft : StepDraft) :
    draft.model.name = String.ofList draft.name ∧
      draft.model.mesh.vertices = draft.vertices.toArray ∧
      draft.model.mesh.triangles = draft.triangles.toArray := by
  refine ⟨rfl, ?_⟩
  cases hnormals : draft.normals with
  | none => simp [model, hnormals, Mesh.recomputeNormals, Mesh.ofParts]
  | some ns =>
    by_cases hfit : ns.length = draft.vertices.length
    · simp [model, hnormals, Mesh.setNormals, Mesh.ofParts, hfit, Except.toOption]
    · simp [model, hnormals, Mesh.setNormals, Mesh.ofParts, hfit, Except.toOption,
        Mesh.recomputeNormals]

theorem readStep_document (header : StepHeader) (blocks : List StepBlock) :
    readStep (header.text ++ '\n' :: blocks.flatMap StepBlock.text) =
      .ok (draftOfBlocks blocks).model := by
  rw [readStep_header_append, readSections_blocks]
  exact congrArg (fun draft => Except.ok (StepDraft.model draft)) (foldl_put_blocks blocks)

/-- A STEP document says what its last blocks of each kind say, in whatever order and with whatever
blank space they are written. -/
theorem readStep_last_blocks (header : StepHeader) (blocks : List StepBlock) :
    (∃ m, readStep (header.text ++ '\n' :: blocks.flatMap StepBlock.text) = .ok m ∧
      m.name = String.ofList ((lastOf StepBlock.name? blocks).getD []) ∧
      m.mesh.vertices = ((lastOf StepBlock.vertices? blocks).getD []).toArray ∧
      m.mesh.triangles = ((lastOf StepBlock.triangles? blocks).getD []).toArray ∧
      m.mesh.normals =
        some ((Mesh.ofParts m.mesh.vertices m.mesh.triangles).givenNormals
          (lastOf StepBlock.normals? blocks))) ∧
      (∀ (other : StepHeader) (others : List StepBlock),
        lastOf StepBlock.name? others = lastOf StepBlock.name? blocks →
        lastOf StepBlock.vertices? others = lastOf StepBlock.vertices? blocks →
        lastOf StepBlock.triangles? others = lastOf StepBlock.triangles? blocks →
        lastOf StepBlock.normals? others = lastOf StepBlock.normals? blocks →
        readStep (other.text ++ '\n' :: others.flatMap StepBlock.text) =
          readStep (header.text ++ '\n' :: blocks.flatMap StepBlock.text)) ∧
      readStep header.text = readStep (header.text ++ ['\n']) := by
  refine ⟨⟨(draftOfBlocks blocks).model, readStep_document header blocks, ?_⟩, ?_, ?_⟩
  · obtain ⟨hname, hvertices, htriangles⟩ := (draftOfBlocks blocks).model_parts
    refine ⟨hname, hvertices, htriangles, ?_⟩
    rw [StepDraft.model_normals, hvertices, htriangles]
    rfl
  · intro other others hname hvertices htriangles hnormals
    rw [readStep_document, readStep_document, draftOfBlocks, hname, hvertices, htriangles, hnormals]
    rfl
  · rw [readStep_header]
    exact (readStep_document header []).symm

theorem readStep_last_blocks_reordered :
    readStep "WOODSHOP_STEP\nUNITS mm\n\t\nNAME y\nVERTICES 1\n0 0\n0 NAME x \n".toList =
      readStep "WOODSHOP_STEP 1.1\nNAME x\nVERTICES 1\n0 0 0\n".toList := by
  let origin : Triple readFloat := ⟨.float 0 .space, .float 0 .feed, .float 0 .space⟩
  let count : Field (readCount countLimit) := .count (show 1 ≤ countLimit by decide) .feed
  exact (readStep_last_blocks .written
    [.name ⟨" x".toList, by decide, by decide⟩,
      .vertices ⟨.space, count, [.ofPoint ⟨0, 0, 0⟩], rfl⟩]).2.1
    ⟨[], ⟨[], by decide, by decide⟩, isBlanks_nil⟩
    [.unknown "UNITS".toList (by decide) (by decide) ⟨" mm".toList, by decide, by decide⟩,
      .blank ⟨['\t', '\n'], by decide, by decide⟩,
      .name ⟨" y".toList, by decide, by decide⟩,
      .vertices ⟨.space, count, [origin], rfl⟩,
      .name ⟨" x ".toList, by decide, by decide⟩]
    rfl rfl rfl rfl

end Facet
