import Facet.MeshFileError
import Facet.Model
import Facet.Records

namespace Facet

/-- What a word at the start of a section announces. -/
inductive StepKeyword where
  | name
  | counted (part : CountedSection)
  | unknown
deriving DecidableEq

def StepKeyword.ofWord (word : List Char) : StepKeyword :=
  if word = "NAME".toList then name
  else if word = CountedSection.vertices.keyword.toList then counted .vertices
  else if word = CountedSection.indices.keyword.toList then counted .indices
  else if word = CountedSection.normals.keyword.toList then counted .normals
  else unknown

/-- One section of a STEP document. Normals may be fewer than were declared. -/
inductive StepSection where
  | name (text : List Char)
  | vertices (points : List Point)
  | indices (triangles : List Triangle)
  | normals (declared : Nat) (points : List Point)
  | unknown (keyword : List Char)

/-- The largest count that a document or a message can hold. -/
def countLimit : Nat := 0xffffffffffffffff

def readSectionCount (part : CountedSection) (text : List Char) :
    Except DocumentError (Nat × List Char) :=
  let (word, rest) := (nextWord? text).getD ([], [])
  match readCount countLimit word with
  | none => .error (.badCount part (String.ofList word))
  | some count => .ok (count, rest)

/-- Reads the declared records of a section. Vertices and triangles have to be complete, and a
triangle counts as three values. -/
def readSectionRecords (part : CountedSection) (count : Nat) (text : List Char) :
    Except DocumentError (StepSection × List Char) :=
  match part with
  | .vertices =>
    let (points, rest) := readRecords readPoint count text
    if points.length = count then .ok (.vertices points, rest)
    else .error (.shortSection part count points.length)
  | .indices =>
    let (triangles, rest) := readRecords readTriangle count text
    if triangles.length = count then .ok (.indices triangles, rest)
    else .error (.shortSection part (min (3 * count) countLimit) (3 * triangles.length))
  | .normals =>
    let (points, rest) := readRecords readPoint count text
    .ok (.normals count points, rest)

def readSection (word text : List Char) : Except DocumentError (StepSection × List Char) :=
  match StepKeyword.ofWord word with
  | .name => .ok (.name (trim (splitLine text).1), (splitLine text).2)
  | .unknown => .ok (.unknown word, (splitLine text).2)
  | .counted part =>
    match readSectionCount part text with
    | .error e => .error e
    | .ok (count, rest) => readSectionRecords part count rest

theorem readPoint_length_lt {text rest : List Char} {p : Point}
    (h : readPoint text = some (p, rest)) : rest.length < text.length :=
  readTriple_length_lt (readPoint_eq_some h)

theorem readTriangle_length_lt {text rest : List Char} {t : Triangle}
    (h : readTriangle text = some (t, rest)) : rest.length < text.length :=
  readTriple_length_lt (readTriangle_eq_some h)

theorem readPoints_length_le (n : Nat) (text : List Char) :
    (readRecords readPoint n text).2.length ≤ text.length :=
  readRecords_length_le (fun _ _ _ h => readPoint_length_lt h) n text

theorem readTriangles_length_le (n : Nat) (text : List Char) :
    (readRecords readTriangle n text).2.length ≤ text.length :=
  readRecords_length_le (fun _ _ _ h => readTriangle_length_lt h) n text

theorem readSectionCount_length_le {part : CountedSection} {text rest : List Char} {count : Nat}
    (h : readSectionCount part text = .ok (count, rest)) : rest.length ≤ text.length := by
  unfold readSectionCount at h
  cases hw : nextWord? text with
  | none =>
    simp only [hw, Option.getD_none] at h
    split at h
    next => cases h
    next =>
      cases Except.ok.inj h
      exact Nat.zero_le _
  | some next =>
    obtain ⟨word, after⟩ := next
    simp only [hw, Option.getD_some] at h
    split at h
    next => cases h
    next =>
      cases Except.ok.inj h
      exact Nat.le_of_lt (nextWord?_length_lt hw)

theorem readSectionRecords_length_le {part : CountedSection} {count : Nat}
    {text rest : List Char} {found : StepSection}
    (h : readSectionRecords part count text = .ok (found, rest)) :
    rest.length ≤ text.length := by
  have hpoints := readPoints_length_le count text
  have htriangles := readTriangles_length_le count text
  cases part with
  | vertices =>
    simp only [readSectionRecords] at h
    split at h
    next =>
      cases Except.ok.inj h
      exact hpoints
    next => cases h
  | indices =>
    simp only [readSectionRecords] at h
    split at h
    next =>
      cases Except.ok.inj h
      exact htriangles
    next => cases h
  | normals =>
    cases Except.ok.inj h
    exact hpoints

theorem readSection_length_le {word text rest : List Char} {found : StepSection}
    (h : readSection word text = .ok (found, rest)) : rest.length ≤ text.length := by
  unfold readSection at h
  split at h
  next =>
    cases Except.ok.inj h
    exact splitLine_length_le text
  next =>
    cases Except.ok.inj h
    exact splitLine_length_le text
  next part _ =>
    split at h
    next => cases h
    next count records hcount =>
      have := readSectionCount_length_le hcount
      have := readSectionRecords_length_le h
      omega

/-- Reads sections up to the end of the text, in whatever order they come. -/
def readSections (text : List Char) : Except DocumentError (List StepSection) :=
  match _hw : nextWord? text with
  | none => .ok []
  | some (word, rest) =>
    match _hs : readSection word rest with
    | .error e => .error e
    | .ok (found, after) => (readSections after).map (found :: ·)
termination_by text.length
decreasing_by
  have := nextWord?_length_lt _hw
  have := readSection_length_le _hs
  omega

/-- What the sections of a document add up to. -/
structure StepDraft where
  name : List Char := []
  vertices : List Point := []
  triangles : List Triangle := []
  normals : Option (List Point) := none

/-- A section takes the place of an earlier one of its kind. -/
def StepDraft.put (draft : StepDraft) : StepSection → StepDraft
  | .name text => { draft with name := text }
  | .vertices points => { draft with vertices := points }
  | .indices triangles => { draft with triangles := triangles }
  | .normals _ points => { draft with normals := some points }
  | .unknown _ => draft

/-- The model of a complete draft. Normals that do not fit the vertices are computed afresh. -/
def StepDraft.model (draft : StepDraft) : Model :=
  let mesh := Mesh.ofParts draft.vertices.toArray draft.triangles.toArray
  let given := draft.normals.bind fun ns => (mesh.setNormals ns.toArray).toOption
  ⟨String.ofList draft.name, given.getD mesh.recomputeNormals⟩

def modelOfSections (sections : List StepSection) : Model :=
  (sections.foldl StepDraft.put {}).model

/-- Reads a STEP document. What follows the magic word on its line is not looked at. -/
def readStep (text : List Char) : Except DocumentError Model :=
  let (word, rest) := (nextWord? text).getD ([], [])
  if word = stepMagic.toList then (readSections (splitLine rest).2).map modelOfSections
  else .error (.noMagic (String.ofList word))

def sectionText {α : Type} (part : CountedSection) (recordText : α → List Char)
    (records : List α) : List Char :=
  line (part.keyword.toList ++ ' ' :: countText records.length) ++
    records.flatMap fun record => line (recordText record)

def stepVersion : String := "1.1"

/-- The section for the normals, if there are some and one for each vertex. -/
def Mesh.normalsText (m : Mesh) : List Char :=
  match m.normals.filter fun ns => ns.size = m.vertices.size with
  | none => []
  | some ns => sectionText .normals pointText ns.toList

theorem Mesh.normalsText_of_none {m : Mesh} (h : m.normals = none) : m.normalsText = [] := by
  rw [normalsText, h]
  rfl

theorem Mesh.normalsText_of_some {m : Mesh} {ns : Array Point} (h : m.normals = some ns)
    (hsize : ns.size = m.vertices.size) :
    m.normalsText = sectionText .normals pointText ns.toList := by
  rw [normalsText, h, Option.filter_some, if_pos (decide_eq_true hsize)]

def stepText (m : Model) : List Char :=
  line (stepMagic.toList ++ ' ' :: stepVersion.toList) ++
    line ("NAME ".toList ++ m.name.toList) ++
    sectionText .vertices pointText m.mesh.vertices.toList ++
    sectionText .indices triangleText m.mesh.triangles.toList ++ m.mesh.normalsText

end Facet
