import Facet.MeshFileError
import Facet.Model
import Facet.Records

namespace Facet

def igesTerminator : String := "END-IGES"

inductive IgesLine where
  | name (name : List Char)
  | vertex (p : Point)
  | face (t : Triangle)
  | malformed (kind : RecordKind)
  | other

/-- Reads a trimmed line. Words behind the third number of a record are not looked at. -/
def IgesLine.ofText (text : List Char) : IgesLine :=
  match "MODEL ".toList.isPrefixOf? text with
  | some rest => name rest
  | none =>
    match "VERTEX ".toList.isPrefixOf? text with
    | some rest =>
      match readPoint rest with
      | some (p, _) => vertex p
      | none => malformed .vertex
    | none =>
      match "FACE ".toList.isPrefixOf? text with
      | some rest =>
        match readTriangle rest with
        | some (t, _) => face t
        | none => malformed .face
      | none => other

/-- What has been read so far, the last record first. -/
structure IgesDraft where
  name : List Char := []
  vertices : List Point := []
  triangles : List Triangle := []

/-- Reads lines up to the end or the terminator. `number` is the number of the next line. -/
def readIgesLines (draft : IgesDraft) (number : Nat) :
    List (List Char) → Except DocumentError IgesDraft
  | [] => .ok draft
  | text :: rest =>
    let text := trim text
    if text = igesTerminator.toList then .ok draft
    else match IgesLine.ofText text with
      | .name name => readIgesLines { draft with name := name } (number + 1) rest
      | .vertex p =>
        readIgesLines { draft with vertices := p :: draft.vertices } (number + 1) rest
      | .face t =>
        readIgesLines { draft with triangles := t :: draft.triangles } (number + 1) rest
      | .malformed kind => .error (.badRecord kind number)
      | .other => readIgesLines draft (number + 1) rest

def IgesDraft.model (draft : IgesDraft) : Except DocumentError Model :=
  if draft.vertices = [] ∨ draft.triangles = [] then
    .error (.missingGeometry draft.vertices.length draft.triangles.length)
  else
    .ok ⟨String.ofList draft.name,
      Mesh.ofParts draft.vertices.reverse.toArray draft.triangles.reverse.toArray⟩

def readIges (text : List Char) : Except DocumentError Model :=
  let header := trim ((lines text).headD [])
  if header = igesHeader.toList then do
    let draft ← readIgesLines {} 2 (lines text).tail
    draft.model
  else .error (.noHeader (String.ofList header))

def igesText (m : Model) : List Char :=
  line igesHeader.toList ++
    line ("MODEL ".toList ++ m.name.toList) ++
    (m.mesh.vertices.toList.flatMap fun p => line ("VERTEX ".toList ++ pointText p)) ++
    (m.mesh.triangles.toList.flatMap fun t => line ("FACE ".toList ++ triangleText t)) ++
    line igesTerminator.toList

end Facet
