import Facet.MeshDocument
import Facet.PayloadForm

namespace Facet

inductive Edit where
  | clear
  | rename (name : String)
  | replace (vertices : Array Point) (triangles : Array Triangle)
  | addVertex (p : Point)
  | addTriangle (t : Triangle)
  | setNormals (ns : Array Point)
  | clearNormals
  | recomputeNormals
  | ensureNormals
  | receive (payload : Payload)
  | tessellate (solid : Solid) (tolerance : Tolerance)
  | read (format : MeshFormat) (text : String)
  | writeAndRead (format : MeshFormat)

inductive EditError where
  | normals (cause : NormalCountMismatch)
  | document (cause : DocumentError)
  | payload (cause : PayloadError)
deriving DecidableEq

namespace Edit

def apply (m : Model) : Edit → Except EditError Model
  | clear => .ok { m with mesh := Mesh.empty }
  | rename name => .ok { m with name := name }
  | replace vertices triangles => .ok { m with mesh := Mesh.ofParts vertices triangles }
  | addVertex p => .ok { m with mesh := (m.mesh.addVertex p).2 }
  | addTriangle t => .ok { m with mesh := m.mesh.addTriangle t }
  | setNormals ns =>
    match m.mesh.setNormals ns with
    | .ok mesh => .ok { m with mesh := mesh }
    | .error e => .error (.normals e)
  | clearNormals => .ok { m with mesh := m.mesh.clearNormals }
  | recomputeNormals => .ok { m with mesh := m.mesh.recomputeNormals }
  | ensureNormals => .ok m.ensureNormals
  | receive payload =>
    match payload.mesh with
    | .ok mesh => .ok { m with mesh := mesh }
    | .error e => .error (.payload e)
  | tessellate solid tolerance => .ok { m with mesh := solid.tessellate tolerance }
  | read format text =>
    match Model.ofText format text with
    | .ok model => .ok model
    | .error e => .error (.document e)
  | writeAndRead format =>
    match Model.ofText format (m.toText format) with
    | .ok model => .ok model
    | .error e => .error (.document e)

/-- The model after all steps. One that cannot be taken changes nothing. -/
def run (m : Model) (edits : List Edit) : Model :=
  edits.foldl (fun m edit => (apply m edit).toOption.getD m) m

end Edit

end Facet
