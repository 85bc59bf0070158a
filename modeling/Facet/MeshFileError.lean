import Facet.Quoted

namespace Facet

inductive MeshFormat where
  | step
  | iges
deriving DecidableEq

namespace MeshFormat

def name : MeshFormat → String
  | step => "STEP"
  | iges => "IGES"

/-- The ending of a file's name that is preferred for the format. -/
def extension : MeshFormat → String
  | step => "stp"
  | iges => "igs"

end MeshFormat

/-- The parts of a STEP document that state how many records they hold. -/
inductive CountedSection where
  | vertices
  | indices
  | normals
deriving DecidableEq

def CountedSection.keyword : CountedSection → String
  | vertices => "VERTICES"
  | indices => "INDICES"
  | normals => "NORMALS"

/-- The lines of an IGES document that hold three numbers. -/
inductive RecordKind where
  | vertex
  | face
deriving DecidableEq

def RecordKind.keyword : RecordKind → String
  | vertex => "VERTEX"
  | face => "FACE"

def stepMagic : String := "WOODSHOP_STEP"

def igesHeader : String := "WOODSHOP_IGES 1.0"

inductive DocumentError where
  | noMagic (found : String)
  | badCount (part : CountedSection) (found : String)
  | shortSection (part : CountedSection) (declared parsed : Nat)
  | noHeader (found : String)
  | badRecord (kind : RecordKind) (line : Nat)
  | missingGeometry (vertices faces : Nat)
deriving DecidableEq

def invalidFile (format : MeshFormat) (cause : String) : String :=
  s!"invalid {format.name} file: {cause}"

def DocumentError.message : DocumentError → String
  | noMagic found =>
    invalidFile .step s!"expected {stepMagic} token, found {quoted found}"
  | badCount part found =>
    invalidFile .step s!"invalid {part.keyword} count {quoted found}"
  | shortSection part declared parsed =>
    s!"{part.keyword} declares {declared} values but {parsed} were parsed"
  | noHeader found =>
    invalidFile .iges s!"expected header {quoted igesHeader}, found {quoted found}"
  | badRecord kind line =>
    invalidFile .iges s!"malformed {kind.keyword} record on line {line}"
  | missingGeometry vertices faces =>
    s!"missing geometry: {vertices} vertices, {faces} faces"

inductive MeshFileError where
  | document (cause : DocumentError)
  | unknownFormat (extension : Option String)
  | unreachable (path : String)
deriving DecidableEq

def MeshFileError.message : MeshFileError → String
  | document cause => cause.message
  | unknownFormat extension =>
    let shown := extension.getD "(none)"
    s!"unknown file format: .{shown}"
  | unreachable path => s!"I/O error on {path}"

end Facet
