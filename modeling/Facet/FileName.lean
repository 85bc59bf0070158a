import Facet.MeshFileError
import Facet.Words

namespace Facet

/-- The parts of a path that lead somewhere: neither empty nor a single dot. -/
def pathParts (path : String) : List (List Char) :=
  (pieces '/' path.toList).filter fun part => part != [] && part != ['.']

/-- What follows the last dot of a file's name. A name that begins with its only dot has no
extension. -/
def nameExtension? (name : List Char) : Option (List Char) :=
  let after := name.reverse.takeWhile (· != '.')
  match name.reverse.drop after.length with
  | '.' :: _ :: _ => some after.reverse
  | _ => none

/-- The extension of the last part of a path. The way up has none. -/
def extension? (path : String) : Option (List Char) :=
  match (pathParts path).getLast? with
  | none => none
  | some name => if name = ['.', '.'] then none else nameExtension? name

/-- The format that the extension tells, whatever the case of its letters. No letter outside ASCII
has one of these as its lower case. -/
def MeshFormat.ofExtension? (extension : List Char) : Option MeshFormat :=
  let lowered := extension.map Char.toLower
  if lowered = "stp".toList ∨ lowered = "step".toList then some step
  else if lowered = "igs".toList ∨ lowered = "iges".toList then some iges
  else none

def MeshFormat.ofPath? (path : String) : Option MeshFormat :=
  (extension? path).bind MeshFormat.ofExtension?

def formatOf (path : String) : Except MeshFileError MeshFormat :=
  match MeshFormat.ofPath? path with
  | some format => .ok format
  | none => .error (.unknownFormat ((extension? path).map String.ofList))

end Facet
