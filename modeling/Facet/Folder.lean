import Facet.FileName
import Facet.MeshDocument

namespace Facet

inductive Entry where
  | file (content : ByteArray)
  | folder

/-- A folder and all that is in it, by the parts of the paths that lead there. The newest entry for
a path counts. -/
structure Folder where
  entries : List (List (List Char) × Entry) := []

namespace Folder

def entry? (f : Folder) (place : List (List Char)) : Option Entry :=
  if place = [] then some .folder
  else (f.entries.find? (·.1 = place)).map Prod.snd

def isFolder (f : Folder) (place : List (List Char)) : Bool :=
  match f.entry? place with
  | some .folder => true
  | _ => false

/-- Whether a file or a folder can have this name. A name has at most 255 bytes and no NUL. -/
def isEntryName (part : List Char) : Bool :=
  !part.contains '\x00' && (String.ofList part).utf8ByteSize ≤ 255

/-- Follows the parts of a path from a place on. Every step has to start in a folder. -/
def follow? (f : Folder) (place : List (List Char)) : List (List Char) → Option (List (List Char))
  | [] => some place
  | part :: rest =>
    if f.isFolder place && isEntryName part then
      if part = ['.', '.'] then f.follow? place.dropLast rest
      else f.follow? (place ++ [part]) rest
    else none

/-- The place that a path to a file leads to. A path that ends in a slash or a dot leads to a
folder only, and one of more than 4095 bytes leads nowhere. -/
def filePlace? (f : Folder) (path : String) : Option (List (List Char)) :=
  if 4095 < path.utf8ByteSize then none
  else
    match (pieces '/' path.toList).getLast? with
    | some [] | some ['.'] => none
    | _ => f.follow? [] (pathParts path)

/-- The places that the parts of a path lead through from a place on. -/
def placesOn (place : List (List Char)) : List (List Char) → List (List (List Char))
  | [] => []
  | part :: rest =>
    let next := if part = ['.', '.'] then place.dropLast else place ++ [part]
    next :: placesOn next rest

def makeFolder (f : Folder) (path : String) : Folder :=
  ⟨(placesOn [] (pathParts path)).map (fun place => (place, .folder)) ++ f.entries⟩

/-- Puts a file in the place of whatever file was there. -/
def write (f : Folder) (path : String) (content : ByteArray) : Except MeshFileError Folder :=
  match f.filePlace? path with
  | none => .error (.unreachable path)
  | some place =>
    if f.isFolder place then .error (.unreachable path)
    else .ok ⟨(place, .file content) :: f.entries⟩

def read (f : Folder) (path : String) : Except MeshFileError String :=
  let content? := do
    let place ← f.filePlace? path
    match ← f.entry? place with
    | .file content => String.fromUTF8? content
    | .folder => none
  match content? with
  | some text => .ok text
  | none => .error (.unreachable path)

/-- Saves a model in the given format, whatever the file's name. -/
def saveAs (f : Folder) (format : MeshFormat) (path : String) (m : Model) :
    Except MeshFileError Folder :=
  f.write path (m.toText format).toUTF8

def loadAs (f : Folder) (format : MeshFormat) (path : String) : Except MeshFileError Model := do
  let text ← f.read path
  match Model.ofText format text with
  | .ok m => return m
  | .error e => throw (.document e)

def save (f : Folder) (path : String) (m : Model) : Except MeshFileError Folder := do
  f.saveAs (← formatOf path) path m

def load (f : Folder) (path : String) : Except MeshFileError Model := do
  f.loadAs (← formatOf path) path

end Folder

end Facet
