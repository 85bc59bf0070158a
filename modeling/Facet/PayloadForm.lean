import Facet.Model
import Facet.Payload
import Facet.Solid

namespace Facet

inductive PayloadError where
  | malformed
  | normals (cause : NormalCountMismatch)
deriving DecidableEq

namespace Payload

def orMalformed {α : Type} (value : Option α) : Except PayloadError α :=
  match value with
  | some v => .ok v
  | none => .error .malformed

def float? : Payload → Option Float
  | number text => readFloat text
  | _ => none

/-- A whole number that is written without a sign, a fraction and an exponent. -/
def count? (limit : Nat) : Payload → Option Nat
  | number text => if text.all Char.isDigit then readCount limit text else none
  | _ => none

def word32? (p : Payload) : Option UInt32 :=
  (p.count? 0xffffffff).map UInt32.ofNat

def string? : Payload → Option String
  | string text => some text
  | _ => none

def bool? : Payload → Option Bool
  | bool value => some value
  | _ => none

def listOf? {α : Type} (item? : Payload → Option α) : Payload → Option (List α)
  | list items => items.mapM item?
  | _ => none

def point? : Payload → Option Point
  | list [x, y, z] => do return ⟨← x.float?, ← y.float?, ← z.float?⟩
  | _ => none

def triangle? : Payload → Option Triangle
  | list [a, b, c] => do return ⟨← a.word32?, ← b.word32?, ← c.word32?⟩
  | _ => none

/-- The fields with these names in order. A list may hold their values alone, of which all but the
first `required` may be missing at the end. -/
def fieldsOf? (names : List String) (required : Nat) : Payload → Option (List (Option Payload))
  | record fields => some (names.map (field? fields))
  | list items =>
    if required ≤ items.length ∧ items.length ≤ names.length then
      some (items.map some ++ List.replicate (names.length - items.length) none)
    else none
  | _ => none

def orDefault {α : Type} (default : α) (read? : Payload → Option α) : Option Payload → Option α
  | none => some default
  | some p => read? p

/-- A tolerance, in which a missing field takes its default. -/
def tolerance? (p : Payload) : Option Tolerance := do
  let default : Tolerance := {}
  match ← p.fieldsOf? ["linearDeflection", "angularDeflectionDeg", "minSegments", "maxSegments"] 0
  with
  | [linear, angular, least, most] =>
    return {
      linear := ← orDefault default.linear float? linear
      angularDegrees := ← orDefault default.angularDegrees float? angular
      minSegments := ← orDefault default.minSegments word32? least
      maxSegments := ← orDefault default.maxSegments word32? most }
  | _ => none

/-- A solid: a record whose `kind` tells which, or a list that begins with the kind. -/
def solid? : Payload → Option Solid
  | record fields => do
    match ← (← field? fields "kind").string? with
    | "unitSphere" => return .unitSphere
    | "cylinder" =>
      let radius ← (← field? fields "radius").float?
      let height ← (← field? fields "height").float?
      let capped ← (← field? fields "capped").bool?
      return .cylinder radius height capped
    | _ => none
  | list [string "unitSphere"] => some .unitSphere
  | list [string "cylinder", radius, height, capped] => do
    return .cylinder (← radius.float?) (← height.float?) (← capped.bool?)
  | _ => none

def box? (p : Payload) : Option (Box Float) := do
  match ← p.fieldsOf? ["min", "max"] 2 with
  | [some min, some max] => return ⟨← min.point?, ← max.point?⟩
  | _ => none

def summary? (p : Payload) : Option Summary := do
  match ← p.fieldsOf? ["vertexCount", "triangleCount", "surfaceArea", "boundingBox"] 4 with
  | [some vertices, some triangles, some area, some box] =>
    return {
      vertexCount := ← vertices.count? 0xffffffffffffffff
      triangleCount := ← triangles.count? 0xffffffffffffffff
      surfaceArea := ← area.float?
      boundingBox := ← box.box? }
  | _ => none

/-- The parts of a mesh as they are sent. Normals may be missing or null. -/
def meshParts? (p : Payload) : Option (List Point × List Triangle × Option (List Point)) := do
  match ← p.fieldsOf? ["vertices", "triangles", "normals"] 2 with
  | [some vertices, some triangles, normals] =>
    let vertices ← vertices.listOf? point?
    let triangles ← triangles.listOf? triangle?
    let normals ← match normals with
      | none => some none
      | some null => some none
      | some ns => (ns.listOf? point?).map some
    return (vertices, triangles, normals)
  | _ => none

/-- A mesh. Normals that do not fit the vertices are an error of their own. -/
def mesh (p : Payload) : Except PayloadError Mesh := do
  let (vertices, triangles, normals) ← orMalformed p.meshParts?
  let bare := Mesh.ofParts vertices.toArray triangles.toArray
  match normals with
  | none => return bare
  | some ns =>
    match bare.setNormals ns.toArray with
    | .ok m => return m
    | .error e => throw (.normals e)

/-- A model. The mesh of a record is looked at before the name, in a list it follows the name, and
that a list goes on after both is noticed last. -/
def model : Payload → Except PayloadError Model
  | record fields => do
    let mesh ← (← orMalformed (field? fields "mesh")).mesh
    let name ← orMalformed (do (← field? fields "name").string?)
    return ⟨name, mesh⟩
  | list (name :: mesh :: extra) => do
    let name ← orMalformed name.string?
    let mesh ← mesh.mesh
    if extra.isEmpty then return ⟨name, mesh⟩ else throw .malformed
  | _ => throw .malformed

end Payload

end Facet
