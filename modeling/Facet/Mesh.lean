import Facet.Box

namespace Facet

/-- The vertex numbers of three corners, counterclockwise as seen from outside. -/
structure Triangle where
  a : UInt32
  b : UInt32
  c : UInt32
deriving DecidableEq

namespace Triangle

def toList (t : Triangle) : List UInt32 :=
  [t.a, t.b, t.c]

end Triangle

/-- A triangle whose corners are all there, with their positions. -/
structure Face where
  triangle : Triangle
  a : Point
  b : Point
  c : Point

/-- Points away from the side on which the corners run counterclockwise, and is twice the area
long. -/
def Face.normal (f : Face) : Point :=
  (f.b - f.a).cross (f.c - f.a)

def Face.area (f : Face) : Float :=
  0.5 * f.normal.length

/-- Vertices, triangles between them, and perhaps a normal for each vertex. A triangle may name a
vertex that is not there. -/
structure Mesh where
  vertices : Array Point
  triangles : Array Triangle
  normals : Option (Array Point) := none
  normals_size : ∀ ns, normals = some ns → ns.size = vertices.size := by simp

structure NormalCountMismatch where
  normals : Nat
  vertices : Nat
deriving DecidableEq

def NormalCountMismatch.message (e : NormalCountMismatch) : String :=
  s!"normal count {e.normals} does not match vertex count {e.vertices}"

structure IndexOutOfRange where
  length : Nat
  index : Nat
deriving DecidableEq

def IndexOutOfRange.message (e : IndexOutOfRange) : String :=
  s!"index out of bounds: the len is {e.length} but the index is {e.index}"

namespace Mesh

def empty : Mesh where
  vertices := #[]
  triangles := #[]

def ofParts (vertices : Array Point) (triangles : Array Triangle) : Mesh where
  vertices := vertices
  triangles := triangles

def indexCount (m : Mesh) : Nat :=
  3 * m.triangles.size

/-- The number of the new vertex, and the mesh with it. The normals no longer fit and are
dropped. -/
def addVertex (m : Mesh) (p : Point) : UInt32 × Mesh :=
  (UInt32.ofNat m.vertices.size,
    { vertices := m.vertices.push p, triangles := m.triangles })

def addTriangle (m : Mesh) (t : Triangle) : Mesh :=
  { m with triangles := m.triangles.push t }

def setNormals (m : Mesh) (ns : Array Point) : Except NormalCountMismatch Mesh :=
  if h : ns.size = m.vertices.size then
    .ok { m with normals := some ns, normals_size := by rintro _ ⟨⟩; exact h }
  else .error ⟨ns.size, m.vertices.size⟩

def clearNormals (m : Mesh) : Mesh :=
  ofParts m.vertices m.triangles

def vertex (m : Mesh) (i : UInt32) : Except IndexOutOfRange Point :=
  match m.vertices[i.toNat]? with
  | some p => .ok p
  | none => .error ⟨m.vertices.size, i.toNat⟩

def triangle (m : Mesh) (i : Nat) : Except IndexOutOfRange Triangle :=
  match m.triangles[i]? with
  | some t => .ok t
  | none => .error ⟨m.triangles.size, i⟩

def indices (m : Mesh) : List UInt32 :=
  m.triangles.toList.flatMap Triangle.toList

def face? (m : Mesh) (t : Triangle) : Option Face := do
  let a ← m.vertices[t.a.toNat]?
  let b ← m.vertices[t.b.toNat]?
  let c ← m.vertices[t.c.toNat]?
  return ⟨t, a, b, c⟩

def faces (m : Mesh) : List Face :=
  m.triangles.toList.filterMap m.face?

def addAtCorners (sums : Array Point) (f : Face) : Array Point :=
  f.triangle.toList.foldl (fun sums i => sums.modify i.toNat (· + f.normal)) sums

def normalSums (m : Mesh) : Array Point :=
  m.faces.foldl addAtCorners (Array.replicate m.vertices.size Point.zero)

/-- The direction of the summed normals. Where they cancel it is the direction of the vertex from
the origin, and upward for a vertex at the origin. -/
def vertexNormal (sum position : Point) : Point :=
  let len := sum.length
  if Point.normalEpsilon ≤ len then sum.dividedBy len else position.normalizeOr Point.up

/-- One normal for each vertex, in which large faces weigh more. -/
def computeNormals (m : Mesh) : Array Point :=
  m.normalSums.zipWith vertexNormal m.vertices

theorem size_addAtCorners (sums : Array Point) (f : Face) :
    (addAtCorners sums f).size = sums.size := by
  simp [addAtCorners, Triangle.toList]

theorem size_foldl_addAtCorners (faces : List Face) (sums : Array Point) :
    (faces.foldl addAtCorners sums).size = sums.size := by
  induction faces generalizing sums with
  | nil => rfl
  | cons f rest ih => rw [List.foldl_cons, ih, size_addAtCorners]

theorem size_normalSums (m : Mesh) : m.normalSums.size = m.vertices.size := by
  rw [normalSums, size_foldl_addAtCorners, Array.size_replicate]

theorem size_computeNormals (m : Mesh) : m.computeNormals.size = m.vertices.size := by
  simp [computeNormals, size_normalSums]

def recomputeNormals (m : Mesh) : Mesh :=
  { m with
    normals := some m.computeNormals
    normals_size := by rintro _ ⟨⟩; exact m.size_computeNormals }

def ensureNormals (m : Mesh) : Mesh :=
  if m.normals.isSome then m else m.recomputeNormals

def boundingBox (m : Mesh) : Box Float :=
  Box.ofPoints m.vertices.toList

def surfaceArea (m : Mesh) : Float :=
  m.faces.foldl (fun sum f => sum + f.area) 0

/-- Whether every triangle has three different corners that are there, and an area. -/
def isValid (m : Mesh) : Bool :=
  m.triangles.all fun t =>
    match m.face? t with
    | none => false
    | some f => t.a != t.b && t.b != t.c && t.a != t.c && 0 < f.normal.length

/-- The components one after the other, in single precision. -/
def flat32 (points : Array Point) : List Float32 :=
  points.toList.flatMap fun p => p.toList.map Float.toFloat32

/-- The same vertices, triangles and normals, numbers compared as numbers. -/
def agrees (a b : Mesh) : Bool :=
  let samePoints (ps qs : Array Point) : Bool := ps.isEqv qs Vec3.agrees
  samePoints a.vertices b.vertices && a.triangles == b.triangles &&
    match a.normals, b.normals with
    | none, none => true
    | some ns, some ms => samePoints ns ms
    | _, _ => false

end Mesh

structure Summary where
  vertexCount : Nat
  triangleCount : Nat
  surfaceArea : Float
  boundingBox : Box Float

def Mesh.summary (m : Mesh) : Summary where
  vertexCount := m.vertices.size
  triangleCount := m.triangles.size
  surfaceArea := m.surfaceArea
  boundingBox := m.boundingBox

end Facet
