import Facet.Mesh

namespace Facet

/-- A mesh under the name that it is kept by. -/
structure Model where
  name : String
  mesh : Mesh

namespace Model

def empty : Model :=
  ⟨"", Mesh.empty⟩

def ensureNormals (m : Model) : Model :=
  { m with mesh := m.mesh.ensureNormals }

/-- The distances between the vertices with the same number. -/
def vertexDistances (a b : Model) : List Float :=
  a.mesh.vertices.toList.zipWith Point.distance b.mesh.vertices.toList

/-- The largest distance between vertices with the same number, and infinity if the counts
differ. -/
def maxVertexDistance (a b : Model) : Float :=
  if a.mesh.vertices.size = b.mesh.vertices.size then
    (a.vertexDistances b).foldl greater 0
  else signedFloat false infinityBits

/-- Vertices that moved less than this are the same after writing and reading. -/
def roundTripTolerance : Float := 1e-9

def agrees (a b : Model) : Bool :=
  a.name == b.name && a.mesh.agrees b.mesh

end Model

end Facet
