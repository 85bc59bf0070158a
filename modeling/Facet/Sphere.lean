import Facet.RingGrid
import Facet.Tolerance

namespace Facet

/-- A unit sphere cut into slices around its axis and belts from pole to pole. Vertices run from the
north pole down, and around each parallel between two belts. -/
structure SphereGrid where
  slices : UInt32
  belts : UInt32
deriving DecidableEq

namespace SphereGrid

def north (_ : SphereGrid) : UInt32 := 0

def south (g : SphereGrid) : UInt32 :=
  1 + (g.belts - 1) * g.slices

/-- The vertex on a parallel. The outermost parallels are the poles, and columns wrap around. -/
def index (g : SphereGrid) (parallel column : UInt32) : UInt32 :=
  if parallel = 0 then g.north
  else if g.belts ≤ parallel then g.south
  else 1 + (parallel - 1) * g.slices + column % g.slices

def point (g : SphereGrid) (parallel column : UInt32) : Point :=
  let (cosPhi, sinPhi) := cosSin (pi * parallel.toFloat / g.belts.toFloat)
  let (cosTheta, sinTheta) := cosSin (2 * pi * column.toFloat / g.slices.toFloat)
  ⟨sinPhi * cosTheta, sinPhi * sinTheta, cosPhi⟩

def parallels (g : SphereGrid) : List UInt32 :=
  (indicesBelow g.belts).drop 1

def vertices (g : SphereGrid) : List Point :=
  ⟨0, 0, 1⟩ ::
    (g.parallels.flatMap fun parallel => (indicesBelow g.slices).map (g.point parallel)) ++
    [⟨0, 0, -1⟩]

/-- The cap around the north pole, the belts below it, and the cap around the south pole. -/
def triangles (g : SphereGrid) : List Triangle :=
  let last := g.belts - 1
  (indicesBelow g.slices).map (upperFan g.index g.north 1) ++
    (((indicesBelow last).drop 1).flatMap fun parallel =>
      (indicesBelow g.slices).flatMap (quad g.index parallel)) ++
    (indicesBelow g.slices).map (lowerFan g.index g.south last)

/-- How many vertices there are: the poles, and one for every slice on every parallel. -/
def vertexCount (g : SphereGrid) : Nat :=
  (g.belts.toNat - 1) * g.slices.toNat + 2

/-- How many triangles there are: one for every slice on the outer belts, two on the inner ones. -/
def triangleCount (g : SphereGrid) : Nat :=
  2 * ((g.belts.toNat - 1) * g.slices.toNat)

def mesh (g : SphereGrid) : Mesh :=
  (Mesh.ofParts g.vertices.toArray g.triangles.toArray).recomputeNormals

end SphereGrid

def Tolerance.sphereGrid (t : Tolerance) : SphereGrid :=
  ⟨t.slices, t.belts⟩

def sphereMesh (t : Tolerance) : Mesh :=
  t.sphereGrid.mesh

end Facet
