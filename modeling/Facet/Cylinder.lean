import Facet.RingGrid
import Facet.Tolerance

namespace Facet

/-- What stands in for a radius or a height that is not above zero. -/
def degenerateLength : Float := 1e-6

def positiveLength (x : Float) : Float :=
  if 0 < x then x else degenerateLength

/-- The side of a cylinder cut into slices around its axis and rings from the top down. -/
structure CylinderGrid where
  radius : Float
  height : Float
  slices : UInt32
  rings : UInt32
deriving DecidableEq

namespace CylinderGrid

/-- The vertex on a ring. Columns wrap around. -/
def index (g : CylinderGrid) (ring column : UInt32) : UInt32 :=
  ring * g.slices + column % g.slices

def half (g : CylinderGrid) : Float :=
  g.height / 2

def level (g : CylinderGrid) (ring : UInt32) : Float :=
  g.half - g.height * ring.toFloat / (g.rings - 1).toFloat

def point (g : CylinderGrid) (ring column : UInt32) : Point :=
  let (cosTheta, sinTheta) := cosSin (2 * pi * column.toFloat / g.slices.toFloat)
  ⟨g.radius * cosTheta, g.radius * sinTheta, g.level ring⟩

def sideVertices (g : CylinderGrid) : List Point :=
  (indicesBelow g.rings).flatMap fun ring => (indicesBelow g.slices).map (g.point ring)

def sideTriangles (g : CylinderGrid) : List Triangle :=
  (indicesBelow (g.rings - 1)).flatMap fun ring => (indicesBelow g.slices).flatMap (quad g.index ring)

/-- The centres of the two ends, the lower one first. -/
def centers (g : CylinderGrid) : List Point :=
  [⟨0, 0, -g.half⟩, ⟨0, 0, g.half⟩]

def lowerCenter (g : CylinderGrid) : UInt32 :=
  g.rings * g.slices

def upperCenter (g : CylinderGrid) : UInt32 :=
  g.lowerCenter + 1

/-- A fan that closes the top, then one that closes the bottom. -/
def capTriangles (g : CylinderGrid) : List Triangle :=
  (indicesBelow g.slices).map (upperFan g.index g.upperCenter 0) ++
    (indicesBelow g.slices).map (lowerFan g.index g.lowerCenter (g.rings - 1))

def vertices (g : CylinderGrid) (capped : Bool) : List Point :=
  if capped then g.sideVertices ++ g.centers else g.sideVertices

def triangles (g : CylinderGrid) (capped : Bool) : List Triangle :=
  if capped then g.sideTriangles ++ g.capTriangles else g.sideTriangles

def vertexCount (g : CylinderGrid) (capped : Bool) : Nat :=
  g.rings.toNat * g.slices.toNat + if capped then 2 else 0

def triangleCount (g : CylinderGrid) (capped : Bool) : Nat :=
  2 * ((g.rings.toNat - 1) * g.slices.toNat) + if capped then 2 * g.slices.toNat else 0

def mesh (g : CylinderGrid) (capped : Bool) : Mesh :=
  (Mesh.ofParts (g.vertices capped).toArray (g.triangles capped).toArray).recomputeNormals

end CylinderGrid

def Tolerance.cylinderGrid (t : Tolerance) (radius height : Float) : CylinderGrid where
  radius := positiveLength radius
  height := positiveLength height
  slices := t.slices
  rings := succSaturating (t.steps (positiveLength height))

def cylinderMesh (t : Tolerance) (radius height : Float) (capped : Bool) : Mesh :=
  (t.cylinderGrid radius height).mesh capped

end Facet
