import Facet.Sphere
import Facet.Cylinder

namespace Facet

inductive Solid where
  | unitSphere
  | cylinder (radius height : Float) (capped : Bool)

namespace Solid

/-- The surface of the solid as a mesh with normals. -/
def tessellate (t : Tolerance) : Solid → Mesh
  | unitSphere => sphereMesh t
  | cylinder radius height capped => cylinderMesh t radius height capped

def tessellateAll (t : Tolerance) (solids : List Solid) : List Mesh :=
  solids.map (tessellate t)

end Solid

end Facet
