import Mathlib.Data.List.Basic
import Mathlib.Tactic.IntervalCases
import Facet.Mesh

namespace Facet

namespace Mesh

def position (m : Mesh) (i : UInt32) : Point :=
  m.vertices.getD i.toNat Point.zero

end Mesh

open Mesh

end Facet
