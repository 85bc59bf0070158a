import Facet.Mesh

namespace Facet

def indicesBelow (n : UInt32) : List UInt32 :=
  (List.range n.toNat).map UInt32.ofNat

/-- The two triangles between one place of a row, its neighbour, and the two below them. Columns run
counterclockwise as seen from above, and rows run down. -/
def quad (index : UInt32 → UInt32 → UInt32) (row column : UInt32) : List Triangle :=
  let here := index row column
  let next := index row (column + 1)
  let below := index (row + 1) column
  let belowNext := index (row + 1) (column + 1)
  [⟨here, below, belowNext⟩, ⟨here, belowNext, next⟩]

def upperFan (index : UInt32 → UInt32 → UInt32) (apex row column : UInt32) : Triangle :=
  ⟨apex, index row column, index row (column + 1)⟩

def lowerFan (index : UInt32 → UInt32 → UInt32) (apex row column : UInt32) : Triangle :=
  ⟨index row (column + 1), index row column, apex⟩

/-- Stands for the range that the machine's sine and cosine are documented to have, and changes no
value within it. -/
def withinUnit (x : Float) : Float :=
  if -1 ≤ x && x ≤ 1 then x else 0

def cosSin (angle : Float) : Float × Float :=
  (withinUnit angle.cos, withinUnit angle.sin)

end Facet
