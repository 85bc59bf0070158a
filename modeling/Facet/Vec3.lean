import Facet.Binary64

namespace Facet

structure Vec3 (α : Type) where
  x : α
  y : α
  z : α
deriving DecidableEq

namespace Vec3

variable {α β : Type}

def map (f : α → β) (v : Vec3 α) : Vec3 β :=
  ⟨f v.x, f v.y, f v.z⟩

def zipWith (f : α → α → β) (a b : Vec3 α) : Vec3 β :=
  ⟨f a.x b.x, f a.y b.y, f a.z b.z⟩

instance [Add α] : Add (Vec3 α) := ⟨zipWith (· + ·)⟩

instance [Sub α] : Sub (Vec3 α) := ⟨zipWith (· - ·)⟩

def scale [Mul α] (v : Vec3 α) (k : α) : Vec3 α :=
  v.map (· * k)

def dot [Add α] [Mul α] (a b : Vec3 α) : α :=
  a.x * b.x + a.y * b.y + a.z * b.z

def cross [Sub α] [Mul α] (a b : Vec3 α) : Vec3 α :=
  ⟨a.y * b.z - a.z * b.y, a.z * b.x - a.x * b.z, a.x * b.y - a.y * b.x⟩

def toList (v : Vec3 α) : List α :=
  [v.x, v.y, v.z]

def agrees [BEq α] (a b : Vec3 α) : Bool :=
  a.x == b.x && a.y == b.y && a.z == b.z

end Vec3

/-- A place or a direction in space. -/
abbrev Point := Vec3 Float

namespace Point

def zero : Point := ⟨0, 0, 0⟩

/-- The direction of the z axis, which stands in where there is no better one. -/
def up : Point := ⟨0, 0, 1⟩

def length (v : Point) : Float :=
  (v.dot v).sqrt

def distance (a b : Point) : Float :=
  length (a - b)

/-- Directions shorter than this have no reliable direction. -/
def normalEpsilon : Float := 1e-9

def dividedBy (v : Point) (k : Float) : Point :=
  v.map (· / k)

/-- The vector brought to unit length, or `fallback` if it is too short or its length is not
finite. -/
def normalizeOr (v fallback : Point) : Point :=
  let len := length v
  if len.isFinite && normalEpsilon ≤ len then dividedBy v len else fallback

end Point

end Facet
