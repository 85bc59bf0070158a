import Facet.Vec3

namespace Facet

/-- The arithmetic of box corners. The larger and the smaller of two coordinates pass over a side
that is not a number. -/
class Coordinate (α : Type) extends Add α, Sub α, Mul α where
  zero : α
  half : α
  smaller : α → α → α
  larger : α → α → α
  isPositive : α → Bool

instance : Coordinate Float where
  zero := 0
  half := 0.5
  smaller := lesser
  larger := greater
  isPositive x := 0 < x

/-- A box along the axes. It is inverted on an axis where `max` is below `min`. -/
structure Box (α : Type) where
  min : Vec3 α
  max : Vec3 α
deriving DecidableEq

namespace Box

variable {α : Type} [Coordinate α]

open Coordinate

def zero : Box α :=
  ⟨⟨Coordinate.zero, Coordinate.zero, Coordinate.zero⟩,
    ⟨Coordinate.zero, Coordinate.zero, Coordinate.zero⟩⟩

def union (a b : Box α) : Box α :=
  ⟨a.min.zipWith smaller b.min, a.max.zipWith larger b.max⟩

def ofPoints : List (Vec3 α) → Box α
  | [] => zero
  | first :: others => others.foldl (fun box p => box.union ⟨p, p⟩) ⟨first, first⟩

def size (a : Box α) : Vec3 α :=
  a.max - a.min

def center (a : Box α) : Vec3 α :=
  (a.min + a.max).scale half

/-- The volume. An inverted axis has no extent. -/
def volume (a : Box α) : α :=
  let extent := a.size.map (larger · Coordinate.zero)
  extent.x * extent.y * extent.z

/-- What the boxes share, unless they only touch or lie apart on some axis. -/
def intersection (a b : Box α) : Option (Box α) :=
  let shared : Box α := ⟨a.min.zipWith larger b.min, a.max.zipWith smaller b.max⟩
  let extent := shared.size
  if isPositive extent.x && isPositive extent.y && isPositive extent.z then some shared else none

def intersectionVolume (a b : Box α) : α :=
  match a.intersection b with
  | none => Coordinate.zero
  | some shared => shared.volume

def unionVolume (a b : Box α) : α :=
  a.volume + b.volume - a.intersectionVolume b

def differenceVolume (a b : Box α) : α :=
  larger (a.volume - a.intersectionVolume b) Coordinate.zero

omit [Coordinate α] in
def agrees [BEq α] (a b : Box α) : Bool :=
  a.min.agrees b.min && a.max.agrees b.max

end Box

end Facet
