import Facet.Binary64

namespace Facet

def pi : Float := 3.14159265358979323846264338327950288

def radians (degrees : Float) : Float :=
  degrees * (pi / 180)

/-- Keeps `n` within the bounds. The lower bound wins where they cross. -/
def clampSegments (n low high : UInt32) : UInt32 :=
  max (min n high) low

/-- One more, unless there is no such number in 32 bits. -/
def succSaturating (n : UInt32) : UInt32 :=
  if n = 0xffffffff then n else n + 1

/-- How finely a solid is cut up: the deviations that are asked for, and the range that keeps the
segment counts. -/
structure Tolerance where
  linear : Float := 0.5
  angularDegrees : Float := 15
  minSegments : UInt32 := 8
  maxSegments : UInt32 := 512

namespace Tolerance

/-- Below this a linear deviation asks for no more slices. -/
def minLinear : Float := 1e-4

/-- Below this a linear deviation asks for no more rings along a height. -/
def minLinearAlongHeight : Float := 1e-3

/-- Below this an angle asks for no more belts. -/
def minAngularDegrees : Float := 0.1

def minSlices : UInt32 := 6

def minBelts : UInt32 := 2

def minSteps : UInt32 := 1

/-- The slices around an axis. They are even in number, so that a sphere is symmetric, unless the
range moves them. -/
def slices (t : Tolerance) : UInt32 :=
  let wanted := ceil32 (2 * pi / (greater t.linear minLinear).sqrt)
  let even := if wanted % 2 = 0 then wanted else succSaturating wanted
  clampSegments even (max t.minSegments minSlices) t.maxSegments

def belts (t : Tolerance) : UInt32 :=
  let wanted := ceil32 (pi / radians (greater t.angularDegrees minAngularDegrees))
  clampSegments (max wanted minBelts) minBelts (t.maxSegments / 2)

/-- The faces one above the other along a height. -/
def steps (t : Tolerance) (height : Float) : UInt32 :=
  let wanted := ceil32 (height / greater t.linear minLinearAlongHeight)
  clampSegments (max wanted (t.minSegments / 2)) minSteps t.maxSegments

end Tolerance

end Facet
