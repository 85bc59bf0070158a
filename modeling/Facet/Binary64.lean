namespace Facet

/-- The bits of infinity, sign apart. Every finite magnitude is below it, every NaN above. -/
def infinityBits : Nat := 2047 <<< 52

/-- The digits of a magnitude in base two, as a whole number. -/
def significand (bits : Nat) : Nat :=
  if bits < 1 <<< 52 then bits else 1 <<< 52 + bits % (1 <<< 52)

/-- How many times the last of these digits is doubled from `2 ^ (-1074)`. -/
def doublings (bits : Nat) : Nat :=
  bits >>> 52 - 1

/-- The value of the magnitude with these bits, in units of `2 ^ (-1074)`. Infinity counts as the
number that would come next, so that rounding needs no case of its own for overflow. -/
def units (bits : Nat) : Nat :=
  significand bits <<< doublings bits

/-- The bits of the largest magnitude that is at most `u` units. -/
def floorBits (u : Nat) : Nat :=
  (u.log2 - 52) <<< 52 + u >>> (u.log2 - 52)

/-- The bits of the magnitude closest to `num / den` units. A tie goes to the even bits. -/
def nearestBits (num den : Nat) : Nat :=
  let low := floorBits (num / den)
  let middle := (units low + units (low + 1)) * den
  let nearest :=
    if 2 * num < middle then low
    else if middle < 2 * num then low + 1
    else low + low % 2
  min nearest infinityBits

/-- The bits of a number without its sign bit. -/
def magnitudeBits (x : Float) : Nat :=
  x.toBits.toNat % (1 <<< 63)

def isNegative (x : Float) : Bool :=
  1 <<< 63 ≤ x.toBits.toNat

def signedFloat (negative : Bool) (bits : Nat) : Float :=
  Float.ofBits (UInt64.ofNat (if negative then bits + 1 <<< 63 else bits))

/-- The larger of two numbers. One that is not a number gives way to the other. -/
def greater (a b : Float) : Float :=
  if a.isNaN then b else if b.isNaN then a else if a < b then b else a

def lesser (a b : Float) : Float :=
  if a.isNaN then b else if b.isNaN then a else if b < a then b else a

/-- The least whole number that is not below `x`, kept within 32 bits. What is not a number counts
as zero. -/
def ceil32 (x : Float) : UInt32 :=
  let bits := magnitudeBits x
  if infinityBits < bits || isNegative x then 0
  else UInt32.ofNat (min ((units bits + (1 <<< 1074 - 1)) >>> 1074) 0xffffffff)

end Facet
