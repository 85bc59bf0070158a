import Facet.Binary64

namespace Facet

/-- The number `coefficient * 10 ^ exponent`. -/
structure Decimal where
  coefficient : Nat
  exponent : Int
deriving DecidableEq, Repr

namespace Decimal

/-- The bits of the magnitude closest to the number. An exponent that leaves no doubt about infinity
or zero is settled before its power of ten is computed. -/
def nearest (d : Decimal) : Nat :=
  if d.coefficient = 0 then 0
  else if 400 < d.exponent then infinityBits
  else if d.exponent + d.coefficient.log2 < -400 then 0
  else if 0 ≤ d.exponent then
    nearestBits ((d.coefficient * Nat.pow 10 d.exponent.toNat) <<< 1074) 1
  else
    nearestBits (d.coefficient <<< 1074) (Nat.pow 10 (-d.exponent).toNat)

/-- The value of the last binary digit of a magnitude. -/
def lastPlace (bits : Nat) : Decimal :=
  if 1074 ≤ doublings bits then ⟨1 <<< (doublings bits - 1074), 0⟩
  else ⟨Nat.pow 5 (1074 - doublings bits), doublings bits - 1074⟩

def exactly (bits : Nat) : Decimal :=
  ⟨significand bits * (lastPlace bits).coefficient, (lastPlace bits).exponent⟩

/-- The two neighbours of `d` with `dropped` digits fewer, the closer one first and the upper one
first on a tie. Those that are more than `reach` away are left out. -/
def neighbours (d : Decimal) (reach dropped : Nat) : List Decimal :=
  let step := Nat.pow 10 dropped
  let low := d.coefficient / step
  let excess := d.coefficient % step
  let below : List Decimal :=
    if excess ≤ reach then [⟨low, d.exponent + dropped⟩] else []
  let above : List Decimal :=
    if step - excess ≤ reach then [⟨low + 1, d.exponent + dropped⟩] else []
  if 2 * excess < step then below ++ above else above ++ below

/-- How many decimal digits `n` has. The fraction is `log10 2`, close enough for any `n` with fewer
than ten thousand digits. -/
def digitCount (n : Nat) : Nat :=
  let estimate := n.log2 * 30103 / 100000 + 1
  if Nat.pow 10 estimate ≤ n then estimate + 1 else estimate

/-- The decimal with the fewest digits that reads back as the magnitude, the closest one of those.
It is less than one last place away, and seventeen digits are enough for every magnitude. -/
def shortest (bits : Nat) : Decimal :=
  let whole := exactly bits
  let reach := (lastPlace bits).coefficient
  let size := digitCount whole.coefficient
  let found := (List.range 17).findSome? fun i =>
    (whole.neighbours reach (size - (i + 1))).find? (·.nearest = bits)
  found.getD whole

end Decimal

end Facet
