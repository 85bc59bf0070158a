import Facet.Decimal

namespace Facet

/-- The number that a run of decimal digits stands for. -/
def digitsValue (digits : List Char) : Nat :=
  digits.foldl (fun n c => 10 * n + (c.toNat - '0'.toNat)) 0

/-- Reads a whole number up to `limit`: decimal digits behind an optional plus sign. -/
def readCount (limit : Nat) (word : List Char) : Option Nat :=
  let digits := match word with
    | '+' :: rest => rest
    | _ => word
  let value := digitsValue digits
  if digits ≠ [] ∧ digits.all Char.isDigit ∧ value ≤ limit then some value else none

def readIndex (word : List Char) : Option UInt32 :=
  (readCount 0xffffffff word).map UInt32.ofNat

/-- Reads what may follow the digits of a decimal: nothing, or an exponent. -/
def readExponent : List Char → Option Int
  | [] => some 0
  | mark :: rest =>
    if mark ≠ 'e' ∧ mark ≠ 'E' then none
    else
      let (sign, digits) := match rest with
        | '-' :: digits => ((-1 : Int), digits)
        | '+' :: digits => (1, digits)
        | digits => (1, digits)
      if digits ≠ [] ∧ digits.all Char.isDigit then some (sign * digitsValue digits) else none

/-- Reads digits with an optional point and an optional exponent. At least one digit stands on
one side of the point. -/
def readDecimal (text : List Char) : Option Decimal :=
  let whole := text.takeWhile Char.isDigit
  let rest := text.dropWhile Char.isDigit
  let (fraction, rest) := match rest with
    | '.' :: after => (after.takeWhile Char.isDigit, after.dropWhile Char.isDigit)
    | _ => ([], rest)
  if whole ++ fraction = [] then none
  else (readExponent rest).map fun e => ⟨digitsValue (whole ++ fraction), e - fraction.length⟩

/-- Reads the magnitude of a number: a decimal, or infinity by one of its two names. -/
def readMagnitude (text : List Char) : Option Nat :=
  let lowered := text.map Char.toLower
  if lowered = ['i', 'n', 'f'] ∨ lowered = ['i', 'n', 'f', 'i', 'n', 'i', 't', 'y'] then
    some infinityBits
  else if lowered = ['n', 'a', 'n'] then some (infinityBits + 1 <<< 51)
  else (readDecimal text).map Decimal.nearest

def readFloat (word : List Char) : Option Float :=
  match word with
  | '-' :: rest => (readMagnitude rest).map (signedFloat true)
  | '+' :: rest => (readMagnitude rest).map (signedFloat false)
  | _ => (readMagnitude word).map (signedFloat false)

def countText (n : Nat) : List Char :=
  Nat.toDigits 10 n

/-- The fraction digits that are written: none that only repeat zero up to the end. -/
def trimZeros (digits : List Char) : List Char :=
  (digits.reverse.dropWhile (· = '0')).reverse

/-- The number in positional notation, however large or small it is. -/
def Decimal.text (d : Decimal) : List Char :=
  let digits := countText d.coefficient
  if 0 ≤ d.exponent then digits ++ List.replicate d.exponent.toNat '0'
  else
    let places := (-d.exponent).toNat
    let padded := List.replicate (places + 1 - digits.length) '0' ++ digits
    let whole := padded.take (padded.length - places)
    match trimZeros (padded.drop (padded.length - places)) with
    | [] => whole
    | fraction => whole ++ '.' :: fraction

/-- The shortest text that reads back as the magnitude. -/
def magnitudeText (bits : Nat) : List Char :=
  if bits = 0 then ['0']
  else if bits = infinityBits then ['i', 'n', 'f']
  else (Decimal.shortest bits).text

/-- The shortest text in positional notation that reads back as the same number. The sign of zero is
kept, and what is not a number has none. -/
def floatText (x : Float) : List Char :=
  let bits := magnitudeBits x
  if infinityBits < bits then ['N', 'a', 'N']
  else if isNegative x then '-' :: magnitudeText bits
  else magnitudeText bits

end Facet
