import Facet.Numeral
import Facet.Words
import Facet.Mesh

namespace Facet

def readNext {α : Type} (read : List Char → Option α) (text : List Char) :
    Option (α × List Char) := do
  let (word, rest) ← nextWord? text
  let value ← read word
  return (value, rest)

def readTriple {α : Type} (read : List Char → Option α) (text : List Char) :
    Option ((α × α × α) × List Char) := do
  let (a, rest) ← readNext read text
  let (b, rest) ← readNext read rest
  let (c, rest) ← readNext read rest
  return ((a, b, c), rest)

def readPoint (text : List Char) : Option (Point × List Char) :=
  (readTriple readFloat text).map fun ((x, y, z), rest) => (⟨x, y, z⟩, rest)

def readTriangle (text : List Char) : Option (Triangle × List Char) :=
  (readTriple readIndex text).map fun ((a, b, c), rest) => (⟨a, b, c⟩, rest)

def line (text : List Char) : List Char :=
  text ++ ['\n']

def pointText (p : Point) : List Char :=
  floatText p.x ++ ' ' :: floatText p.y ++ ' ' :: floatText p.z

def triangleText (t : Triangle) : List Char :=
  countText t.a.toNat ++ ' ' :: countText t.b.toNat ++ ' ' :: countText t.c.toNat

theorem readNext_eq_some {α : Type} {read : List Char → Option α} {text rest : List Char}
    {value : α} (h : readNext read text = some (value, rest)) :
    ∃ word, nextWord? text = some (word, rest) ∧ read word = some value := by
  obtain ⟨⟨word, after⟩, hword, h⟩ := Option.bind_eq_some_iff.mp h
  obtain ⟨found, hvalue, h⟩ := Option.bind_eq_some_iff.mp h
  cases Option.some.inj h
  exact ⟨word, hword, hvalue⟩

theorem readTriple_eq_some {α : Type} {read : List Char → Option α} {text rest : List Char}
    {a b c : α} (h : readTriple read text = some ((a, b, c), rest)) :
    ∃ first second, readNext read text = some (a, first) ∧
      readNext read first = some (b, second) ∧ readNext read second = some (c, rest) := by
  obtain ⟨⟨x, first⟩, hx, h⟩ := Option.bind_eq_some_iff.mp h
  obtain ⟨⟨y, second⟩, hy, h⟩ := Option.bind_eq_some_iff.mp h
  obtain ⟨⟨z, third⟩, hz, h⟩ := Option.bind_eq_some_iff.mp h
  cases Option.some.inj h
  exact ⟨first, second, hx, hy, hz⟩

theorem readPoint_eq_some {text rest : List Char} {p : Point}
    (h : readPoint text = some (p, rest)) :
    readTriple readFloat text = some ((p.x, p.y, p.z), rest) := by
  obtain ⟨⟨values, after⟩, hread, h⟩ := Option.map_eq_some_iff.mp h
  cases h
  exact hread

theorem readTriangle_eq_some {text rest : List Char} {t : Triangle}
    (h : readTriangle text = some (t, rest)) :
    readTriple readIndex text = some ((t.a, t.b, t.c), rest) := by
  obtain ⟨⟨values, after⟩, hread, h⟩ := Option.map_eq_some_iff.mp h
  cases h
  exact hread

theorem readNext_length_lt {α : Type} {read : List Char → Option α} {text rest : List Char}
    {value : α} (h : readNext read text = some (value, rest)) : rest.length < text.length := by
  obtain ⟨word, hword, -⟩ := readNext_eq_some h
  exact nextWord?_length_lt hword

theorem readTriple_length_lt {α : Type} {read : List Char → Option α} {text rest : List Char}
    {values : α × α × α} (h : readTriple read text = some (values, rest)) :
    rest.length < text.length := by
  obtain ⟨first, second, ha, hb, hc⟩ := readTriple_eq_some h
  have := readNext_length_lt ha
  have := readNext_length_lt hb
  have := readNext_length_lt hc
  omega

/-- Reads records up to the given number, and stops in front of the first that cannot be read. -/
def readRecords {α : Type} (read : List Char → Option (α × List Char)) :
    Nat → List Char → List α × List Char
  | 0, text => ([], text)
  | n + 1, text =>
    match read text with
    | none => ([], text)
    | some (record, rest) =>
      let (records, rest) := readRecords read n rest
      (record :: records, rest)

theorem readRecords_length_le {α : Type} {read : List Char → Option (α × List Char)}
    (shorter : ∀ text record rest, read text = some (record, rest) → rest.length < text.length)
    (n : Nat) (text : List Char) : (readRecords read n text).2.length ≤ text.length := by
  induction n generalizing text with
  | zero => exact Nat.le_refl _
  | succ n ih =>
    simp only [readRecords]
    split
    next => exact Nat.le_refl _
    next record rest h =>
      have := ih rest
      have := shorter text record rest h
      simp only
      omega

end Facet
