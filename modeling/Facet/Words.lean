namespace Facet

/-- The characters with the White_Space property. They separate words and pad lines. -/
def isBlank (c : Char) : Bool :=
  (9 ≤ c.val && c.val ≤ 13) || c.val == 32 || c.val == 0x85 || c.val == 0xa0 ||
    c.val == 0x1680 || (0x2000 ≤ c.val && c.val ≤ 0x200a) || c.val == 0x2028 ||
    c.val == 0x2029 || c.val == 0x202f || c.val == 0x205f || c.val == 0x3000

/-- The text without the blanks that end it. -/
def trimEnd : List Char → List Char
  | [] => []
  | c :: rest =>
    match trimEnd rest with
    | [] => if isBlank c then [] else [c]
    | kept => c :: kept

/-- The text without the blanks that begin and end it. -/
def trim (text : List Char) : List Char :=
  trimEnd (text.dropWhile isBlank)

/-- The first word of the text and what follows it, the blank behind the word included. -/
def nextWord? (text : List Char) : Option (List Char × List Char) :=
  match text.dropWhile isBlank with
  | [] => none
  | c :: rest => some (c :: rest.takeWhile (!isBlank ·), rest.dropWhile (!isBlank ·))

/-- What is left of the current line, and the text after its line feed. -/
def splitLine (text : List Char) : List Char × List Char :=
  (text.takeWhile (· != '\n'), (text.dropWhile (· != '\n')).drop 1)

/-- The pieces of the text between separators. There is one more piece than there are separators, so
a text that ends in one has an empty last piece. -/
def pieces (separator : Char) : List Char → List (List Char)
  | [] => [[]]
  | c :: rest =>
    if c = separator then [] :: pieces separator rest
    else match pieces separator rest with
      | [] => [[c]]
      | piece :: others => (c :: piece) :: others

def lines (text : List Char) : List (List Char) :=
  pieces '\n' text

theorem nextWord?_length_lt {text word rest : List Char} (h : nextWord? text = some (word, rest)) :
    rest.length < text.length := by
  unfold nextWord? at h
  split at h
  next => simp at h
  next c tail heq =>
    obtain ⟨-, rfl⟩ := Prod.mk.inj (Option.some.inj h)
    have hle : (text.dropWhile isBlank).length ≤ text.length :=
      (List.dropWhile_suffix isBlank).length_le
    have hrest : (tail.dropWhile (!isBlank ·)).length ≤ tail.length :=
      (List.dropWhile_suffix _).length_le
    simp only [heq, List.length_cons] at hle
    omega

theorem splitLine_length_le (text : List Char) : (splitLine text).2.length ≤ text.length := by
  have : (text.dropWhile (· != '\n')).length ≤ text.length :=
    (List.dropWhile_suffix _).length_le
  simp only [splitLine, List.length_drop]
  omega

end Facet
