import Facet.Proofs.WordReading
import Facet.StepDocument

namespace Facet

/-- Blanks that keep two words apart, line feeds among them perhaps. -/
structure Gap where
  text : List Char
  blanks : IsBlanks text
  ne_nil : text ≠ []

/-- A word that reads as a value, and the gap behind it. -/
structure Field {α : Type} (read : List Char → Option α) where
  word : List Char
  value : α
  gap : Gap
  isWord : IsWord word
  reads : read word = some value

structure Triple {α : Type} (read : List Char → Option α) where
  a : Field read
  b : Field read
  c : Field read

/-- What follows the keyword of a section: how many records there are, and as many records. -/
structure CountedBody {α : Type} (read : List Char → Option α) where
  gap : Gap
  count : Field (readCount countLimit)
  records : List (Triple read)
  complete : records.length = count.value

structure LineTail where
  text : List Char
  no_feed : '\n' ∉ text
  endsWord : EndsWord text

def stepKeywords : List (List Char) :=
  ["NAME".toList, "VERTICES".toList, "INDICES".toList, "NORMALS".toList]

/-- A piece of a STEP document that is complete in itself. -/
inductive StepBlock where
  | name (tail : LineTail)
  | vertices (body : CountedBody readFloat)
  | indices (body : CountedBody readIndex)
  | normals (body : CountedBody readFloat)
  | unknown (word : List Char) (isWord : IsWord word) (h : word ∉ stepKeywords) (tail : LineTail)
  | blank (gap : Gap)

/-- The line with the magic word, without its line feed. -/
structure StepHeader where
  lead : List Char
  tail : LineTail
  blanks : IsBlanks lead

section Texts

variable {α : Type} {read : List Char → Option α}

def Field.text (f : Field read) : List Char :=
  f.word ++ f.gap.text

def Triple.text (t : Triple read) : List Char :=
  t.a.text ++ (t.b.text ++ t.c.text)

def Triple.values (t : Triple read) : α × α × α :=
  (t.a.value, t.b.value, t.c.value)

def CountedBody.text (b : CountedBody read) : List Char :=
  b.gap.text ++ (b.count.text ++ b.records.flatMap Triple.text)

end Texts

def Triple.point (t : Triple readFloat) : Point :=
  ⟨t.a.value, t.b.value, t.c.value⟩

def Triple.triangle (t : Triple readIndex) : Triangle :=
  ⟨t.a.value, t.b.value, t.c.value⟩

namespace StepBlock

def text : StepBlock → List Char
  | name tail => "NAME".toList ++ (tail.text ++ ['\n'])
  | vertices body => "VERTICES".toList ++ body.text
  | indices body => "INDICES".toList ++ body.text
  | normals body => "NORMALS".toList ++ body.text
  | unknown word _ _ tail => word ++ (tail.text ++ ['\n'])
  | blank gap => gap.text

/-- What a block says, as the section that is read from it. Blank space says nothing. -/
def sections : StepBlock → List StepSection
  | name tail => [.name (trim tail.text)]
  | vertices body => [.vertices (body.records.map Triple.point)]
  | indices body => [.indices (body.records.map Triple.triangle)]
  | normals body => [.normals body.count.value (body.records.map Triple.point)]
  | unknown word _ _ _ => [.unknown word]
  | blank _ => []

end StepBlock

def StepHeader.text (h : StepHeader) : List Char :=
  h.lead ++ (stepMagic.toList ++ h.tail.text)

theorem Field.endsWord {α : Type} {read : List Char → Option α} (f : Field read)
    (rest : List Char) : EndsWord (f.gap.text ++ rest) :=
  f.gap.blanks.endsWord_append f.gap.ne_nil rest

theorem LineTail.endsWord_append (tail : LineTail) (rest : List Char) :
    EndsWord (tail.text ++ '\n' :: rest) := by
  cases h : tail.text with
  | nil => exact endsWord_cons (by decide) rest
  | cons c cs => exact endsWord_cons (tail.endsWord c (by rw [h]; rfl)) _

theorem readNext_field {α : Type} {read : List Char → Option α} (f : Field read)
    {pad : List Char} (hpad : IsBlanks pad) (rest : List Char) :
    readNext read (pad ++ (f.text ++ rest)) = some (f.value, f.gap.text ++ rest) := by
  rw [readNext_blanks_append read hpad, Field.text, List.append_assoc]
  exact readNext_word_append f.isWord f.reads (f.endsWord rest)

/-- A record is read wherever it starts, up to the gap behind its last word. -/
theorem readTriple_triple {α : Type} {read : List Char → Option α} (t : Triple read)
    {pad : List Char} (hpad : IsBlanks pad) (rest : List Char) :
    readTriple read (pad ++ (t.text ++ rest)) = some (t.values, t.c.gap.text ++ rest) := by
  have ha := readNext_field t.a hpad (t.b.text ++ (t.c.text ++ rest))
  have hb := readNext_field t.b t.a.gap.blanks (t.c.text ++ rest)
  have hc := readNext_field t.c t.b.gap.blanks rest
  simp [readTriple, Triple.text, Triple.values, ha, hb, hc]

/-- Exactly the declared records are read, and the gap behind the last word is left. -/
theorem readRecords_triples {α ρ : Type} {read : List Char → Option α}
    {readRecord : List Char → Option (ρ × List Char)} {record : Triple read → ρ}
    (hread : ∀ (t : Triple read) (pad rest : List Char), IsBlanks pad →
      readRecord (pad ++ (t.text ++ rest)) = some (record t, t.c.gap.text ++ rest))
    (ts : List (Triple read)) {pad : List Char} (hpad : IsBlanks pad) (rest : List Char) :
    ∃ gap, IsBlanks gap ∧
      readRecords readRecord ts.length (pad ++ (ts.flatMap Triple.text ++ rest)) =
        (ts.map record, gap ++ rest) := by
  induction ts generalizing pad with
  | nil => exact ⟨pad, hpad, rfl⟩
  | cons t ts ih =>
    obtain ⟨gap, hgap, hrest⟩ := ih t.c.gap.blanks
    refine ⟨gap, hgap, ?_⟩
    rw [List.flatMap_cons, List.append_assoc, List.length_cons, readRecords, hread t _ _ hpad]
    simp only [hrest, List.map_cons]

theorem readPoint_triple (t : Triple readFloat) (pad rest : List Char) (hpad : IsBlanks pad) :
    readPoint (pad ++ (t.text ++ rest)) = some (t.point, t.c.gap.text ++ rest) := by
  rw [readPoint, readTriple_triple t hpad]
  rfl

theorem readTriangle_triple (t : Triple readIndex) (pad rest : List Char) (hpad : IsBlanks pad) :
    readTriangle (pad ++ (t.text ++ rest)) = some (t.triangle, t.c.gap.text ++ rest) := by
  rw [readTriangle, readTriple_triple t hpad]
  rfl

theorem readSectionCount_field (part : CountedSection) (f : Field (readCount countLimit))
    {pad : List Char} (hpad : IsBlanks pad) (rest : List Char) :
    readSectionCount part (pad ++ (f.text ++ rest)) = .ok (f.value, f.gap.text ++ rest) := by
  have hword : nextWord? (pad ++ (f.text ++ rest)) = some (f.word, f.gap.text ++ rest) := by
    rw [nextWord?_blanks_append hpad, Field.text, List.append_assoc]
    exact nextWord?_word_append f.isWord (f.endsWord rest)
  simp [readSectionCount, hword, f.reads]

theorem readSections_of_end {text : List Char} (h : nextWord? text = none) :
    readSections text = .ok [] := by
  rw [readSections]
  split
  next => rfl
  next hw => simp [h] at hw

theorem readSections_of_section {text word rest after : List Char} {found : StepSection}
    (hw : nextWord? text = some (word, rest)) (hs : readSection word rest = .ok (found, after)) :
    readSections text = (readSections after).map (found :: ·) := by
  rw [readSections]
  split
  next h => simp [hw] at h
  next h =>
    obtain ⟨rfl, rfl⟩ := Prod.mk.inj (Option.some.inj (hw.symm.trans h))
    split
    next he => cases hs.symm.trans he
    next he =>
      obtain ⟨rfl, rfl⟩ := Prod.mk.inj (Except.ok.inj (hs.symm.trans he))
      rfl

theorem readSections_of_error {text word rest : List Char} {e : DocumentError}
    (hw : nextWord? text = some (word, rest)) (hs : readSection word rest = .error e) :
    readSections text = .error e := by
  rw [readSections]
  split
  next h => simp [hw] at h
  next h =>
    obtain ⟨rfl, rfl⟩ := Prod.mk.inj (Option.some.inj (hw.symm.trans h))
    split
    next he => exact congrArg Except.error (Except.error.inj (he.symm.trans hs))
    next he => cases hs.symm.trans he

/-- The reader looks at nothing but the next word, so blanks in front of it do not matter. -/
theorem readSections_blanks_append {gap : List Char} (hgap : IsBlanks gap) (text : List Char) :
    readSections (gap ++ text) = readSections text := by
  have hsame := nextWord?_blanks_append hgap text
  cases hw : nextWord? text with
  | none => rw [readSections_of_end hw, readSections_of_end (hsame.trans hw)]
  | some next =>
    obtain ⟨word, rest⟩ := next
    cases hs : readSection word rest with
    | error e => rw [readSections_of_error hw hs, readSections_of_error (hsame.trans hw) hs]
    | ok read => rw [readSections_of_section hw hs, readSections_of_section (hsame.trans hw) hs]

theorem isWord_keyword (part : CountedSection) : IsWord part.keyword.toList := by
  cases part <;> decide

theorem ofWord_keyword (part : CountedSection) :
    StepKeyword.ofWord part.keyword.toList = .counted part := by
  cases part <;> rfl

theorem isWord_name : IsWord "NAME".toList := by
  decide

theorem ofWord_name : StepKeyword.ofWord "NAME".toList = .name :=
  rfl

theorem ofWord_of_not_mem {word : List Char} (h : word ∉ stepKeywords) :
    StepKeyword.ofWord word = .unknown := by
  simp only [stepKeywords, List.mem_cons, List.not_mem_nil, or_false, not_or] at h
  obtain ⟨hname, hvertices, hindices, hnormals⟩ := h
  rw [StepKeyword.ofWord, if_neg hname, CountedSection.keyword, if_neg hvertices,
    CountedSection.keyword, if_neg hindices, CountedSection.keyword, if_neg hnormals]

theorem readSections_counted {α : Type} {read : List Char → Option α} (part : CountedSection)
    (body : CountedBody read) {found : StepSection} {gap rest : List Char} (hgap : IsBlanks gap)
    (hrecords : readSectionRecords part body.count.value
      (body.count.gap.text ++ (body.records.flatMap Triple.text ++ rest)) = .ok (found, gap ++ rest)) :
    readSections (part.keyword.toList ++ body.text ++ rest) =
      (readSections rest).map (found :: ·) := by
  have hcount := readSectionCount_field part body.count body.gap.blanks
    (body.records.flatMap Triple.text ++ rest)
  have hsection : readSection part.keyword.toList (body.text ++ rest) = .ok (found, gap ++ rest) := by
    simp only [readSection, ofWord_keyword, CountedBody.text, List.append_assoc, hcount, hrecords]
  have hend : EndsWord (body.text ++ rest) := by
    rw [CountedBody.text, List.append_assoc]
    exact body.gap.blanks.endsWord_append body.gap.ne_nil _
  have hword := nextWord?_word_append (isWord_keyword part) hend
  rw [List.append_assoc, readSections_of_section hword hsection, readSections_blanks_append hgap]

theorem readSections_points_block (body : CountedBody readFloat) (rest : List Char) :
    readSections ("VERTICES".toList ++ body.text ++ rest) =
        (readSections rest).map (.vertices (body.records.map Triple.point) :: ·) ∧
      readSections ("NORMALS".toList ++ body.text ++ rest) =
        (readSections rest).map
          (.normals body.count.value (body.records.map Triple.point) :: ·) := by
  obtain ⟨gap, hgap, hread⟩ :=
    readRecords_triples readPoint_triple body.records body.count.gap.blanks rest
  rw [body.complete] at hread
  constructor
  · apply readSections_counted .vertices body hgap
    simp [readSectionRecords, hread, body.complete]
  · apply readSections_counted .normals body hgap
    simp [readSectionRecords, hread]

theorem readSections_triangles_block (body : CountedBody readIndex) (rest : List Char) :
    readSections ("INDICES".toList ++ body.text ++ rest) =
      (readSections rest).map (.indices (body.records.map Triple.triangle) :: ·) := by
  obtain ⟨gap, hgap, hread⟩ :=
    readRecords_triples readTriangle_triple body.records body.count.gap.blanks rest
  rw [body.complete] at hread
  apply readSections_counted .indices body hgap
  simp [readSectionRecords, hread, body.complete]

theorem map_nil_append (result : Except DocumentError (List StepSection)) :
    result.map ([] ++ ·) = result := by
  cases result <;> rfl

theorem readSection_name_line {word : List Char} (h : StepKeyword.ofWord word = .name)
    (tail : LineTail) (rest : List Char) :
    readSection word (tail.text ++ '\n' :: rest) = .ok (.name (trim tail.text), rest) := by
  simp only [readSection, h, splitLine_append tail.no_feed]

theorem readSection_unknown_line {word : List Char} (h : StepKeyword.ofWord word = .unknown)
    (tail : LineTail) (rest : List Char) :
    readSection word (tail.text ++ '\n' :: rest) = .ok (.unknown word, rest) := by
  simp only [readSection, h, splitLine_append tail.no_feed]

theorem StepBlock.name_text_append (tail : LineTail) (rest : List Char) :
    (name tail).text ++ rest = "NAME".toList ++ (tail.text ++ '\n' :: rest) := by
  change "NAME".toList ++ (tail.text ++ ['\n']) ++ rest = _
  rw [List.append_assoc, List.append_assoc, List.singleton_append]

theorem StepBlock.unknown_text_append {word : List Char} (isWord : IsWord word)
    (h : word ∉ stepKeywords) (tail : LineTail) (rest : List Char) :
    (unknown word isWord h tail).text ++ rest = word ++ (tail.text ++ '\n' :: rest) := by
  change word ++ (tail.text ++ ['\n']) ++ rest = _
  rw [List.append_assoc, List.append_assoc, List.singleton_append]

/-- After each complete block the reader stands in front of the next one. -/
theorem readSections_block_append (block : StepBlock) (rest : List Char) :
    readSections (block.text ++ rest) = (readSections rest).map (block.sections ++ ·) := by
  cases block with
  | name tail =>
    have hword := nextWord?_word_append isWord_name (tail.endsWord_append rest)
    have hsection := readSection_name_line ofWord_name tail rest
    rw [StepBlock.name_text_append]
    exact readSections_of_section hword hsection
  | vertices body => exact (readSections_points_block body rest).1
  | indices body => exact readSections_triangles_block body rest
  | normals body => exact (readSections_points_block body rest).2
  | unknown word isWord h tail =>
    have hword := nextWord?_word_append isWord (tail.endsWord_append rest)
    have hsection := readSection_unknown_line (ofWord_of_not_mem h) tail rest
    rw [StepBlock.unknown_text_append]
    exact readSections_of_section hword hsection
  | blank gap =>
    exact (readSections_blanks_append gap.blanks rest).trans (map_nil_append _).symm

theorem readSections_blocks_append (blocks : List StepBlock) (rest : List Char) :
    readSections (blocks.flatMap StepBlock.text ++ rest) =
      (readSections rest).map (blocks.flatMap StepBlock.sections ++ ·) := by
  induction blocks with
  | nil => exact (map_nil_append _).symm
  | cons block blocks ih =>
    rw [List.flatMap_cons, List.append_assoc, readSections_block_append, ih]
    cases readSections rest with
    | error e => rfl
    | ok sections => simp [Except.map]

theorem readSections_nil : readSections [] = .ok [] :=
  readSections_of_end rfl

theorem readSections_blocks (blocks : List StepBlock) :
    readSections (blocks.flatMap StepBlock.text) = .ok (blocks.flatMap StepBlock.sections) := by
  have h := readSections_blocks_append blocks []
  rw [List.append_nil, readSections_nil] at h
  simpa [Except.map] using h

/-- What stands behind the magic word on its line is not looked at. -/
theorem readStep_header_append (header : StepHeader) (rest : List Char) :
    readStep (header.text ++ '\n' :: rest) = (readSections rest).map modelOfSections := by
  have hword : nextWord? (header.text ++ '\n' :: rest) =
      some (stepMagic.toList, header.tail.text ++ '\n' :: rest) := by
    rw [StepHeader.text, List.append_assoc, nextWord?_blanks_append header.blanks,
      List.append_assoc]
    exact nextWord?_word_append (by decide) (header.tail.endsWord_append rest)
  simp only [readStep, hword, Option.getD_some, if_true, splitLine_append header.tail.no_feed]

theorem readStep_header (header : StepHeader) :
    readStep header.text = .ok (modelOfSections []) := by
  have hword : nextWord? header.text = some (stepMagic.toList, header.tail.text) := by
    rw [StepHeader.text, nextWord?_blanks_append header.blanks]
    exact nextWord?_word_append (by decide) header.tail.endsWord
  simp only [readStep, hword, Option.getD_some, if_true, splitLine_of_not_mem header.tail.no_feed,
    readSections_nil]
  rfl

end Facet
