import Facet.Proofs.RecordRuns
import Facet.Proofs.StepSections
import Facet.Proofs.StepWriting

namespace Facet

/-- What is wrong with a section, as its words from the keyword on tell it: it breaks off too early,
or its count is none. -/
inductive StepFault : List (List Char) → DocumentError → Prop
  | shortVertices {count : List Char} {texts : List (List Char)} {n k : Nat}
      (hcount : readCount countLimit count = some n) (hless : k < n)
      (hbreaks : BreaksOff readFloat k texts) :
      StepFault (CountedSection.vertices.keyword.toList :: count :: texts)
        (.shortSection .vertices n k)
  | shortIndices {count : List Char} {texts : List (List Char)} {n k : Nat}
      (hcount : readCount countLimit count = some n) (hless : k < n)
      (hbreaks : BreaksOff readIndex k texts) :
      StepFault (CountedSection.indices.keyword.toList :: count :: texts)
        (.shortSection .indices (min (3 * n) countLimit) (3 * k))
  | badCount (part : CountedSection) {texts : List (List Char)}
      (hcount : readCount countLimit (texts.headD []) = none) :
      StepFault (part.keyword.toList :: texts) (.badCount part (String.ofList (texts.headD [])))

/-- The reader gets from a text to a later place in it by reading whole sections. -/
inductive SectionsRead : List Char → List StepSection → List Char → Prop
  | start (text : List Char) : SectionsRead text [] text
  | next {text word rest after left : List Char} {found : StepSection} {others : List StepSection}
      (hword : nextWord? text = some (word, rest))
      (hsection : readSection word rest = .ok (found, after))
      (hothers : SectionsRead after others left) : SectionsRead text (found :: others) left

theorem keyword_of_ofWord {word : List Char} {part : CountedSection}
    (h : StepKeyword.ofWord word = .counted part) : word = part.keyword.toList := by
  unfold StepKeyword.ofWord at h
  split at h
  next => cases h
  next =>
    split at h
    next hword => cases h; exact hword
    next =>
      split at h
      next hword => cases h; exact hword
      next =>
        split at h
        next hword => cases h; exact hword
        next => cases h

theorem keyword_inj {a b : CountedSection} (h : a.keyword.toList = b.keyword.toList) : a = b := by
  have hkind := congrArg StepKeyword.ofWord h
  rw [ofWord_keyword, ofWord_keyword] at hkind
  exact StepKeyword.counted.inj hkind

/-- The records of a section break off before there are as many as declared. -/
def IsShort (part : CountedSection) (n : Nat) (texts : List (List Char)) (e : DocumentError) :
    Prop :=
  (part = .vertices ∧ ∃ k < n, BreaksOff readFloat k texts ∧ e = .shortSection .vertices n k) ∨
  (part = .indices ∧ ∃ k < n, BreaksOff readIndex k texts ∧
    e = .shortSection .indices (min (3 * n) countLimit) (3 * k))

theorem stepFault_keyword_iff {part : CountedSection} {texts : List (List Char)}
    {e : DocumentError} :
    StepFault (part.keyword.toList :: texts) e ↔
      (readCount countLimit (texts.headD []) = none ∧
        e = .badCount part (String.ofList (texts.headD []))) ∨
      ∃ count others n, texts = count :: others ∧ readCount countLimit count = some n ∧
        IsShort part n others e := by
  constructor
  · intro h
    generalize hword : part.keyword.toList = word at h
    cases h with
    | @shortVertices count others n k hcount hless hbreaks =>
      exact .inr ⟨count, others, n, rfl, hcount, .inl ⟨keyword_inj hword, k, hless, hbreaks, rfl⟩⟩
    | @shortIndices count others n k hcount hless hbreaks =>
      exact .inr ⟨count, others, n, rfl, hcount, .inr ⟨keyword_inj hword, k, hless, hbreaks, rfl⟩⟩
    | badCount other hcount =>
      rw [keyword_inj hword]
      exact .inl ⟨hcount, rfl⟩
  · rintro (⟨hcount, rfl⟩ | ⟨count, others, n, rfl, hcount, hshort⟩)
    · exact .badCount part hcount
    · rcases hshort with ⟨rfl, k, hk, hbreaks, rfl⟩ | ⟨rfl, k, hk, hbreaks, rfl⟩
      · exact .shortVertices hcount hk hbreaks
      · exact .shortIndices hcount hk hbreaks

/-- A section with vertices or triangles is refused exactly if it is short. -/
theorem readSectionRecords_eq_error_iff {part : CountedSection} {n : Nat} {text : List Char}
    {e : DocumentError} :
    readSectionRecords part n text = .error e ↔ IsShort part n (words text) e := by
  unfold IsShort
  have hpoints := length_readRecords_le readPoint n text
  have htriangles := length_readRecords_le readTriangle n text
  cases part with
  | vertices =>
    simp only [readSectionRecords, true_and, reduceCtorEq, false_and, or_false]
    split
    next hfull =>
      constructor
      · intro he
        cases he
      · rintro ⟨k, hk, hbreaks, -⟩
        have hlength := (length_readPoints_eq_iff hk text).mpr hbreaks
        omega
    next hshort =>
      constructor
      · intro he
        have hk := Nat.lt_of_le_of_ne hpoints hshort
        exact ⟨_, hk, (length_readPoints_eq_iff hk text).mp rfl, (Except.error.inj he).symm⟩
      · rintro ⟨k, hk, hbreaks, rfl⟩
        rw [(length_readPoints_eq_iff hk text).mpr hbreaks]
  | indices =>
    simp only [readSectionRecords, true_and, reduceCtorEq, false_and, false_or]
    split
    next hfull =>
      constructor
      · intro he
        cases he
      · rintro ⟨k, hk, hbreaks, -⟩
        have hlength := (length_readTriangles_eq_iff hk text).mpr hbreaks
        omega
    next hshort =>
      constructor
      · intro he
        have hk := Nat.lt_of_le_of_ne htriangles hshort
        exact ⟨_, hk, (length_readTriangles_eq_iff hk text).mp rfl, (Except.error.inj he).symm⟩
      · rintro ⟨k, hk, hbreaks, rfl⟩
        rw [(length_readTriangles_eq_iff hk text).mpr hbreaks]
  | normals =>
    simp only [readSectionRecords, reduceCtorEq, false_and, or_false]

/-- A counted section is refused for its count, or for what stands behind the count. -/
theorem readSection_keyword_eq_error_iff {part : CountedSection} {text : List Char}
    {e : DocumentError} :
    readSection part.keyword.toList text = .error e ↔
      StepFault (part.keyword.toList :: words text) e := by
  rw [stepFault_keyword_iff]
  simp only [readSection, ofWord_keyword, readSectionCount]
  cases hw : nextWord? text with
  | none =>
    have hnone : readCount countLimit [] = none := rfl
    simp [words_of_end hw, hnone, eq_comm]
  | some next =>
    obtain ⟨count, left⟩ := next
    rw [words_of_word hw]
    cases hcount : readCount countLimit count with
    | none => simp [hcount, eq_comm]
    | some n => simp [hcount, readSectionRecords_eq_error_iff]

theorem readSection_eq_error_iff {word text : List Char} {e : DocumentError} :
    readSection word text = .error e ↔ StepFault (word :: words text) e := by
  by_cases hkeyword : ∃ part : CountedSection, word = part.keyword.toList
  · obtain ⟨part, rfl⟩ := hkeyword
    exact readSection_keyword_eq_error_iff
  · constructor
    · intro h
      unfold readSection at h
      split at h
      next => cases h
      next => cases h
      next part hkind => exact absurd ⟨part, keyword_of_ofWord hkind⟩ hkeyword
    · intro h
      generalize words text = texts at h
      cases h with
      | shortVertices => exact absurd ⟨.vertices, rfl⟩ hkeyword
      | shortIndices => exact absurd ⟨.indices, rfl⟩ hkeyword
      | badCount part => exact absurd ⟨part, rfl⟩ hkeyword

theorem readSections_of_fault {text : List Char} {e : DocumentError}
    (h : StepFault (words text) e) : readSections text = .error e := by
  cases hword : nextWord? text with
  | none =>
    rw [words_of_end hword] at h
    cases h
  | some next =>
    rw [words_of_word hword] at h
    exact readSections_of_error hword (readSection_eq_error_iff.mpr h)

/-- Reading fails exactly where a section stands in the way that cannot be read. -/
theorem readSections_eq_error_iff {text : List Char} {e : DocumentError} :
    readSections text = .error e ↔
      ∃ sections left, SectionsRead text sections left ∧ StepFault (words left) e := by
  constructor
  · intro h
    fun_induction readSections text with
    | case1 text hword => cases h
    | case2 text word rest hword cause hsection =>
      cases h
      refine ⟨[], text, .start text, ?_⟩
      rw [words_of_word hword]
      exact readSection_eq_error_iff.mp hsection
    | case3 text word rest hword found after hsection ih =>
      cases hafter : readSections after with
      | ok others => rw [hafter] at h; cases h
      | error cause =>
        rw [hafter] at h
        cases h
        obtain ⟨others, left, hothers, hfault⟩ := ih hafter
        exact ⟨found :: others, left, .next hword hsection hothers, hfault⟩
  · rintro ⟨sections, left, hread, hfault⟩
    induction hread with
    | start text => exact readSections_of_fault hfault
    | next hword hsection hothers ih =>
      rw [readSections_of_section hword hsection, ih hfault]
      rfl

theorem SectionsRead.suffix {text left : List Char} {sections : List StepSection}
    (h : SectionsRead text sections left) : left <:+ text := by
  induction h with
  | start text => exact List.suffix_rfl
  | next hword hsection hothers ih =>
    exact ih.trans ((readSection_suffix hsection).trans (nextWord?_suffix hword))

theorem length_words_le (text : List Char) : (words text).length ≤ text.length := by
  fun_induction words text with
  | case1 text hnone => exact Nat.zero_le _
  | case2 text word rest hword ih =>
    have hlt := nextWord?_length_lt hword
    rw [List.length_cons]
    omega

/-- More is declared than is there, as long as there is less text than the largest count. -/
theorem StepFault.parsed_lt_declared {texts : List (List Char)} {part : CountedSection}
    {declared parsed : Nat} (h : StepFault texts (.shortSection part declared parsed))
    (hsize : texts.length < countLimit) : parsed < declared := by
  cases h with
  | shortVertices hcount hless hbreaks => exact hless
  | shortIndices hcount hless hbreaks =>
    have hwords := hbreaks.three_mul_le
    simp only [List.length_cons] at hsize
    omega

theorem length_le_utf8ByteSize (text : List Char) :
    text.length ≤ (String.ofList text).utf8ByteSize := by
  induction text with
  | nil => exact Nat.zero_le _
  | cons c rest ih =>
    have hcons : String.ofList (c :: rest) = String.singleton c ++ String.ofList rest := by
      rw [← String.toList_inj]
      simp
    have hpos := c.utf8Size_pos
    rw [hcons, String.utf8ByteSize_append, String.utf8ByteSize_singleton, List.length_cons]
    omega

theorem stepSections_eq_error_iff {text : List Char} {e : DocumentError} :
    stepSections text = .error e ↔
      ((words text).headD [] ≠ stepMagic.toList ∧
        e = .noMagic (String.ofList ((words text).headD []))) ∨
      ∃ rest sections left, nextWord? text = some (stepMagic.toList, rest) ∧
        SectionsRead (splitLine rest).2 sections left ∧ StepFault (words left) e := by
  cases hword : nextWord? text with
  | none =>
    have hmagic : [] ≠ stepMagic.toList := by decide
    simp [stepSections, hword, words_of_end hword, hmagic, eq_comm]
  | some next =>
    obtain ⟨word, rest⟩ := next
    by_cases hmagic : word = stepMagic.toList
    · subst hmagic
      simp [stepSections, hword, words_of_word hword, readSections_eq_error_iff]
    · simp [stepSections, hword, words_of_word hword, hmagic, eq_comm]

theorem readStep_eq_error_iff {text : List Char} {e : DocumentError} :
    readStep text = .error e ↔ stepSections text = .error e := by
  rw [readStep_eq]
  cases stepSections text with
  | error cause =>
    constructor <;>
    · intro h
      cases h
      rfl
  | ok sections => exact ⟨nofun, nofun⟩

/-- A section that cannot be read is reported from behind any complete blocks, with what it declares
and what there is of it, or with the word in place of its count. Nothing else goes wrong but the
magic word. -/
theorem readStep_errors :
    (∀ (header : StepHeader) (blocks : List StepBlock) (text : List Char) (e : DocumentError),
      StepFault (words text) e →
        readStep (header.text ++ '\n' :: (blocks.flatMap StepBlock.text ++ text)) = .error e) ∧
    (∀ (part : CountedSection) (found : String), (DocumentError.badCount part found).message =
      invalidFile .step ("invalid " ++ part.keyword ++ " count " ++ quoted found)) ∧
    (∀ (text : List Char) (e : DocumentError), readStep text = .error e ↔
      ((words text).headD [] ≠ stepMagic.toList ∧
        e = .noMagic (String.ofList ((words text).headD []))) ∨
      ∃ rest sections left, nextWord? text = some (stepMagic.toList, rest) ∧
        SectionsRead (splitLine rest).2 sections left ∧ StepFault (words left) e) ∧
    ∀ (text : List Char) (part : CountedSection) (declared parsed : Nat),
      (String.ofList text).utf8ByteSize < 2 ^ 63 →
        readStep text = .error (.shortSection part declared parsed) → parsed < declared := by
  refine ⟨fun header blocks text e hfault => ?_, fun _ _ => rfl,
    fun text e => readStep_eq_error_iff.trans stepSections_eq_error_iff,
    fun text part declared parsed hsize h => ?_⟩
  · rw [readStep_header_append, readSections_blocks_append, readSections_of_fault hfault]
    rfl
  · rcases stepSections_eq_error_iff.mp (readStep_eq_error_iff.mp h) with
      ⟨-, he⟩ | ⟨rest, sections, left, hmagic, hread, hfault⟩
    · cases he
    · have hleft : left <:+ text :=
        hread.suffix.trans ((splitLine_suffix rest).trans (nextWord?_suffix hmagic))
      have hwords := length_words_le left
      have hbytes := length_le_utf8ByteSize text
      have hshorter := hleft.length_le
      apply hfault.parsed_lt_declared
      rw [countLimit]
      omega

/-- The largest of all counts is declared, and after one triangle a number is negative. -/
theorem readStep_errors_saturated :
    readStep ("WOODSHOP_STEP 1.1\nNAME part 7\nINDICES\n7000000000000000000 0 1 2\n" ++
      "0 -1 3\nVERTICES 0\n").toList = .error (.shortSection .indices 0xffffffffffffffff 3) := by
  let part : StepBlock := .name ⟨" part 7".toList, by decide, by decide⟩
  let text := "INDICES\n7000000000000000000 0 1 2\n0 -1 3\nVERTICES 0\n".toList
  have hwords : words text = ["INDICES".toList, "7000000000000000000".toList, ['0'], ['1'], ['2'],
      ['0'], ['-', '1'], ['3'], "VERTICES".toList, ['0']] := by
    decide +kernel
  have hbreaks : BreaksOff readIndex 1
      [['0'], ['1'], ['2'], ['0'], ['-', '1'], ['3'], "VERTICES".toList, ['0']] := by
    refine ⟨[['0'], ['1'], ['2']], [['0'], ['-', '1'], ['3'], "VERTICES".toList, ['0']], rfl, rfl,
      by decide, ?_⟩
    rintro ⟨a, b, c, others, hsame, -, hnumber, -⟩
    cases hsame
    cases hnumber
  have hfault : StepFault (words text) (.shortSection .indices 0xffffffffffffffff 3) := by
    rw [hwords]
    exact .shortIndices (show readCount countLimit "7000000000000000000".toList =
      some 7000000000000000000 by decide +kernel) (by decide) hbreaks
  have hread := readStep_errors.1 .written [part] text _ hfault
  exact hread

end Facet
