import Facet.Proofs.LineEnds
import Facet.Proofs.StepSections

namespace Facet

theorem readSectionRecords_append {rest : List Char} (h : NoNumberAhead rest)
    (part : CountedSection) (count : Nat) {text : List Char} (htext : EndsLine text) :
    readSectionRecords part count (text ++ rest) =
      (readSectionRecords part count text).map (Prod.map id (· ++ rest)) := by
  have hpoints := (stopsBefore_readPoint h).readRecords_append count htext
  have htriangles := (stopsBefore_readTriangle h).readRecords_append count htext
  cases part with
  | vertices =>
    simp only [readSectionRecords, hpoints]
    split <;> rfl
  | indices =>
    simp only [readSectionRecords, htriangles]
    split <;> rfl
  | normals =>
    simp only [readSectionRecords, hpoints]
    rfl

theorem stopsBefore_readSectionRecords {rest : List Char} (h : NoNumberAhead rest)
    (part : CountedSection) (count : Nat) :
    StopsBefore rest (fun text => (readSectionRecords part count text).toOption) := by
  constructor
  · intro text left found hread
    exact readSectionRecords_suffix (eq_ok_of_toOption hread)
  · intro text htext
    simp only [readSectionRecords_append h part count htext]
    cases readSectionRecords part count text <;> rfl

theorem toOption_readSection_counted {word : List Char} {part : CountedSection}
    (hkind : StepKeyword.ofWord word = .counted part) (text : List Char) :
    (readSection word text).toOption = (readNext (readCount countLimit) text).bind fun found =>
      (readSectionRecords part found.1 found.2).toOption := by
  rw [← toOption_readSectionCount part]
  simp only [readSection, hkind]
  cases readSectionCount part text <;> rfl

theorem readSection_append {rest : List Char} (h : NoNumberAhead rest) (word : List Char)
    {text : List Char} (htext : EndsLine text) (hne : text ≠ []) :
    (readSection word (text ++ rest)).toOption =
      (readSection word text).toOption.map (Prod.map id (· ++ rest)) := by
  have hline := htext.splitLine_append hne rest
  cases hkind : StepKeyword.ofWord word with
  | name =>
    simp only [readSection, hkind, hline]
    rfl
  | unknown =>
    simp only [readSection, hkind, hline]
    rfl
  | counted part =>
    have hcount := stopsBefore_readNext (h.readNext_eq_none (readCount_eq_none · countLimit))
    have hreader := hcount.bind fun count => stopsBefore_readSectionRecords h part count
    rw [toOption_readSection_counted hkind, toOption_readSection_counted hkind]
    exact hreader.append htext

theorem toOption_readSections {text word left : List Char}
    (hword : nextWord? text = some (word, left)) :
    (readSections text).toOption = (readSection word left).toOption.bind fun found =>
      (readSections found.2).toOption.map (found.1 :: ·) := by
  cases hs : readSection word left with
  | error e =>
    rw [readSections_of_error hword hs]
    rfl
  | ok found =>
    rw [readSections_of_section hword hs]
    change _ = (readSections found.2).toOption.map (found.1 :: ·)
    cases readSections found.2 <;> rfl

/-- A text that goes on, behind a line end, with a word that is no number is read in two parts:
no reader that is at work in the first part reaches into the second. -/
theorem readSections_append {rest : List Char} (h : NoNumberAhead rest) {text : List Char}
    (htext : EndsLine text) :
    (readSections (text ++ rest)).toOption = (readSections text).toOption.bind fun earlier =>
      (readSections rest).toOption.map (earlier ++ ·) := by
  fun_induction readSections text with
  | case1 text hw =>
    rw [readSections_blanks_append (nextWord?_eq_none hw)]
    cases readSections rest <;> rfl
  | case2 text word left hw e hs =>
    have hsection := readSection_append h word (htext.of_suffix (nextWord?_suffix hw))
      (htext.ne_nil_of_word hw)
    rw [toOption_readSections (htext.nextWord?_append hw rest), hsection, hs]
    rfl
  | case3 text word left hw found after hs ih =>
    have hleft := htext.of_suffix (nextWord?_suffix hw)
    have hsection := readSection_append h word hleft (htext.ne_nil_of_word hw)
    have hlater := ih (hleft.of_suffix (readSection_suffix hs))
    rw [toOption_readSections (htext.nextWord?_append hw rest), hsection, hs]
    change (readSections (after ++ rest)).toOption.map (found :: ·) = _
    rw [hlater]
    cases readSections after with
    | error e => rfl
    | ok earlier => cases readSections rest <;> rfl

end Facet
