import Facet.Proofs.NumberText
import Facet.Proofs.StepLayout
import Facet.Proofs.Trimming
import Facet.Proofs.UnreadText

namespace Facet

theorem toOption_readSectionCount (part : CountedSection) (text : List Char) :
    (readSectionCount part text).toOption = readNext (readCount countLimit) text := by
  cases hw : nextWord? text with
  | none => simp [readSectionCount, readNext, hw]; rfl
  | some next =>
    obtain ⟨word, left⟩ := next
    cases hc : readCount countLimit word <;> simp [readSectionCount, readNext, hw, hc] <;> rfl

/-- Everything that a counted section can be read as. -/
theorem readSectionRecords_eq_ok {part : CountedSection} {count : Nat} {text left : List Char}
    {found : StepSection} (h : readSectionRecords part count text = .ok (found, left)) :
    (∃ points, found = .vertices points ∧ points.length = count ∧
      readRecords readPoint count text = (points, left)) ∨
    (∃ triangles, found = .indices triangles ∧ triangles.length = count ∧
      readRecords readTriangle count text = (triangles, left)) ∨
    (∃ points, found = .normals count points ∧
      readRecords readPoint count text = (points, left)) := by
  cases part with
  | vertices =>
    simp only [readSectionRecords] at h
    split at h
    next hfull =>
      cases Except.ok.inj h
      exact Or.inl ⟨_, rfl, hfull, rfl⟩
    next => cases h
  | indices =>
    simp only [readSectionRecords] at h
    split at h
    next hfull =>
      cases Except.ok.inj h
      exact Or.inr (Or.inl ⟨_, rfl, hfull, rfl⟩)
    next => cases h
  | normals =>
    cases Except.ok.inj h
    exact Or.inr (Or.inr ⟨_, rfl, rfl⟩)

/-- Everything that a section can be read as. -/
theorem readSection_eq_ok {word text left : List Char} {found : StepSection}
    (h : readSection word text = .ok (found, left)) :
    (found = .name (trim (splitLine text).1) ∧ left = (splitLine text).2) ∨
    (found = .unknown word ∧ left = (splitLine text).2) ∨
    (∃ part count middle, readNext (readCount countLimit) text = some (count, middle) ∧
      readSectionRecords part count middle = .ok (found, left)) := by
  unfold readSection at h
  split at h
  next =>
    cases Except.ok.inj h
    exact Or.inl ⟨rfl, rfl⟩
  next =>
    cases Except.ok.inj h
    exact Or.inr (Or.inl ⟨rfl, rfl⟩)
  next part _ =>
    split at h
    next => cases h
    next count middle hcount =>
      refine Or.inr (Or.inr ⟨part, count, middle, ?_, h⟩)
      rw [← toOption_readSectionCount part, hcount]
      rfl

theorem readSectionRecords_suffix {part : CountedSection} {count : Nat} {text left : List Char}
    {found : StepSection} (h : readSectionRecords part count text = .ok (found, left)) :
    left <:+ text := by
  have hpoints := readRecords_suffix leavesSuffix_readPoint count text
  have htriangles := readRecords_suffix leavesSuffix_readTriangle count text
  rcases readSectionRecords_eq_ok h with
    ⟨points, -, -, hread⟩ | ⟨triangles, -, -, hread⟩ | ⟨points, -, hread⟩
  · rwa [hread] at hpoints
  · rwa [hread] at htriangles
  · rwa [hread] at hpoints

theorem readSection_suffix {word text left : List Char} {found : StepSection}
    (h : readSection word text = .ok (found, left)) : left <:+ text := by
  rcases readSection_eq_ok h with ⟨-, rfl⟩ | ⟨-, rfl⟩ | ⟨part, count, middle, hcount, hrecords⟩
  · exact splitLine_suffix text
  · exact splitLine_suffix text
  · exact (readSectionRecords_suffix hrecords).trans (leavesSuffix_readNext _ hcount)

/-- What holds of each section that is read. -/
def StepSection.WellFormed : StepSection → Prop
  | name text => '\n' ∉ text ∧ trim text = text
  | vertices points => points.length ≤ countLimit
  | indices triangles => triangles.length ≤ countLimit
  | normals declared points => points.length ≤ declared
  | unknown _ => True

theorem readNext_count_le {limit count : Nat} {text left : List Char}
    (h : readNext (readCount limit) text = some (count, left)) : count ≤ limit := by
  obtain ⟨word, -, hcount⟩ := readNext_eq_some h
  exact readCount_le hcount

theorem readSectionRecords_wellFormed {part : CountedSection} {count : Nat} {text left : List Char}
    {found : StepSection} (hcount : count ≤ countLimit)
    (h : readSectionRecords part count text = .ok (found, left)) : found.WellFormed := by
  rcases readSectionRecords_eq_ok h with
    ⟨points, rfl, hfull, -⟩ | ⟨triangles, rfl, hfull, -⟩ | ⟨points, rfl, hread⟩
  · exact hfull.trans_le hcount
  · exact hfull.trans_le hcount
  · have hle := length_readRecords_le readPoint count text
    rwa [hread] at hle

theorem feed_not_mem_splitLine (text : List Char) : '\n' ∉ (splitLine text).1 := by
  intro hfeed
  have hall := List.all_eq_true.mp List.all_takeWhile '\n' hfeed
  exact absurd hall (by decide)

theorem readSection_wellFormed {word text left : List Char} {found : StepSection}
    (h : readSection word text = .ok (found, left)) : found.WellFormed := by
  rcases readSection_eq_ok h with ⟨rfl, -⟩ | ⟨rfl, -⟩ | ⟨part, count, middle, hcount, hrecords⟩
  · exact ⟨fun hfeed => feed_not_mem_splitLine text (mem_of_mem_trim hfeed), trim_trim _⟩
  · trivial
  · exact readSectionRecords_wellFormed (readNext_count_le hcount) hrecords

theorem readSections_wellFormed {text : List Char} {sections : List StepSection}
    (h : readSections text = .ok sections) : ∀ found ∈ sections, found.WellFormed := by
  fun_induction readSections text generalizing sections with
  | case1 text hw =>
    cases Except.ok.inj h
    intro found hfound
    cases hfound
  | case2 text word left hw e hs => cases h
  | case3 text word left hw found after hs ih =>
    cases hrest : readSections after with
    | error e => rw [hrest] at h; cases h
    | ok others =>
      rw [hrest] at h
      cases Except.ok.inj h
      rintro other (_ | ⟨_, hother⟩)
      · exact readSection_wellFormed hs
      · exact ih hrest other hother

/-- The sections that a document is read as. -/
def stepSections (text : List Char) : Except DocumentError (List StepSection) :=
  let (word, rest) := (nextWord? text).getD ([], [])
  if word = stepMagic.toList then readSections (splitLine rest).2
  else .error (.noMagic (String.ofList word))

theorem readStep_eq (text : List Char) : readStep text = (stepSections text).map modelOfSections := by
  cases hword : (nextWord? text).getD ([], []) with
  | mk word rest =>
    simp only [readStep, stepSections, hword]
    split <;> rfl

theorem exists_stepSections {text : List Char} {m : Model} (h : readStep text = .ok m) :
    ∃ sections, stepSections text = .ok sections ∧ m = modelOfSections sections := by
  rw [readStep_eq] at h
  cases hs : stepSections text with
  | error e => rw [hs] at h; cases h
  | ok sections =>
    rw [hs] at h
    exact ⟨sections, rfl, (Except.ok.inj h).symm⟩

theorem stepSections_wellFormed {text : List Char} {sections : List StepSection}
    (h : stepSections text = .ok sections) : ∀ found ∈ sections, found.WellFormed := by
  cases hword : (nextWord? text).getD ([], []) with
  | mk word rest =>
    simp only [stepSections, hword] at h
    split at h
    next => exact readSections_wellFormed h
    next => cases h

end Facet
