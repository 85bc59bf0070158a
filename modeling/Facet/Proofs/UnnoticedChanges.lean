import Facet.Proofs.StepLayout
import Facet.Proofs.UnreadText

namespace Facet

/-- A reader that takes the same from a changed text and leaves the change in the rest. -/
def Passes (change : List Char → List Char) {α : Type}
    (read : List Char → Option (α × List Char)) : Prop :=
  ∀ text, read (change text) = (read text).map (Prod.map id change)

/-- A change that shows neither between words nor at the ends of lines. Where it stands on a line
that is cut off, it may go with the line. -/
structure IsUnnoticed (change : List Char → List Char) : Prop where
  word : Passes change nextWord?
  line : ∀ text, trim (splitLine (change text)).1 = trim (splitLine text).1
  rest : ∀ text, (splitLine (change text)).2 = change (splitLine text).2 ∨
    (splitLine (change text)).2 = (splitLine text).2

section Combining

variable {change : List Char → List Char} {α β : Type}

theorem Passes.eq_some {read : List Char → Option (α × List Char)} (h : Passes change read)
    {text left : List Char} {a : α} (hread : read text = some (a, left)) :
    read (change text) = some (a, change left) := by
  rw [h text, hread]
  rfl

theorem Passes.eq_none {read : List Char → Option (α × List Char)} (h : Passes change read)
    {text : List Char} (hread : read text = none) : read (change text) = none := by
  rw [h text, hread]
  rfl

theorem passes_some (a : α) : Passes change (fun text => some (a, text)) :=
  fun _ => rfl

theorem Passes.bind {read : List Char → Option (α × List Char)}
    {next : α → List Char → Option (β × List Char)} (hread : Passes change read)
    (hnext : ∀ a, Passes change (next a)) :
    Passes change (fun text => (read text).bind fun found => next found.1 found.2) := by
  intro text
  simp only [hread text]
  cases read text with
  | none => rfl
  | some found => exact hnext found.1 found.2

theorem Passes.map {read : List Char → Option (α × List Char)} (hread : Passes change read)
    (f : α → β) : Passes change (fun text => (read text).map (Prod.map f id)) := by
  intro text
  simp only [hread text]
  cases read text <;> rfl

theorem Passes.readRecords {read : List Char → Option (α × List Char)} (h : Passes change read)
    (n : Nat) (text : List Char) :
    Facet.readRecords read n (change text) =
      Prod.map id change (Facet.readRecords read n text) := by
  induction n generalizing text with
  | zero => rfl
  | succ n ih =>
    rw [Facet.readRecords, Facet.readRecords, h text]
    cases read text with
    | none => rfl
    | some found => simp only [Option.map_some, Prod.map, id, ih]

end Combining

section Words

variable {change : List Char → List Char} (h : Passes change nextWord?)
include h

theorem passes_readNext {α : Type} (read : List Char → Option α) :
    Passes change (readNext read) := by
  intro text
  have hnext := h text
  cases hword : nextWord? text with
  | none => simp [readNext, hnext, hword]
  | some next =>
    obtain ⟨word, left⟩ := next
    cases hvalue : read word <;> simp [readNext, hnext, hword, hvalue]

theorem passes_readTriple {α : Type} (read : List Char → Option α) :
    Passes change (readTriple read) := by
  have hnext := passes_readNext h read
  exact hnext.bind fun a => hnext.bind fun b => hnext.bind fun c => passes_some (a, b, c)

theorem passes_readPoint : Passes change readPoint :=
  (passes_readTriple h readFloat).map fun (v : Float × Float × Float) =>
    (⟨v.1, v.2.1, v.2.2⟩ : Point)

theorem passes_readTriangle : Passes change readTriangle :=
  (passes_readTriple h readIndex).map fun (t : UInt32 × UInt32 × UInt32) =>
    (⟨t.1, t.2.1, t.2.2⟩ : Triangle)

theorem readSectionCount_change (part : CountedSection) (text : List Char) :
    readSectionCount part (change text) =
      (readSectionCount part text).map (Prod.map id change) := by
  have hnext := h text
  cases hword : nextWord? text with
  | none =>
    have hnone : readCount countLimit [] = none := rfl
    simp only [readSectionCount, hnext, hword, Option.map_none, Option.getD_none, hnone]
    rfl
  | some next =>
    obtain ⟨word, left⟩ := next
    simp only [readSectionCount, hnext, hword, Option.map_some, Option.getD_some, Prod.map, id]
    cases readCount countLimit word <;> rfl

theorem readSectionRecords_change (part : CountedSection) (count : Nat) (text : List Char) :
    readSectionRecords part count (change text) =
      (readSectionRecords part count text).map (Prod.map id change) := by
  have hpoints := (passes_readPoint h).readRecords count text
  have htriangles := (passes_readTriangle h).readRecords count text
  cases part with
  | vertices =>
    simp only [readSectionRecords, hpoints, Prod.map_fst, Prod.map_snd, id]
    split <;> rfl
  | indices =>
    simp only [readSectionRecords, htriangles, Prod.map_fst, Prod.map_snd, id]
    split <;> rfl
  | normals =>
    simp only [readSectionRecords, hpoints, Prod.map_fst, Prod.map_snd, id]
    rfl

end Words

namespace IsUnnoticed

variable {change : List Char → List Char}

/-- A section is read as the same one, and the change is left in the rest, or nothing of it. -/
theorem readSection (h : IsUnnoticed change) (word text : List Char) :
    readSection word (change text) = (readSection word text).map (Prod.map id change) ∨
      readSection word (change text) = readSection word text := by
  unfold Facet.readSection
  cases StepKeyword.ofWord word with
  | name =>
    simp only [h.line]
    rcases h.rest text with hrest | hrest
    · exact .inl (by rw [hrest]; rfl)
    · exact .inr (by rw [hrest])
  | unknown =>
    simp only
    rcases h.rest text with hrest | hrest
    · exact .inl (by rw [hrest]; rfl)
    · exact .inr (by rw [hrest])
  | counted part =>
    refine .inl ?_
    simp only [readSectionCount_change h.word]
    cases readSectionCount part text with
    | error e => rfl
    | ok found => exact readSectionRecords_change h.word part found.1 found.2

theorem readSections (h : IsUnnoticed change) (text : List Char) :
    readSections (change text) = readSections text := by
  fun_induction Facet.readSections text with
  | case1 text hword => exact readSections_of_end (h.word.eq_none hword)
  | case2 text word left hword e hsection =>
    have hfound : Facet.readSection word (change left) = .error e := by
      rcases h.readSection word left with hfound | hfound
      · rw [hfound, hsection]
        rfl
      · rw [hfound, hsection]
    exact readSections_of_error (h.word.eq_some hword) hfound
  | case3 text word left hword found after hsection ih =>
    have hnext := h.word.eq_some hword
    rcases h.readSection word left with hfound | hfound
    · rw [hsection] at hfound
      rw [readSections_of_section hnext hfound, ih]
      rfl
    · rw [hsection] at hfound
      rw [readSections_of_section hnext hfound]

theorem readStep (h : IsUnnoticed change) (text : List Char) :
    readStep (change text) = readStep text := by
  cases hword : nextWord? text with
  | none => simp [Facet.readStep, h.word.eq_none hword, hword]
  | some next =>
    obtain ⟨word, left⟩ := next
    have hrest : Facet.readSections (splitLine (change left)).2 =
        Facet.readSections (splitLine left).2 := by
      rcases h.rest left with hrest | hrest
      · rw [hrest, h.readSections]
      · rw [hrest]
    simp [Facet.readStep, h.word.eq_some hword, hword, hrest]

end IsUnnoticed

end Facet
