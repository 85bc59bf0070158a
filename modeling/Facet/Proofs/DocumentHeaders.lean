import Facet.Proofs.IgesNames
import Facet.Proofs.StepErrors

namespace Facet

/-- The outcomes that reading a STEP document can have once its magic word is there. -/
inductive IsPastMagic : Except DocumentError Model → Prop
  | accepted (m : Model) : IsPastMagic (.ok m)
  | badCount (part : CountedSection) (found : String) : IsPastMagic (.error (.badCount part found))
  | shortSection (part : CountedSection) (declared parsed : Nat) :
    IsPastMagic (.error (.shortSection part declared parsed))

/-- The outcomes that reading an IGES document can have once its header is there. -/
inductive IsPastHeader : Except DocumentError Model → Prop
  | accepted (m : Model) : IsPastHeader (.ok m)
  | badRecord (kind : RecordKind) (line : Nat) : IsPastHeader (.error (.badRecord kind line))
  | missingGeometry (vertices faces : Nat) :
    IsPastHeader (.error (.missingGeometry vertices faces))

/-- The first line of a text without the blanks around it. -/
def firstLine (text : List Char) : List Char :=
  trim ((lines text).headD [])

theorem StepFault.isPastMagic {texts : List (List Char)} {e : DocumentError}
    (h : StepFault texts e) : IsPastMagic (.error e) := by
  cases h with
  | shortVertices hcount hless hbreaks => exact .shortSection _ _ _
  | shortIndices hcount hless hbreaks => exact .shortSection _ _ _
  | badCount part hcount => exact .badCount part _

theorem readStep_of_first_word {text : List Char} (h : (words text).headD [] ≠ stepMagic.toList) :
    readStep text = .error (.noMagic (String.ofList ((words text).headD []))) :=
  readStep_eq_error_iff.mpr (stepSections_eq_error_iff.mpr (.inl ⟨h, rfl⟩))

theorem isPastMagic_readStep_iff {text : List Char} :
    IsPastMagic (readStep text) ↔ (words text).headD [] = stepMagic.toList := by
  constructor
  · intro hpast
    by_contra hmagic
    rw [readStep_of_first_word hmagic] at hpast
    cases hpast
  · intro hmagic
    cases hread : readStep text with
    | ok m => exact .accepted m
    | error e =>
      rcases stepSections_eq_error_iff.mp (readStep_eq_error_iff.mp hread) with
        ⟨hword, -⟩ | ⟨rest, sections, left, -, -, hfault⟩
      · exact absurd hmagic hword
      · exact hfault.isPastMagic

theorem readIgesLines_error {draft : IgesDraft} {number : Nat} {texts : List (List Char)}
    {e : DocumentError} (h : readIgesLines draft number texts = .error e) :
    ∃ kind line, e = .badRecord kind line := by
  induction texts generalizing draft number with
  | nil => cases h
  | cons text texts ih =>
    rw [readIgesLines] at h
    split at h
    next => cases h
    next =>
      split at h
      next => exact ih h
      next => exact ih h
      next => exact ih h
      next kind _ =>
        cases h
        exact ⟨kind, number, rfl⟩
      next => exact ih h

theorem readIges_of_first_line {text : List Char} (h : firstLine text ≠ igesHeader.toList) :
    readIges text = .error (.noHeader (String.ofList (firstLine text))) :=
  if_neg h

theorem isPastHeader_readIges_iff {text : List Char} :
    IsPastHeader (readIges text) ↔ firstLine text = igesHeader.toList := by
  constructor
  · intro hpast
    by_contra hheader
    rw [readIges_of_first_line hheader] at hpast
    cases hpast
  · intro hheader
    rw [readIges_of_header hheader]
    cases hlines : readIgesLines {} 2 (lines text).tail with
    | error e =>
      obtain ⟨kind, line, rfl⟩ := readIgesLines_error hlines
      exact .badRecord kind line
    | ok draft =>
      rw [Except.bind, IgesDraft.model]
      split
      next => exact .missingGeometry _ _
      next => exact .accepted _

/-- No word of the text reaches beyond its first line. -/
theorem exists_eq_line_append (text : List Char) :
    ∃ rest, text = (lines text).headD [] ++ rest ∧ EndsWord rest := by
  by_cases hfeed : '\n' ∈ text
  · obtain ⟨front, rest, rfl, hfront⟩ := List.eq_append_cons_of_mem hfeed
    refine ⟨'\n' :: rest, ?_, endsWord_cons (by decide) rest⟩
    rw [lines, pieces_append hfront]
    rfl
  · have hline : lines (text ++ []) = [text ++ []] := pieces_append_of_not_mem hfeed rfl
    rw [List.append_nil] at hline
    refine ⟨[], ?_, isBlanks_nil.endsWord⟩
    rw [hline, List.append_nil]
    rfl

theorem words_eq_append_firstLine (text : List Char) :
    ∃ others, words text = words (firstLine text) ++ others := by
  obtain ⟨rest, htext, hrest⟩ := exists_eq_line_append text
  refine ⟨words rest, ?_⟩
  rw [firstLine, words_trim, ← words_append _ hrest, ← htext]

theorem first_word_of_header {text : List Char} (h : firstLine text = igesHeader.toList) :
    (words text).headD [] = "WOODSHOP_IGES".toList := by
  obtain ⟨others, hwords⟩ := words_eq_append_firstLine text
  have hheader : words igesHeader.toList = ["WOODSHOP_IGES".toList, "1.0".toList] := by
    decide +kernel
  rw [hwords, h, hheader]
  rfl

/-- Where one reader gets beyond the opening of a document, the other one refuses the opening. -/
theorem formats_disjoint (text : List Char) :
    (¬ ∃ m r, readStep text = .ok m ∧ readIges text = .ok r) ∧
    (IsPastMagic (readStep text) →
      readIges text = .error (.noHeader (String.ofList (firstLine text)))) ∧
    (IsPastHeader (readIges text) → readStep text = .error (.noMagic "WOODSHOP_IGES")) ∧
    (IsPastMagic (readStep text) ↔ (words text).headD [] = stepMagic.toList) ∧
    (IsPastHeader (readIges text) ↔ firstLine text = igesHeader.toList) ∧
    (∀ found, (DocumentError.noHeader found).message =
      invalidFile .iges ("expected header " ++ quoted igesHeader ++ ", found " ++ quoted found)) ∧
    ∀ found, (DocumentError.noMagic found).message =
      invalidFile .step ("expected " ++ stepMagic ++ " token, found " ++ quoted found) := by
  have hnames : "WOODSHOP_IGES".toList ≠ stepMagic.toList := by decide
  have higes : IsPastHeader (readIges text) → readStep text = .error (.noMagic "WOODSHOP_IGES") := by
    intro hpast
    have hword := first_word_of_header (isPastHeader_readIges_iff.mp hpast)
    have hread := readStep_of_first_word (hword.trans_ne hnames)
    rwa [hword] at hread
  have hstep : IsPastMagic (readStep text) →
      readIges text = .error (.noHeader (String.ofList (firstLine text))) := by
    intro hpast
    apply readIges_of_first_line
    intro hheader
    rw [higes (isPastHeader_readIges_iff.mpr hheader)] at hpast
    cases hpast
  refine ⟨?_, hstep, higes, isPastMagic_readStep_iff, isPastHeader_readIges_iff, fun _ => rfl,
    fun _ => rfl⟩
  rintro ⟨m, r, hm, hr⟩
  have hrefused := hstep (hm ▸ .accepted m)
  rw [hr] at hrefused
  cases hrefused

/-- The magic word may stand below the first line, and the header between blanks. -/
theorem formats_disjoint_indented :
    IsPastMagic (readStep "\n\n WOODSHOP_STEP 1.1\nVERTICES two\n".toList) ∧
    readIges "\n\n WOODSHOP_STEP 1.1\nVERTICES two\n".toList = .error (.noHeader "") ∧
    IsPastHeader (readIges "\t WOODSHOP_IGES 1.0\r\nVERTEX 0 0\n".toList) ∧
    readStep "\t WOODSHOP_IGES 1.0\r\nVERTEX 0 0\n".toList =
      .error (.noMagic "WOODSHOP_IGES") := by
  let below := "\n\n WOODSHOP_STEP 1.1\nVERTICES two\n".toList
  let between := "\t WOODSHOP_IGES 1.0\r\nVERTEX 0 0\n".toList
  have hmagic : IsPastMagic (readStep below) :=
    isPastMagic_readStep_iff.mpr (by decide +kernel)
  have hheader : IsPastHeader (readIges between) :=
    isPastHeader_readIges_iff.mpr (by decide +kernel)
  have hline : String.ofList (firstLine below) = "" := by decide +kernel
  have hrefused := (formats_disjoint below).2.1 hmagic
  rw [hline] at hrefused
  exact ⟨hmagic, hrefused, hheader, (formats_disjoint between).2.2.1 hheader⟩

end Facet
