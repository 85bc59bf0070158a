import Facet.Proofs.StepDamage
import Facet.Proofs.UnnoticedChanges

namespace Facet

theorem passes_nextWord?_append {gap : List Char} (hgap : IsBlanks gap) :
    Passes (· ++ gap) nextWord? := by
  intro text
  cases hword : nextWord? text with
  | none =>
    have hblank := (nextWord?_eq_none hword).append hgap
    have hnone := nextWord?_blanks_append hblank []
    rw [List.append_nil] at hnone
    exact hnone
  | some next =>
    obtain ⟨word, left⟩ := next
    obtain ⟨front, hfront, rfl, hsolid, hend⟩ := nextWord?_eq_some hword
    simp only [List.append_assoc, nextWord?_blanks_append hfront,
      nextWord?_word_append hsolid (hend.append hgap.endsWord)]
    rfl

/-- A document may end with its last line, or with a line feed behind it. -/
theorem isUnnoticed_append_feed : IsUnnoticed (· ++ ['\n']) := by
  refine ⟨passes_nextWord?_append (by decide), fun text => ?_, fun text => ?_⟩
  · by_cases hfeed : '\n' ∈ text
    · obtain ⟨first, rest, rfl, hfirst⟩ := List.eq_append_cons_of_mem hfeed
      simp only [List.append_assoc, List.cons_append, splitLine_append hfirst]
    · rw [splitLine_append hfeed, splitLine_of_not_mem hfeed]
  · by_cases hfeed : '\n' ∈ text
    · obtain ⟨first, rest, rfl, hfirst⟩ := List.eq_append_cons_of_mem hfeed
      refine .inl ?_
      simp only [List.append_assoc, List.cons_append, splitLine_append hfirst]
    · refine .inr ?_
      rw [splitLine_append hfeed, splitLine_of_not_mem hfeed]

/-- A document goes on with further sections behind a line end, if no number stands there. -/
theorem stepSections_append {text rest : List Char} (htext : EndsLine text)
    (hrest : NoNumberAhead rest) {earlier later : List StepSection}
    (hearlier : stepSections text = .ok earlier) (hlater : readSections rest = .ok later) :
    stepSections (text ++ rest) = .ok (earlier ++ later) := by
  cases hword : nextWord? text with
  | none =>
    simp only [stepSections, hword] at hearlier
    cases hearlier
  | some next =>
    obtain ⟨word, left⟩ := next
    have hleft := htext.of_suffix (nextWord?_suffix hword)
    have hline := hleft.splitLine_append (htext.ne_nil_of_word hword) rest
    simp only [stepSections, hword, htext.nextWord?_append hword rest, hline,
      Option.getD_some] at hearlier ⊢
    split at hearlier
    next hmagic =>
      have hjoined := readSections_append hrest (hleft.of_suffix (splitLine_suffix left))
      rw [hearlier, hlater] at hjoined
      rw [if_pos hmagic]
      exact eq_ok_of_toOption hjoined
    next => cases hearlier

/-- On a line that begins with a word other than a keyword nothing else is looked at. -/
theorem readSections_unknown_line {line : List Char} (hfeed : '\n' ∉ line)
    (hfirst : ∀ word ∈ (words line).head?, word ∉ stepKeywords) :
    ∃ keywords : List (List Char), readSections line = .ok (keywords.map .unknown) := by
  cases hword : nextWord? line with
  | none => exact ⟨[], readSections_of_end hword⟩
  | some next =>
    obtain ⟨word, left⟩ := next
    have hunknown : word ∉ stepKeywords := hfirst word (by rw [words_of_word hword]; rfl)
    have hleft : '\n' ∉ left := fun hmem => hfeed ((nextWord?_suffix hword).subset hmem)
    have hend : readSections (splitLine left).2 = .ok [] := by
      rw [splitLine_of_not_mem hleft, readSections_nil]
    refine ⟨[word], ?_⟩
    rw [readSections_of_section hword (readSection_unknown hunknown left), hend]
    rfl

theorem modelOfSections_append_unknown (sections : List StepSection) (keywords : List (List Char)) :
    modelOfSections (sections ++ keywords.map .unknown) = modelOfSections sections := by
  rw [modelOfSections, modelOfSections, List.foldl_append, foldl_put_unknown]

/-- A further line changes nothing in a document that is accepted, wherever the document ends, if
the line begins neither with a keyword nor with a number. -/
theorem readStep_append_line {text line : List Char} {m : Model} (h : readStep text = .ok m)
    (hfeed : '\n' ∉ line)
    (hfirst : ∀ word ∈ (words line).head?, word ∉ stepKeywords ∧ readFloat word = none) :
    readStep (text ++ '\n' :: line) = .ok m := by
  have hended : readStep (text ++ ['\n']) = .ok m := (isUnnoticed_append_feed.readStep text).trans h
  obtain ⟨sections, hsections, rfl⟩ := exists_stepSections hended
  obtain ⟨keywords, hline⟩ :=
    readSections_unknown_line hfeed fun word hword => (hfirst word hword).1
  have hnumber := noNumberAhead_of_first fun word hword => (hfirst word hword).2
  have hall := stepSections_append (endsLine_append_feed text) hnumber hsections hline
  rw [List.append_assoc, List.singleton_append] at hall
  rw [readStep_eq, hall]
  exact congrArg Except.ok (modelOfSections_append_unknown sections keywords)

/-- The document ends in the middle of a normal, and the line goes on with a keyword and a
number. -/
theorem readStep_append_line_short :
    ∃ m, readStep "WOODSHOP_STEP 1.1\nVERTICES 1 0 0 0\nNORMALS 2\n0 0 1 1 0".toList = .ok m ∧
      readStep ("WOODSHOP_STEP 1.1\nVERTICES 1 0 0 0\nNORMALS 2\n0 0 1 1 0\n" ++
        "UNITS 5 NAME x").toList = .ok m := by
  let text := "WOODSHOP_STEP 1.1\nVERTICES 1 0 0 0\nNORMALS 2\n0 0 1 1 0".toList
  have haccepted : (readStep text).toOption.isSome = true := by
    decide +kernel
  obtain ⟨m, hm⟩ := Option.isSome_iff_exists.mp haccepted
  have hread := eq_ok_of_toOption hm
  exact ⟨m, hread, @readStep_append_line _ "UNITS 5 NAME x".toList m hread (by decide)
    (by decide +kernel)⟩

end Facet
