import Facet.Proofs.StepFold
import Facet.Proofs.StepJoining
import Facet.Proofs.TextWords

namespace Facet

/-- What a draft says apart from normals. -/
def StepDraft.bare (draft : StepDraft) : StepDraft :=
  { draft with normals := none }

theorem StepDraft.bare_put (draft : StepDraft) (found : StepSection) :
    (draft.put found).bare = (draft.bare.put found).bare := by
  cases found <;> rfl

/-- Sections that follow are taken in alike by drafts that differ in their normals. -/
theorem StepDraft.bare_foldl_put_congr (sections : List StepSection) {a b : StepDraft}
    (h : a.bare = b.bare) :
    (sections.foldl StepDraft.put a).bare = (sections.foldl StepDraft.put b).bare := by
  induction sections generalizing a b with
  | nil => exact h
  | cons found sections ih =>
    apply ih
    rw [a.bare_put, b.bare_put, h]

theorem foldl_put_unknown (keywords : List (List Char)) (draft : StepDraft) :
    (keywords.map StepSection.unknown).foldl StepDraft.put draft = draft := by
  induction keywords with
  | nil => rfl
  | cons keyword keywords ih => exact ih

/-- A section with normals and the unknown lines behind it leave everything else as it is. -/
theorem bare_foldl_put_damaged (earlier later : List StepSection) (declared : Nat)
    (points : List Point) (keywords : List (List Char)) :
    ((earlier ++ StepSection.normals declared points ::
        (keywords.map StepSection.unknown ++ later)).foldl StepDraft.put {}).bare =
      ((earlier ++ later).foldl StepDraft.put {}).bare := by
  rw [List.foldl_append, List.foldl_append, List.foldl_cons, List.foldl_append, foldl_put_unknown]
  exact StepDraft.bare_foldl_put_congr later rfl

theorem StepDraft.model_congr {a b : StepDraft} (h : a.bare = b.bare) :
    a.model.name = b.model.name ∧ a.model.mesh.vertices = b.model.mesh.vertices ∧
      a.model.mesh.triangles = b.model.mesh.triangles := by
  obtain ⟨hname, hvertices, htriangles⟩ := a.model_parts
  obtain ⟨hname', hvertices', htriangles'⟩ := b.model_parts
  have hnames : a.bare.name = b.bare.name := congrArg name h
  have hpoints : a.bare.vertices = b.bare.vertices := congrArg vertices h
  have hfaces : a.bare.triangles = b.bare.triangles := congrArg triangles h
  refine ⟨?_, ?_, ?_⟩
  · rw [hname, hname']
    exact congrArg String.ofList hnames
  · rw [hvertices, hvertices']
    exact congrArg List.toArray hpoints
  · rw [htriangles, htriangles']
    exact congrArg List.toArray hfaces

theorem readSection_unknown {word : List Char} (h : word ∉ stepKeywords) (text : List Char) :
    readSection word text = .ok (.unknown word, (splitLine text).2) := by
  simp only [readSection, ofWord_of_not_mem h]

/-- A text without keywords is skipped line by line, wherever the reader comes upon it. -/
theorem readSections_of_no_keyword {text : List Char}
    (h : ∀ word ∈ words text, word ∉ stepKeywords) :
    ∃ keywords : List (List Char), readSections text = .ok (keywords.map .unknown) := by
  fun_induction readSections text with
  | case1 text hw => exact ⟨[], rfl⟩
  | case2 text word left hw e hs =>
    have hword : word ∉ stepKeywords := h word (by rw [words_of_word hw]; exact List.mem_cons_self)
    cases hs.symm.trans (readSection_unknown hword left)
  | case3 text word left hw found after hs ih =>
    rw [words_of_word hw] at h
    have hskip := readSection_unknown (h word List.mem_cons_self) left
    obtain ⟨rfl, rfl⟩ := Prod.mk.inj (Except.ok.inj (hs.symm.trans hskip))
    obtain ⟨keywords, hrest⟩ := ih fun other hother =>
      h other (List.mem_cons_of_mem word ((words_splitLine_suffix left).subset hother))
    exact ⟨word :: keywords, by rw [hrest]; rfl⟩

theorem noNumberAhead_of_first {text : List Char}
    (h : ∀ word ∈ (words text).head?, readFloat word = none) : NoNumberAhead text := by
  cases hword : nextWord? text with
  | none => simp [NoNumberAhead, readNext, hword]
  | some next =>
    obtain ⟨word, left⟩ := next
    have hnone : readFloat word = none := h word (by rw [words_of_word hword]; rfl)
    simp [NoNumberAhead, readNext, hword, hnone]

theorem noNumberAhead_of_keyword {text : List Char}
    (h : ∀ word ∈ (words text).head?, word ∈ stepKeywords) : NoNumberAhead text := by
  have hnone : ∀ word ∈ stepKeywords, readFloat word = none := by decide
  exact noNumberAhead_of_first fun word hword => hnone word (h word hword)

theorem EndsLine.feed_cons {text : List Char} (h : EndsLine text) : EndsLine ('\n' :: text) := by
  rcases List.eq_nil_or_concat text with rfl | ⟨front, c, htext⟩
  · exact endsLine_append_feed []
  · have hne : text ≠ [] := by simp [htext]
    obtain ⟨lead, rfl⟩ := h.eq_append_feed hne
    exact endsLine_append_feed ('\n' :: lead)

/-- The reader takes the records that it can and leaves whole words of the rest, up to the end of
the damaged part. -/
theorem readPoints_damaged_append (n : Nat) {junk later : List Char} (hline : EndsLine junk)
    (hlater : NoNumberAhead later) :
    ∃ points left, readRecords readPoint n ('\n' :: (junk ++ later)) = (points, left ++ later) ∧
      EndsLine left ∧ words left ⊆ words junk := by
  have hfeed : IsBlanks ['\n'] := by decide
  have hread := (stopsBefore_readPoint hlater).readRecords_append n hline.feed_cons
  have hsuffix := readRecords_suffix leavesSuffix_readPoint n ('\n' :: junk)
  have hwords := words_readRecords_suffix leavesSuffix_readPoint endsWord_of_readPoint n
    ('\n' :: junk)
  have hskip : words ('\n' :: junk) = words junk := words_blanks_append hfeed junk
  rw [hskip] at hwords
  exact ⟨_, _, hread, hline.feed_cons.of_suffix hsuffix, hwords.subset⟩

/-- What the reader makes of a damaged section: the records in front of the damage, and unknown
lines up to the next keyword. -/
theorem readSections_damaged_append {n : Nat} (hn : n ≤ countLimit) {junk later : List Char}
    (hline : EndsLine junk) (hjunk : ∀ word ∈ words junk, word ∉ stepKeywords)
    (hlater : NoNumberAhead later) {others : List StepSection}
    (hothers : readSections later = .ok others) :
    ∃ (points : List Point) (keywords : List (List Char)),
      readSections (line ("NORMALS ".toList ++ countText n) ++ (junk ++ later)) =
        .ok (.normals n points :: (keywords.map .unknown ++ others)) := by
  obtain ⟨points, left, hread, hleft, hwords⟩ := readPoints_damaged_append n hline hlater
  obtain ⟨keywords, hskipped⟩ :=
    readSections_of_no_keyword fun word hword => hjunk word (hwords hword)
  have hrest : readSections (left ++ later) = .ok (keywords.map .unknown ++ others) := by
    have hjoined := readSections_append hlater hleft
    rw [hskipped, hothers] at hjoined
    exact eq_ok_of_toOption hjoined
  have hcount : readSectionCount .normals (' ' :: (countText n ++ '\n' :: (junk ++ later))) =
      .ok (n, '\n' :: (junk ++ later)) := by
    have hfield := readSectionCount_field .normals (.count hn .feed)
      (show IsBlanks [' '] by decide) (junk ++ later)
    simpa [Field.text, Field.count, Gap.feed] using hfield
  have hsection : readSection CountedSection.normals.keyword.toList
      (' ' :: (countText n ++ '\n' :: (junk ++ later))) = .ok (.normals n points, left ++ later) := by
    simp only [readSection, ofWord_keyword, hcount, readSectionRecords, hread]
  have hword := nextWord?_word_append (isWord_keyword .normals)
    (endsWord_cons (show isBlank ' ' = true by decide) (countText n ++ '\n' :: (junk ++ later)))
  have htext : line ("NORMALS ".toList ++ countText n) ++ (junk ++ later) =
      CountedSection.normals.keyword.toList ++ ' ' :: (countText n ++ '\n' :: (junk ++ later)) := by
    simp [line, CountedSection.keyword]
  refine ⟨points, keywords, ?_⟩
  rw [htext, readSections_of_section hword hsection, hrest]
  rfl

/-- Whatever stands behind the count of a section with normals, short of another keyword, the rest
of the document is read as if the section were not there. -/
theorem readStep_damaged_normals (header : StepHeader) (before after : List StepBlock) {n : Nat}
    (hn : n ≤ countLimit) {junk : List Char} (hline : EndsLine junk)
    (hjunk : ∀ word ∈ words junk, word ∉ stepKeywords)
    (hafter : ∀ word ∈ (words (after.flatMap StepBlock.text)).head?, word ∈ stepKeywords) :
    ∃ m r,
      readStep (header.text ++ '\n' :: (before.flatMap StepBlock.text ++
        (line ("NORMALS ".toList ++ countText n) ++ (junk ++ after.flatMap StepBlock.text)))) =
          .ok m ∧
      readStep (header.text ++ '\n' ::
        (before.flatMap StepBlock.text ++ after.flatMap StepBlock.text)) = .ok r ∧
      m.name = r.name ∧ m.mesh.vertices = r.mesh.vertices ∧
      m.mesh.triangles = r.mesh.triangles := by
  obtain ⟨points, keywords, hdamaged⟩ := readSections_damaged_append hn hline hjunk
    (noNumberAhead_of_keyword hafter) (readSections_blocks after)
  let earlier := before.flatMap StepBlock.sections
  let later := after.flatMap StepBlock.sections
  refine ⟨modelOfSections (earlier ++ .normals n points :: (keywords.map .unknown ++ later)),
    modelOfSections (earlier ++ later), ?_, ?_, ?_⟩
  · rw [readStep_header_append, readSections_blocks_append, hdamaged]
    rfl
  · rw [readStep_header_append, readSections_blocks_append, readSections_blocks]
    rfl
  · exact StepDraft.model_congr (bare_foldl_put_damaged earlier later n points keywords)

/-- The second record breaks off in the middle of a line, which hides neither the rest of the damage
nor the name behind it. -/
theorem readStep_damaged_normals_mid_line :
    ∃ m r,
      readStep ("WOODSHOP_STEP 1.1\nVERTICES 1\n0 0 0\nNORMALS 3\n1 0 0 2 x\n" ++
        "5 5\nVERTICES: 0\nNAME part 7\n").toList = .ok m ∧
      readStep "WOODSHOP_STEP 1.1\nVERTICES 1\n0 0 0\nNAME part 7\n".toList = .ok r ∧
      m.name = r.name ∧ m.mesh.vertices = r.mesh.vertices ∧
      m.mesh.triangles = r.mesh.triangles := by
  let origin : StepBlock :=
    .vertices (.ofRecords Triple.ofPoint (show [Point.zero].length ≤ countLimit by decide))
  let part : StepBlock := .name ⟨" part 7".toList, by decide, by decide⟩
  let junk := "1 0 0 2 x\n5 5\nVERTICES: 0\n".toList
  have horigin : origin.text = "VERTICES 1\n0 0 0\n".toList := by decide +kernel
  have hpart : part.text = "NAME part 7\n".toList := by decide +kernel
  have hline : EndsLine junk := endsLine_append_feed "1 0 0 2 x\n5 5\nVERTICES: 0".toList
  have hread := readStep_damaged_normals .written [origin] [part] (show 3 ≤ countLimit by decide)
    hline (by decide +kernel) (by decide +kernel)
  simp only [List.flatMap_singleton, horigin, hpart] at hread
  exact hread

end Facet
