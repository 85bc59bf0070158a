import Facet.Proofs.LongestRecords
import Facet.Proofs.StepNormals

namespace Facet

inductive ReadKind where
  | keyword
  | record

/-- How many words are read at once. -/
def ReadKind.width : ReadKind → Nat
  | keyword => 1
  | record => 3

/-- A keyword or a record that was read, with the text in front of which this was done and the text
that it left. -/
structure StepRead where
  kind : ReadKind
  ahead : List Char
  left : List Char

/-- A reader of records that notes where it succeeds. -/
def traced {α : Type} (read : List Char → Option (α × List Char)) (text : List Char) :
    Option ((α × StepRead) × List Char) :=
  (read text).map fun (record, left) => ((record, ⟨.record, text, left⟩), left)

/-- Reads the records of a section, and lists the reads also where the section is short. -/
def tracedSectionRecords (part : CountedSection) (count : Nat) (text : List Char) :
    Except DocumentError (StepSection × List Char) × List StepRead :=
  match part with
  | .vertices =>
    let (found, rest) := readRecords (traced readPoint) count text
    (if found.length = count then .ok (.vertices (found.map Prod.fst), rest)
      else .error (.shortSection part count found.length), found.map Prod.snd)
  | .indices =>
    let (found, rest) := readRecords (traced readTriangle) count text
    (if found.length = count then .ok (.indices (found.map Prod.fst), rest)
      else .error (.shortSection part (min (3 * count) countLimit) (3 * found.length)),
      found.map Prod.snd)
  | .normals =>
    let (found, rest) := readRecords (traced readPoint) count text
    (.ok (.normals count (found.map Prod.fst), rest), found.map Prod.snd)

def tracedSection (word text : List Char) :
    Except DocumentError (StepSection × List Char) × List StepRead :=
  match StepKeyword.ofWord word with
  | .name => (.ok (.name (trim (splitLine text).1), (splitLine text).2), [])
  | .unknown => (.ok (.unknown word, (splitLine text).2), [])
  | .counted part =>
    match readSectionCount part text with
    | .error e => (.error e, [])
    | .ok (count, rest) => tracedSectionRecords part count rest

theorem readRecords_traced {α : Type} (read : List Char → Option (α × List Char)) (n : Nat)
    (text : List Char) :
    readRecords read n text = Prod.map (List.map Prod.fst) id (readRecords (traced read) n text) := by
  induction n generalizing text with
  | zero => rfl
  | succ n ih =>
    cases hread : read text with
    | none => simp [readRecords, traced, hread]
    | some found => simp [readRecords, traced, hread, ih]

theorem tracedSectionRecords_fst (part : CountedSection) (count : Nat) (text : List Char) :
    (tracedSectionRecords part count text).1 = readSectionRecords part count text := by
  have hpoints := readRecords_traced readPoint count text
  have htriangles := readRecords_traced readTriangle count text
  cases part with
  | vertices => simp [tracedSectionRecords, readSectionRecords, hpoints]
  | indices => simp [tracedSectionRecords, readSectionRecords, htriangles]
  | normals => simp [tracedSectionRecords, readSectionRecords, hpoints]

theorem tracedSection_fst (word text : List Char) :
    (tracedSection word text).1 = readSection word text := by
  unfold tracedSection readSection
  cases StepKeyword.ofWord word with
  | name => rfl
  | unknown => rfl
  | counted part =>
    cases hcount : readSectionCount part text with
    | error e => simp only [hcount]
    | ok next =>
      simp only [hcount]
      exact tracedSectionRecords_fst part next.1 next.2

theorem readSection_of_traced {word text : List Char} {reads : List StepRead}
    {result : Except DocumentError (StepSection × List Char)}
    (h : tracedSection word text = (result, reads)) : readSection word text = result := by
  rw [← tracedSection_fst, h]

/-- Reads sections up to the end of the text, and lists the keywords and records that it gets. -/
def tracedSections (text : List Char) : Except DocumentError (List StepSection) × List StepRead :=
  match _hw : nextWord? text with
  | none => (.ok [], [])
  | some (word, rest) =>
    match _hs : tracedSection word rest with
    | (.error e, reads) => (.error e, ⟨.keyword, text, rest⟩ :: reads)
    | (.ok (found, after), reads) =>
      let (others, more) := tracedSections after
      (others.map (found :: ·), ⟨.keyword, text, rest⟩ :: (reads ++ more))
termination_by text.length
decreasing_by
  have := nextWord?_length_lt _hw
  have := readSection_length_le (readSection_of_traced _hs)
  omega

def tracedStep (text : List Char) : Except DocumentError Model × List StepRead :=
  let (word, rest) := (nextWord? text).getD ([], [])
  if word = stepMagic.toList then
    let (sections, reads) := tracedSections (splitLine rest).2
    (sections.map modelOfSections, reads)
  else (.error (.noMagic (String.ofList word)), [])

/-- What is read does not depend on whether it is noted. -/
theorem tracedSections_fst (text : List Char) : (tracedSections text).1 = readSections text := by
  fun_induction tracedSections text with
  | case1 text hword => rw [readSections_of_end hword]
  | case2 text word rest hword e reads hsection =>
    rw [readSections_of_error hword (readSection_of_traced hsection)]
  | case3 text word rest hword found after reads hsection others more hmore ih =>
    rw [hmore] at ih
    rw [readSections_of_section hword (readSection_of_traced hsection), ← ih]

theorem tracedStep_fst (text : List Char) : (tracedStep text).1 = readStep text := by
  cases hword : (nextWord? text).getD ([], []) with
  | mk word rest =>
    simp only [tracedStep, readStep, hword, ← tracedSections_fst]
    split <;> rfl

/-- Reads that follow each other in a text, each of them from where the one before it stopped or
from further on. -/
inductive ReadsThrough : List Char → List StepRead → List Char → Prop
  | stop {text left : List Char} (hleft : left <:+ text) : ReadsThrough text [] left
  | next {text left : List Char} {read : StepRead} {others : List StepRead}
      (hahead : read.ahead <:+ text) (hread : IsLeftBehind read.kind.width read.ahead read.left)
      (hothers : ReadsThrough read.left others left) : ReadsThrough text (read :: others) left

namespace ReadsThrough

variable {text left : List Char} {reads : List StepRead}

theorem of_suffix {start : List Char} (htext : text <:+ start) (h : ReadsThrough text reads left) :
    ReadsThrough start reads left := by
  cases h with
  | stop hleft => exact .stop (hleft.trans htext)
  | next hahead hread hothers => exact .next (hahead.trans htext) hread hothers

theorem append {middle : List Char} {others : List StepRead} (h : ReadsThrough text reads middle)
    (hothers : ReadsThrough middle others left) : ReadsThrough text (reads ++ others) left := by
  induction h with
  | stop hleft => exact hothers.of_suffix hleft
  | next hahead hread hrest ih => exact .next hahead hread (ih hothers)

theorem isLeftBehind (h : ReadsThrough text reads left) :
    ∀ read ∈ reads, IsLeftBehind read.kind.width read.ahead read.left := by
  induction h with
  | stop => exact nofun
  | next hahead hread hothers ih => exact List.forall_mem_cons.mpr ⟨hread, ih⟩

theorem ahead_suffix (h : ReadsThrough text reads left) : ∀ read ∈ reads, read.ahead <:+ text := by
  induction h with
  | stop => exact nofun
  | next hahead hread hothers ih =>
    refine List.forall_mem_cons.mpr ⟨hahead, fun later hlater => ?_⟩
    exact (ih later hlater).trans (hread.suffix.trans hahead)

/-- What is read once lies in front of everything that is read later. -/
theorem pairwise (h : ReadsThrough text reads left) :
    reads.Pairwise fun first second => second.ahead <:+ first.left := by
  induction h with
  | stop => exact List.Pairwise.nil
  | next hahead hread hothers ih => exact List.pairwise_cons.mpr ⟨hothers.ahead_suffix, ih⟩

/-- The words of all reads are words of the text, and what is left has words of its own. -/
theorem sum_width_le (h : ReadsThrough text reads left) :
    (reads.map (·.kind.width)).sum + (words left).length ≤ (words text).length := by
  induction h with
  | stop hleft =>
    rw [List.map_nil, List.sum_nil, Nat.zero_add]
    exact length_words_le_of_suffix hleft
  | @next text left read others hahead hread hothers ih =>
    have htext := length_words_le_of_suffix hahead
    have hunread := congrArg List.length hread.unread
    have henough := hread.enough
    rw [List.length_drop] at hunread
    rw [List.map_cons, List.sum_cons]
    omega

end ReadsThrough

section Loop

variable {α : Type} {read : List Char → Option (α × List Char)}

theorem readsThrough_readRecords
    (hread : ∀ {text left : List Char} {record : α}, read text = some (record, left) →
      IsLeftBehind 3 text left) (n : Nat) (text : List Char) :
    ReadsThrough text ((readRecords (traced read) n text).1.map Prod.snd)
      (readRecords read n text).2 := by
  induction n generalizing text with
  | zero => exact .stop List.suffix_rfl
  | succ n ih =>
    cases hrecord : read text with
    | none =>
      simp only [readRecords, traced, hrecord, Option.map_none]
      exact .stop List.suffix_rfl
    | some found =>
      obtain ⟨record, left⟩ := found
      simp only [readRecords, traced, hrecord, Option.map_some]
      exact .next List.suffix_rfl (hread hrecord) (ih left)

/-- One read is noted for each record. -/
theorem map_kind_readRecords (n : Nat) (text : List Char) :
    ((readRecords (traced read) n text).1.map Prod.snd).map StepRead.kind =
      List.replicate (readRecords read n text).1.length .record := by
  induction n generalizing text with
  | zero => rfl
  | succ n ih =>
    cases hrecord : read text with
    | none => simp [readRecords, traced, hrecord]
    | some found =>
      simp only [readRecords, traced, hrecord, Option.map_some, List.map_cons, List.length_cons,
        List.replicate_succ]
      exact congrArg _ (ih found.2)

end Loop

/-- How many records a section holds. -/
def StepSection.size : StepSection → Nat
  | vertices points => points.length
  | indices triangles => triangles.length
  | normals _ points => points.length
  | name _ | unknown _ => 0

theorem isLeftBehind_of_readPoint {text left : List Char} {p : Point}
    (h : readPoint text = some (p, left)) : IsLeftBehind 3 text left :=
  isLeftBehind_of_readTriple (readPoint_eq_some h)

theorem isLeftBehind_of_readTriangle {text left : List Char} {t : Triangle}
    (h : readTriangle text = some (t, left)) : IsLeftBehind 3 text left :=
  isLeftBehind_of_readTriple (readTriangle_eq_some h)

/-- The loop over the records of a section leaves what the section leaves. -/
theorem readsThrough_tracedSectionRecords (part : CountedSection) (count : Nat)
    (text : List Char) :
    ∃ left, ReadsThrough text (tracedSectionRecords part count text).2 left ∧
      ∀ found after, readSectionRecords part count text = .ok (found, after) → after = left ∧
        (tracedSectionRecords part count text).2.map StepRead.kind =
          List.replicate found.size .record := by
  have hpoints := readsThrough_readRecords isLeftBehind_of_readPoint count text
  have htriangles := readsThrough_readRecords isLeftBehind_of_readTriangle count text
  cases part with
  | vertices =>
    refine ⟨_, hpoints, fun found after h => ?_⟩
    simp only [readSectionRecords] at h
    split at h
    next =>
      cases Except.ok.inj h
      exact ⟨rfl, map_kind_readRecords count text⟩
    next => cases h
  | indices =>
    refine ⟨_, htriangles, fun found after h => ?_⟩
    simp only [readSectionRecords] at h
    split at h
    next =>
      cases Except.ok.inj h
      exact ⟨rfl, map_kind_readRecords count text⟩
    next => cases h
  | normals =>
    refine ⟨_, hpoints, fun found after h => ?_⟩
    cases Except.ok.inj h
    exact ⟨rfl, map_kind_readRecords count text⟩

theorem readSectionCount_suffix {part : CountedSection} {count : Nat} {text left : List Char}
    (h : readSectionCount part text = .ok (count, left)) : left <:+ text := by
  have hread := toOption_readSectionCount part text
  rw [h] at hread
  exact leavesSuffix_readNext _ hread.symm

theorem readsThrough_tracedSection (word text : List Char) :
    ∃ left, ReadsThrough text (tracedSection word text).2 left ∧
      ∀ found after, readSection word text = .ok (found, after) → after <:+ left ∧
        (tracedSection word text).2.map StepRead.kind = List.replicate found.size .record := by
  have hnothing : ReadsThrough text [] text := .stop List.suffix_rfl
  unfold tracedSection readSection
  cases StepKeyword.ofWord word with
  | name =>
    refine ⟨text, hnothing, fun found after h => ?_⟩
    cases Except.ok.inj h
    exact ⟨splitLine_suffix text, rfl⟩
  | unknown =>
    refine ⟨text, hnothing, fun found after h => ?_⟩
    cases Except.ok.inj h
    exact ⟨splitLine_suffix text, rfl⟩
  | counted part =>
    cases hcount : readSectionCount part text with
    | error e =>
      simp only [hcount]
      exact ⟨text, hnothing, nofun⟩
    | ok next =>
      obtain ⟨count, rest⟩ := next
      simp only [hcount]
      obtain ⟨left, hreads, hfound⟩ := readsThrough_tracedSectionRecords part count rest
      refine ⟨left, hreads.of_suffix (readSectionCount_suffix hcount), fun found after h => ?_⟩
      obtain ⟨rfl, hkinds⟩ := hfound found after h
      exact ⟨List.suffix_rfl, hkinds⟩

theorem readsThrough_tracedSections (text : List Char) :
    ∃ left, ReadsThrough text (tracedSections text).2 left := by
  fun_induction tracedSections text with
  | case1 text hword => exact ⟨text, .stop List.suffix_rfl⟩
  | case2 text word rest hword e reads hsection =>
    obtain ⟨left, hreads, -⟩ := readsThrough_tracedSection word rest
    rw [hsection] at hreads
    exact ⟨left, .next List.suffix_rfl (isLeftBehind_of_nextWord hword) hreads⟩
  | case3 text word rest hword found after reads hsection others more hmore ih =>
    obtain ⟨middle, hreads, hfound⟩ := readsThrough_tracedSection word rest
    obtain ⟨left, hlater⟩ := ih
    rw [hsection] at hreads
    rw [hmore] at hlater
    have hafter := (hfound found after (readSection_of_traced hsection)).1
    exact ⟨left, .next List.suffix_rfl (isLeftBehind_of_nextWord hword)
      (hreads.append (hlater.of_suffix hafter))⟩

/-- The reads of a document that is accepted: for each section its keyword and its records. -/
theorem map_kind_tracedSections (text : List Char) : ∀ sections,
    readSections text = .ok sections → (tracedSections text).2.map StepRead.kind =
      sections.flatMap fun found => .keyword :: List.replicate found.size .record := by
  fun_induction tracedSections text with
  | case1 text hword =>
    intro sections h
    rw [readSections_of_end hword] at h
    cases h
    rfl
  | case2 text word rest hword e reads hsection =>
    intro sections h
    rw [readSections_of_error hword (readSection_of_traced hsection)] at h
    cases h
  | case3 text word rest hword found after reads hsection others more hmore ih =>
    intro sections h
    have hread := readSection_of_traced hsection
    rw [readSections_of_section hword hread] at h
    cases hothers : readSections after with
    | error e => rw [hothers] at h; cases h
    | ok later =>
      rw [hothers] at h
      cases h
      obtain ⟨middle, -, hfound⟩ := readsThrough_tracedSection word rest
      have hkinds := (hfound found after hread).2
      have hlater := ih later hothers
      rw [hsection] at hkinds
      rw [hmore] at hlater
      simp only [List.map_append, List.map_cons, List.flatMap_cons, List.cons_append, hkinds,
        hlater]

theorem sum_width_sections (sections : List StepSection) :
    ((sections.flatMap fun found => .keyword :: List.replicate found.size .record).map
        ReadKind.width).sum =
      sections.length + 3 * (sections.map StepSection.size).sum := by
  induction sections with
  | nil => rfl
  | cons found sections ih =>
    simp only [List.flatMap_cons, List.map_append, List.map_cons, List.map_replicate,
      List.sum_append, List.sum_cons, List.sum_replicate, ReadKind.width, List.length_cons, ih,
      smul_eq_mul]
    omega

def StepDraft.size (draft : StepDraft) : Nat :=
  draft.vertices.length + draft.triangles.length + (draft.normals.getD []).length

theorem StepDraft.size_put_le (draft : StepDraft) (found : StepSection) :
    (draft.put found).size ≤ draft.size + found.size := by
  cases found <;> simp [StepDraft.put, StepDraft.size, StepSection.size] <;> omega

/-- The last sections of each kind hold no more than all sections together. -/
theorem StepDraft.size_foldl_put_le (sections : List StepSection) (draft : StepDraft) :
    (sections.foldl StepDraft.put draft).size ≤
      draft.size + (sections.map StepSection.size).sum := by
  induction sections generalizing draft with
  | nil => exact Nat.le_refl _
  | cons found sections ih =>
    have hput := draft.size_put_le found
    have hrest := ih (draft.put found)
    rw [List.foldl_cons, List.map_cons, List.sum_cons]
    omega

theorem size_draft_modelOfSections (sections : List StepSection) :
    (sections.foldl StepDraft.put {}).size =
      (modelOfSections sections).mesh.vertices.size +
        (modelOfSections sections).mesh.triangles.size +
        ((lastNormals sections).map fun given => given.2.length).getD 0 := by
  obtain ⟨-, hvertices, htriangles⟩ := (sections.foldl StepDraft.put {}).model_parts
  rw [modelOfSections, hvertices, htriangles, StepDraft.size, normals_foldl_put]
  cases lastNormals sections <;> rfl

theorem exists_readSections {text : List Char} {sections : List StepSection}
    (h : stepSections text = .ok sections) :
    ∃ rest, nextWord? text = some (stepMagic.toList, rest) ∧
      readSections (splitLine rest).2 = .ok sections := by
  cases hword : nextWord? text with
  | none =>
    simp only [stepSections, hword] at h
    cases h
  | some next =>
    obtain ⟨word, rest⟩ := next
    simp only [stepSections, hword, Option.getD_some] at h
    split at h
    next hmagic => exact ⟨rest, by rw [hmagic], h⟩
    next => cases h

/-- Nothing is read but behind the magic word. -/
theorem readsThrough_tracedStep (text : List Char) :
    ∃ left, ReadsThrough text (tracedStep text).2 left := by
  have hnothing : ReadsThrough text [] text := .stop List.suffix_rfl
  cases hword : nextWord? text with
  | none =>
    simp only [tracedStep, hword]
    exact ⟨text, hnothing⟩
  | some next =>
    obtain ⟨word, rest⟩ := next
    simp only [tracedStep, hword, Option.getD_some]
    split
    next =>
      obtain ⟨left, hreads⟩ := readsThrough_tracedSections (splitLine rest).2
      exact ⟨left, hreads.of_suffix ((splitLine_suffix rest).trans (nextWord?_suffix hword))⟩
    next => exact ⟨text, hnothing⟩

theorem length_le_sum_width (reads : List StepRead) :
    reads.length ≤ (reads.map (·.kind.width)).sum := by
  rw [← List.length_map (·.kind.width)]
  apply List.length_le_sum_of_one_le
  intro width hwidth
  obtain ⟨read, -, rfl⟩ := List.mem_map.mp hwidth
  cases read.kind <;> decide

theorem map_kind_tracedStep {text : List Char} {sections : List StepSection}
    (h : stepSections text = .ok sections) :
    (tracedStep text).2.map StepRead.kind =
      sections.flatMap fun found => .keyword :: List.replicate found.size .record := by
  obtain ⟨rest, hword, hsections⟩ := exists_readSections h
  simp only [tracedStep, hword, Option.getD_some, if_true]
  exact map_kind_tracedSections _ sections hsections

/-- The keywords and the records of all sections are words of their own, and so is the magic
word. -/
theorem sections_lt_words {text : List Char} {sections : List StepSection}
    (h : stepSections text = .ok sections) :
    sections.length + 3 * (sections.map StepSection.size).sum < (words text).length := by
  obtain ⟨rest, hword, hsections⟩ := exists_readSections h
  obtain ⟨left, hreads⟩ := readsThrough_tracedSections (splitLine rest).2
  have hkinds := map_kind_tracedSections (splitLine rest).2 sections hsections
  have hbody := hreads.sum_width_le
  have hrest := length_words_le_of_suffix (splitLine_suffix rest)
  have hwidths := List.map_map (f := StepRead.kind) (g := ReadKind.width)
    (l := (tracedSections (splitLine rest).2).2)
  rw [hkinds] at hwidths
  rw [words_of_word hword, List.length_cons, ← sum_width_sections, hwidths]
  exact Nat.lt_succ_of_le ((Nat.le_add_right _ _).trans (hbody.trans hrest))

/-- No part of a document is read twice, and what is read of it, a word for each keyword and three
for each record, is there: a section has no more records than the document has words for, whatever
it declares. -/
theorem readStep_reads_once (text : List Char) :
    (tracedStep text).1 = readStep text ∧
    (tracedStep text).2.length ≤ (words text).length ∧
    ((tracedStep text).2.Pairwise fun first second => second.ahead <:+ first.left) ∧
    (∀ read ∈ (tracedStep text).2, read.ahead <:+ text ∧
      IsLeftBehind read.kind.width read.ahead read.left) ∧
    ∀ m, readStep text = .ok m → ∃ sections, stepSections text = .ok sections ∧
      ((tracedStep text).2.map StepRead.kind =
        sections.flatMap fun found => .keyword :: List.replicate found.size .record) ∧
      3 * (m.mesh.vertices.size + m.mesh.triangles.size +
        ((lastNormals sections).map fun given => given.2.length).getD 0) + 1 ≤
          (words text).length := by
  obtain ⟨left, hreads⟩ := readsThrough_tracedStep text
  have hwidths := hreads.sum_width_le
  have hlength := length_le_sum_width (tracedStep text).2
  refine ⟨tracedStep_fst text, by omega, hreads.pairwise,
    fun read hread => ⟨hreads.ahead_suffix read hread, hreads.isLeftBehind read hread⟩,
    fun m hm => ?_⟩
  obtain ⟨sections, hsections, rfl⟩ := exists_stepSections hm
  have hwords := sections_lt_words hsections
  have hsize := StepDraft.size_foldl_put_le sections {}
  have hempty : ({} : StepDraft).size = 0 := rfl
  rw [size_draft_modelOfSections, hempty, Nat.zero_add] at hsize
  refine ⟨sections, hsections, map_kind_tracedStep hsections, ?_⟩
  omega

/-- Of 900 normals there is one, and the number behind it is given back. -/
theorem readStep_reads_once_oversized :
    ∃ m sections,
      readStep "WOODSHOP_STEP\nNORMALS 900 0 0 1 2\nVERTICES 2 0 0 0 1 0 0\n".toList = .ok m ∧
      stepSections "WOODSHOP_STEP\nNORMALS 900 0 0 1 2\nVERTICES 2 0 0 0 1 0 0\n".toList =
        .ok sections ∧
      (lastNormals sections).map (fun given => (given.1, given.2.length)) = some (900, 1) ∧
      3 * (m.mesh.vertices.size + m.mesh.triangles.size +
        ((lastNormals sections).map fun given => given.2.length).getD 0) + 1 ≤ 15 := by
  let text := "WOODSHOP_STEP\nNORMALS 900 0 0 1 2\nVERTICES 2 0 0 0 1 0 0\n".toList
  have haccepted : (readStep text).toOption.isSome = true := by
    decide +kernel
  have hgiven : (stepSections text).toOption.map (fun sections =>
      (lastNormals sections).map fun given => (given.1, given.2.length)) = some (some (900, 1)) := by
    decide +kernel
  have hwords : (words text).length = 15 := by
    decide +kernel
  obtain ⟨m, hm⟩ := Option.isSome_iff_exists.mp haccepted
  have hread := eq_ok_of_toOption hm
  obtain ⟨-, -, -, -, hall⟩ := readStep_reads_once text
  obtain ⟨sections, hsections, -, hbound⟩ := hall m hread
  rw [hsections] at hgiven
  rw [hwords] at hbound
  exact ⟨m, sections, hread, hsections, Option.some.inj hgiven, hbound⟩

/-- The keyword and the one record are read, and the document is refused all the same. -/
example : (tracedStep "WOODSHOP_STEP\nVERTICES 3 0 0 0 1".toList).2.length = 2 := by
  decide +kernel

end Facet
