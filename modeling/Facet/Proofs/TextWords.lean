import Facet.Proofs.Trimming
import Facet.Proofs.UnreadText

namespace Facet

/-- The words of a text in their order. -/
def words (text : List Char) : List (List Char) :=
  match _h : nextWord? text with
  | none => []
  | some (word, rest) => word :: words rest
termination_by text.length
decreasing_by exact nextWord?_length_lt _h

theorem words_of_end {text : List Char} (h : nextWord? text = none) : words text = [] := by
  rw [words]
  split
  next => rfl
  next hword => cases h.symm.trans hword

theorem words_nil : words [] = [] :=
  words_of_end rfl

theorem words_of_word {text word rest : List Char} (h : nextWord? text = some (word, rest)) :
    words text = word :: words rest := by
  rw [words]
  split
  next hnone => cases h.symm.trans hnone
  next hword =>
    obtain ⟨rfl, rfl⟩ := Prod.mk.inj (Option.some.inj (h.symm.trans hword))
    rfl

theorem words_blanks_append {gap : List Char} (hgap : IsBlanks gap) (text : List Char) :
    words (gap ++ text) = words text := by
  have hsame := nextWord?_blanks_append hgap text
  cases hw : nextWord? text with
  | none => rw [words_of_end hw, words_of_end (hsame.trans hw)]
  | some next => rw [words_of_word hw, words_of_word (hsame.trans hw)]

theorem EndsWord.append {a b : List Char} (ha : EndsWord a) (hb : EndsWord b) :
    EndsWord (a ++ b) := by
  cases a with
  | nil => exact hb
  | cons c rest => exact endsWord_cons (ha c rfl) (rest ++ b)

theorem EndsWord.of_append {front rest : List Char} (h : EndsWord (front ++ rest)) :
    EndsWord front := by
  cases front with
  | nil => exact nofun
  | cons c front => exact endsWord_cons (h c rfl) front

/-- No word reaches from one part into the other if the second part begins with a blank. -/
theorem words_append (text : List Char) {rest : List Char} (h : EndsWord rest) :
    words (text ++ rest) = words text ++ words rest := by
  fun_induction words text with
  | case1 text hnone => exact words_blanks_append (nextWord?_eq_none hnone) rest
  | case2 text word left hword ih =>
    obtain ⟨gap, hgap, rfl, hsolid, hend⟩ := nextWord?_eq_some hword
    have hnext : nextWord? (gap ++ (word ++ left) ++ rest) = some (word, left ++ rest) := by
      rw [List.append_assoc, List.append_assoc, nextWord?_blanks_append hgap]
      exact nextWord?_word_append hsolid (hend.append h)
    rw [words_of_word hnext, ih, List.cons_append]

theorem words_suffix {text left : List Char} (h : left <:+ text) (hend : EndsWord left) :
    words left <:+ words text := by
  obtain ⟨front, rfl⟩ := h
  rw [words_append front hend]
  exact List.suffix_append _ _

theorem words_splitLine_suffix (text : List Char) : words (splitLine text).2 <:+ words text := by
  by_cases hfeed : '\n' ∈ text
  · obtain ⟨first, rest, rfl, hfirst⟩ := List.eq_append_cons_of_mem hfeed
    have hgap : IsBlanks ['\n'] := by decide
    have hskip : words ('\n' :: rest) = words rest := words_blanks_append hgap rest
    rw [splitLine_append hfirst, ← hskip]
    exact words_suffix (List.suffix_append first _) (endsWord_cons (by decide) rest)
  · rw [splitLine_of_not_mem hfeed, words_nil]
    exact List.nil_suffix

theorem words_of_isBlanks {text : List Char} (h : IsBlanks text) : words text = [] := by
  have hskip := words_blanks_append h []
  rwa [List.append_nil, words_nil] at hskip

theorem IsBlanks.endsWord {text : List Char} (h : IsBlanks text) : EndsWord text :=
  fun c hc => h c (List.mem_of_mem_head? hc)

theorem IsWord.words_eq {word : List Char} (h : IsWord word) : words word = [word] := by
  have hnext := nextWord?_word_append h isBlanks_nil.endsWord
  rw [List.append_nil] at hnext
  rw [words_of_word hnext, words_nil]

theorem exists_solid_append (text : List Char) :
    ∃ front rest, text = front ++ rest ∧ (∀ c ∈ front, isBlank c = false) ∧ EndsWord rest := by
  refine ⟨text.takeWhile (!isBlank ·), text.dropWhile (!isBlank ·),
    List.takeWhile_append_dropWhile.symm, ?_, ?_⟩
  · intro c hc
    simpa using List.all_eq_true.mp List.all_takeWhile c hc
  · intro c hc
    have hstop := List.head?_dropWhile_not (!isBlank ·) text
    rw [Option.mem_def.mp hc] at hstop
    simpa using hstop

theorem length_words_le_one {text : List Char} (h : ∀ c ∈ text, isBlank c = false) :
    (words text).length ≤ 1 := by
  cases text with
  | nil =>
    rw [words_nil]
    exact Nat.zero_le 1
  | cons c rest =>
    have hword : IsWord (c :: rest) := ⟨List.cons_ne_nil c rest, h⟩
    rw [hword.words_eq, List.length_singleton]

theorem length_words_le_cons (c : Char) (text : List Char) :
    (words text).length ≤ (words (c :: text)).length := by
  by_cases hc : isBlank c = true
  · have hskip : words ([c] ++ text) = words text := words_blanks_append (by simpa [IsBlanks]) text
    exact Nat.le_of_eq (congrArg List.length hskip.symm)
  · obtain ⟨front, rest, rfl, hfront, hrest⟩ := exists_solid_append text
    have hword : IsWord (c :: front) :=
      ⟨List.cons_ne_nil c front, List.forall_mem_cons.mpr ⟨Bool.eq_false_iff.mpr hc, hfront⟩⟩
    have hfew := length_words_le_one hfront
    rw [words_append front hrest, ← List.cons_append, words_append _ hrest, hword.words_eq,
      List.length_append, List.length_append, List.length_singleton]
    omega

/-- A later place in a text may lie within a word, and what is left of it counts as one. -/
theorem length_words_le_of_suffix {text left : List Char} (h : left <:+ text) :
    (words left).length ≤ (words text).length := by
  obtain ⟨front, rfl⟩ := h
  induction front with
  | nil => exact Nat.le_refl _
  | cons c front ih => exact ih.trans (length_words_le_cons c (front ++ left))

theorem words_trim (text : List Char) : words (trim text) = words text := by
  obtain ⟨lead, tail, hlead, htail, htext⟩ := (isTrimOf_trim text).around
  have hall : words text = words (lead ++ (trim text ++ tail)) := congrArg words htext
  rw [hall, words_blanks_append hlead, words_append _ htail.endsWord, words_of_isBlanks htail,
    List.append_nil]

/-- The first word of a trimmed text is that of the text, with the blanks at the end cut from what
follows it. -/
theorem nextWord?_trim {text word left : List Char} (h : nextWord? text = some (word, left)) :
    trim text = word ++ trimEnd left := by
  obtain ⟨gap, hgap, rfl, hword, -⟩ := nextWord?_eq_some h
  obtain ⟨c, rest, rfl⟩ := List.exists_cons_of_ne_nil hword.ne_nil
  have hc : isBlank c = false := hword.solid c List.mem_cons_self
  have hdrop : (gap ++ (c :: rest ++ left)).dropWhile isBlank = c :: rest ++ left := by
    rw [List.dropWhile_append_of_pos hgap, List.cons_append,
      List.dropWhile_cons_of_neg (by simp [hc])]
  rw [trim, hdrop, trimEnd_append]
  split
  next hblank => rw [hblank, List.append_nil, hword.trimEnd_eq]
  next => rfl

theorem words_eq_cons {text word : List Char} {others : List (List Char)}
    (h : words text = word :: others) :
    ∃ left, nextWord? text = some (word, left) ∧ words left = others := by
  cases hw : nextWord? text with
  | none =>
    rw [words_of_end hw] at h
    cases h
  | some next =>
    obtain ⟨first, left⟩ := next
    rw [words_of_word hw] at h
    obtain ⟨rfl, hothers⟩ := List.cons.inj h
    exact ⟨left, rfl, hothers⟩

theorem words_of_readNext {α : Type} {read : List Char → Option α} {text left : List Char} {a : α}
    (h : readNext read text = some (a, left)) :
    ∃ word, words text = word :: words left ∧ read word = some a := by
  obtain ⟨word, hword, hvalue⟩ := readNext_eq_some h
  exact ⟨word, words_of_word hword, hvalue⟩

theorem readNext_of_words {α : Type} {read : List Char → Option α} {text word : List Char}
    {others : List (List Char)} {a : α} (h : words text = word :: others)
    (ha : read word = some a) :
    ∃ left, readNext read text = some (a, left) ∧ words left = others := by
  obtain ⟨left, hword, hothers⟩ := words_eq_cons h
  exact ⟨left, by simp [readNext, hword, ha], hothers⟩

/-- A record is read from the first three words. -/
theorem words_of_readTriple {α : Type} {read : List Char → Option α} {text left : List Char}
    {x y z : α} (h : readTriple read text = some ((x, y, z), left)) :
    ∃ a b c, words text = a :: b :: c :: words left ∧
      read a = some x ∧ read b = some y ∧ read c = some z := by
  obtain ⟨first, second, hx, hy, hz⟩ := readTriple_eq_some h
  obtain ⟨a, hfirst, ha⟩ := words_of_readNext hx
  obtain ⟨b, hsecond, hb⟩ := words_of_readNext hy
  obtain ⟨c, hthird, hc⟩ := words_of_readNext hz
  exact ⟨a, b, c, by rw [hfirst, hsecond, hthird], ha, hb, hc⟩

theorem readTriple_of_words {α : Type} {read : List Char → Option α} {text a b c : List Char}
    {others : List (List Char)} {x y z : α} (h : words text = a :: b :: c :: others)
    (hx : read a = some x) (hy : read b = some y) (hz : read c = some z) :
    ∃ left, readTriple read text = some ((x, y, z), left) ∧ words left = others := by
  obtain ⟨first, hfirst, h⟩ := readNext_of_words h hx
  obtain ⟨second, hsecond, h⟩ := readNext_of_words h hy
  obtain ⟨third, hthird, h⟩ := readNext_of_words h hz
  exact ⟨third, by simp [readTriple, hfirst, hsecond, hthird], h⟩

theorem isSome_readTriple_iff {α : Type} {read : List Char → Option α} {text : List Char} :
    (readTriple read text).isSome = true ↔ ∃ a b c others, words text = a :: b :: c :: others ∧
      (read a).isSome = true ∧ (read b).isSome = true ∧ (read c).isSome = true := by
  constructor
  · intro h
    obtain ⟨⟨⟨x, y, z⟩, left⟩, hread⟩ := Option.isSome_iff_exists.mp h
    obtain ⟨a, b, c, hwords, ha, hb, hc⟩ := words_of_readTriple hread
    exact ⟨a, b, c, words left, hwords, by rw [ha]; rfl, by rw [hb]; rfl, by rw [hc]; rfl⟩
  · rintro ⟨a, b, c, others, hwords, ha, hb, hc⟩
    obtain ⟨x, hx⟩ := Option.isSome_iff_exists.mp ha
    obtain ⟨y, hy⟩ := Option.isSome_iff_exists.mp hb
    obtain ⟨z, hz⟩ := Option.isSome_iff_exists.mp hc
    obtain ⟨left, hread, -⟩ := readTriple_of_words hwords hx hy hz
    rw [hread]
    rfl

theorem endsWord_of_readNext {α : Type} {read : List Char → Option α} {text left : List Char}
    {a : α} (h : readNext read text = some (a, left)) : EndsWord left := by
  obtain ⟨word, hword, -⟩ := readNext_eq_some h
  obtain ⟨gap, -, -, -, hend⟩ := nextWord?_eq_some hword
  exact hend

theorem endsWord_of_readTriple {α : Type} {read : List Char → Option α} {text left : List Char}
    {values : α × α × α} (h : readTriple read text = some (values, left)) : EndsWord left := by
  obtain ⟨first, second, -, -, hc⟩ := readTriple_eq_some h
  exact endsWord_of_readNext hc

theorem endsWord_of_readPoint {text left : List Char} {p : Point}
    (h : readPoint text = some (p, left)) : EndsWord left :=
  endsWord_of_readTriple (readPoint_eq_some h)

/-- The record that could not be read is given back from its first word. -/
theorem words_readRecords_suffix {α : Type} {read : List Char → Option (α × List Char)}
    (hsuffix : LeavesSuffix read)
    (hend : ∀ {text left : List Char} {a : α}, read text = some (a, left) → EndsWord left)
    (n : Nat) (text : List Char) : words (readRecords read n text).2 <:+ words text := by
  induction n generalizing text with
  | zero => exact List.suffix_rfl
  | succ n ih =>
    simp only [readRecords]
    split
    next => exact List.suffix_rfl
    next a left hread =>
      have hfirst := words_suffix (hsuffix hread) (hend hread)
      exact (ih left).trans hfirst

end Facet
