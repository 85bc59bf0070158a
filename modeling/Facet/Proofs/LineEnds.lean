import Facet.Proofs.NumberText
import Facet.Proofs.Trimming
import Facet.Proofs.UnreadText

namespace Facet

/-- Nothing stands behind the last line feed. -/
def EndsLine (text : List Char) : Prop :=
  ∀ c ∈ text.getLast?, c = '\n'

theorem endsLine_append_feed (text : List Char) : EndsLine (text ++ ['\n']) := by
  intro c hc
  rw [List.getLast?_concat] at hc
  exact (Option.some.inj hc).symm

theorem EndsLine.of_suffix {text left : List Char} (h : EndsLine text) (hleft : left <:+ text) :
    EndsLine left := by
  obtain ⟨front, rfl⟩ := hleft
  intro c hc
  apply h c
  rw [List.getLast?_append, Option.mem_def.mp hc]
  rfl

theorem EndsLine.eq_append_feed {text : List Char} (h : EndsLine text) (hne : text ≠ []) :
    ∃ front, text = front ++ ['\n'] := by
  obtain ⟨front, c, rfl⟩ := List.eq_nil_or_concat text |>.resolve_left hne
  have hc : c = '\n' := h c (by simp)
  exact ⟨front, by rw [hc, List.concat_eq_append]⟩

theorem EndsLine.ne_nil_of_word {text word left : List Char} (h : EndsLine text)
    (hword : nextWord? text = some (word, left)) : left ≠ [] := by
  obtain ⟨gap, -, rfl, hw, -⟩ := nextWord?_eq_some hword
  rintro rfl
  rw [List.append_nil] at h
  obtain ⟨front, hfront⟩ := (h.of_suffix (List.suffix_append gap word)).eq_append_feed hw.ne_nil
  exact hw.feed_not_mem (by simp [hfront])

theorem EndsLine.nextWord?_append {text word left : List Char} (h : EndsLine text)
    (hword : nextWord? text = some (word, left)) (rest : List Char) :
    nextWord? (text ++ rest) = some (word, left ++ rest) := by
  have hne := h.ne_nil_of_word hword
  obtain ⟨gap, hgap, rfl, hw, hend⟩ := nextWord?_eq_some hword
  obtain ⟨c, tail, rfl⟩ := List.exists_cons_of_ne_nil hne
  rw [List.append_assoc, List.append_assoc, nextWord?_blanks_append hgap]
  exact nextWord?_word_append hw (endsWord_cons (hend c rfl) _)

theorem EndsLine.splitLine_append {text : List Char} (h : EndsLine text) (hne : text ≠ [])
    (rest : List Char) :
    splitLine (text ++ rest) = ((splitLine text).1, (splitLine text).2 ++ rest) := by
  have hfeed : '\n' ∈ text := by
    obtain ⟨front, rfl⟩ := h.eq_append_feed hne
    simp
  obtain ⟨first, others, rfl, hfirst⟩ := List.eq_append_cons_of_mem hfeed
  rw [List.append_assoc, List.cons_append, Facet.splitLine_append hfirst,
    Facet.splitLine_append hfirst]

/-- The first word is no number, if there is a word. -/
def NoNumberAhead (text : List Char) : Prop :=
  readNext readFloat text = none

theorem NoNumberAhead.readNext_eq_none {α : Type} {rest : List Char} (h : NoNumberAhead rest)
    {read : List Char → Option α} (hread : ∀ {word}, readFloat word = none → read word = none) :
    readNext read rest = none := by
  unfold NoNumberAhead readNext at *
  cases hw : nextWord? rest with
  | none => rfl
  | some next =>
    obtain ⟨word, left⟩ := next
    rw [hw] at h
    cases hf : readFloat word with
    | none => simp [hread hf]
    | some x => simp [hf] at h

/-- A reader that leaves what stands behind a line end as it is, if it could not read on there. -/
structure StopsBefore {α : Type} (rest : List Char)
    (read : List Char → Option (α × List Char)) : Prop where
  leaves : LeavesSuffix read
  append : ∀ {text}, EndsLine text → read (text ++ rest) = (read text).map (Prod.map id (· ++ rest))

theorem stopsBefore_readNext {α : Type} {read : List Char → Option α} {rest : List Char}
    (h : readNext read rest = none) : StopsBefore rest (readNext read) := by
  refine ⟨leavesSuffix_readNext read, ?_⟩
  intro text htext
  cases hw : nextWord? text with
  | none =>
    have hblank := nextWord?_eq_none hw
    rw [readNext_blanks_append read hblank, h]
    simp [readNext, hw]
  | some next =>
    obtain ⟨word, left⟩ := next
    have happend := htext.nextWord?_append hw rest
    cases hv : read word <;> simp [readNext, hw, happend, hv]

section Combining

variable {α β : Type} {rest : List Char}

theorem stopsBefore_some (a : α) : StopsBefore rest (fun text => some (a, text)) := by
  refine ⟨?_, fun _ => rfl⟩
  intro text left b h
  cases Option.some.inj h
  exact List.suffix_rfl

theorem StopsBefore.bind {read : List Char → Option (α × List Char)}
    {next : α → List Char → Option (β × List Char)} (hread : StopsBefore rest read)
    (hnext : ∀ a, StopsBefore rest (next a)) :
    StopsBefore rest (fun text => (read text).bind fun found => next found.1 found.2) := by
  constructor
  · intro text left b h
    obtain ⟨⟨a, middle⟩, hfirst, hsecond⟩ := Option.bind_eq_some_iff.mp h
    exact ((hnext a).leaves hsecond).trans (hread.leaves hfirst)
  · intro text htext
    simp only [hread.append htext]
    cases hfirst : read text with
    | none => rfl
    | some found => exact (hnext found.1).append (htext.of_suffix (hread.leaves hfirst))

theorem StopsBefore.map {read : List Char → Option (α × List Char)} (hread : StopsBefore rest read)
    (f : α → β) : StopsBefore rest (fun text => (read text).map (Prod.map f id)) := by
  have hbind := hread.bind fun a => stopsBefore_some (f a)
  convert hbind using 2 with text
  cases read text <;> rfl

end Combining

theorem stopsBefore_readTriple {α : Type} {read : List Char → Option α} {rest : List Char}
    (h : readNext read rest = none) : StopsBefore rest (readTriple read) := by
  have hnext := stopsBefore_readNext h
  exact hnext.bind fun a => hnext.bind fun b => hnext.bind fun c => stopsBefore_some (a, b, c)

theorem stopsBefore_readPoint {rest : List Char} (h : NoNumberAhead rest) :
    StopsBefore rest readPoint :=
  (stopsBefore_readTriple h).map fun (v : Float × Float × Float) => (⟨v.1, v.2.1, v.2.2⟩ : Point)

theorem stopsBefore_readTriangle {rest : List Char} (h : NoNumberAhead rest) :
    StopsBefore rest readTriangle :=
  (stopsBefore_readTriple (h.readNext_eq_none readIndex_eq_none)).map
    fun (t : UInt32 × UInt32 × UInt32) => (⟨t.1, t.2.1, t.2.2⟩ : Triangle)

theorem StopsBefore.readRecords_append {α : Type} {read : List Char → Option (α × List Char)}
    {rest : List Char} (h : StopsBefore rest read) (n : Nat) {text : List Char}
    (htext : EndsLine text) :
    readRecords read n (text ++ rest) =
      ((readRecords read n text).1, (readRecords read n text).2 ++ rest) := by
  induction n generalizing text with
  | zero => rfl
  | succ n ih =>
    have happend := h.append htext
    cases hread : read text with
    | none => simp [readRecords, happend, hread]
    | some found =>
      have hleft := ih (htext.of_suffix (h.leaves hread))
      simp [readRecords, happend, hread, hleft]

end Facet
