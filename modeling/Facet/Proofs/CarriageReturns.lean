import Facet.MeshDocument
import Facet.Proofs.IgesLayout
import Facet.Proofs.UnnoticedChanges

namespace Facet

/-- The text with a carriage return in front of every line feed. -/
def withReturns (text : List Char) : List Char :=
  text.flatMap fun c => if c = '\n' then ['\r', '\n'] else [c]

theorem withReturns_append (front rest : List Char) :
    withReturns (front ++ rest) = withReturns front ++ withReturns rest :=
  List.flatMap_append

theorem withReturns_feed (rest : List Char) :
    withReturns ('\n' :: rest) = '\r' :: '\n' :: withReturns rest :=
  rfl

theorem withReturns_of_not_mem {text : List Char} (h : '\n' ∉ text) : withReturns text = text := by
  induction text with
  | nil => rfl
  | cons c rest ih =>
    obtain ⟨hc, hrest⟩ := not_or.mp (mt List.mem_cons.mpr h)
    rw [withReturns, List.flatMap_cons, if_neg (Ne.symm hc)]
    exact congrArg (c :: ·) (ih hrest)

theorem IsBlanks.withReturns {gap : List Char} (h : IsBlanks gap) :
    IsBlanks (Facet.withReturns gap) := by
  intro c hc
  obtain ⟨original, horiginal, hmem⟩ := List.mem_flatMap.mp hc
  split at hmem
  next =>
    have hbreak : IsBlanks ['\r', '\n'] := by decide
    exact hbreak c hmem
  next =>
    rw [List.mem_singleton.mp hmem]
    exact h original horiginal

theorem EndsWord.withReturns {rest : List Char} (h : EndsWord rest) :
    EndsWord (Facet.withReturns rest) := by
  cases rest with
  | nil => exact h
  | cons c rest =>
    by_cases hc : c = '\n'
    · rw [hc, withReturns_feed]
      exact endsWord_cons (by decide) _
    · rw [Facet.withReturns, List.flatMap_cons, if_neg hc]
      exact endsWord_cons (h c rfl) _

/-- A reader that takes the same from a text with carriage returns and leaves them in the rest. -/
def PassesReturns {α : Type} (read : List Char → Option (α × List Char)) : Prop :=
  ∀ text, read (withReturns text) = (read text).map (Prod.map id withReturns)

theorem passesReturns_nextWord? : PassesReturns nextWord? := by
  intro text
  cases hword : nextWord? text with
  | none =>
    have hnone := nextWord?_blanks_append (nextWord?_eq_none hword).withReturns []
    rw [List.append_nil] at hnone
    exact hnone
  | some next =>
    obtain ⟨word, left⟩ := next
    obtain ⟨gap, hgap, rfl, hsolid, hend⟩ := nextWord?_eq_some hword
    rw [withReturns_append, withReturns_append, withReturns_of_not_mem hsolid.feed_not_mem,
      nextWord?_blanks_append hgap.withReturns, nextWord?_word_append hsolid hend.withReturns]
    rfl

/-- A text is cut at its first line feed, and a carriage return ends up on the line before it. -/
theorem withReturns_line (first rest : List Char) (hfirst : '\n' ∉ first) :
    withReturns (first ++ '\n' :: rest) = (first ++ ['\r']) ++ '\n' :: withReturns rest := by
  rw [withReturns_append, withReturns_of_not_mem hfirst, withReturns_feed, List.append_assoc,
    List.singleton_append]

theorem feed_not_mem_append_return {first : List Char} (hfirst : '\n' ∉ first) :
    '\n' ∉ first ++ ['\r'] := by
  simpa using hfirst

theorem trim_append_return (text : List Char) : trim (text ++ ['\r']) = trim text :=
  trim_append_blanks text (by decide)

theorem splitLine_withReturns (text : List Char) :
    trim (splitLine (withReturns text)).1 = trim (splitLine text).1 ∧
      (splitLine (withReturns text)).2 = withReturns (splitLine text).2 := by
  by_cases hfeed : '\n' ∈ text
  · obtain ⟨first, rest, rfl, hfirst⟩ := List.eq_append_cons_of_mem hfeed
    rw [withReturns_line first rest hfirst, splitLine_append hfirst,
      splitLine_append (feed_not_mem_append_return hfirst)]
    exact ⟨trim_append_return first, rfl⟩
  · rw [withReturns_of_not_mem hfeed, splitLine_of_not_mem hfeed]
    exact ⟨rfl, rfl⟩

theorem isUnnoticed_withReturns : IsUnnoticed withReturns :=
  ⟨passesReturns_nextWord?, fun text => (splitLine_withReturns text).1,
    fun text => .inl (splitLine_withReturns text).2⟩

theorem readStep_withReturns (text : List Char) : readStep (withReturns text) = readStep text :=
  isUnnoticed_withReturns.readStep text

theorem map_trim_lines_withReturns (text : List Char) :
    (lines (withReturns text)).map trim = (lines text).map trim := by
  by_cases hfeed : '\n' ∈ text
  · obtain ⟨first, rest, rfl, hfirst⟩ := List.eq_append_cons_of_mem hfeed
    have hrest := map_trim_lines_withReturns rest
    rw [withReturns_line first rest hfirst, lines, lines, pieces_append hfirst,
      pieces_append (feed_not_mem_append_return hfirst), List.map_cons, List.map_cons,
      trim_append_return]
    exact congrArg (trim first :: ·) hrest
  · rw [withReturns_of_not_mem hfeed]
termination_by text.length

theorem readIgesLines_map_trim (draft : IgesDraft) (number : Nat) (texts : List (List Char)) :
    readIgesLines draft number (texts.map trim) = readIgesLines draft number texts := by
  induction texts generalizing draft number with
  | nil => rfl
  | cons text texts ih => simp only [List.map_cons, readIgesLines, trim_trim, ih]

theorem readIges_of_map_trim {text other : List Char}
    (h : (lines other).map trim = (lines text).map trim) : readIges other = readIges text := by
  have hfirst : ∀ texts : List (List Char),
      trim (texts.headD []) = (texts.map trim).headD [] := by
    intro texts
    cases texts <;> rfl
  have hrest : (lines other).tail.map trim = (lines text).tail.map trim := by
    rw [List.map_tail, List.map_tail, h]
  have hlines : readIgesLines {} 2 (lines other).tail = readIgesLines {} 2 (lines text).tail := by
    rw [← readIgesLines_map_trim, hrest, readIgesLines_map_trim]
  simp only [readIges, hfirst, h, hlines]

/-- A document reads as the same model, or fails in the same way, when its lines end in a carriage
return and a line feed. -/
theorem Model.ofText_withReturns (format : MeshFormat) (text : String) :
    Model.ofText format (String.ofList (withReturns text.toList)) = Model.ofText format text := by
  cases format with
  | step => simp only [Model.ofText, String.toList_ofList, readStep_withReturns]
  | iges =>
    simp only [Model.ofText, String.toList_ofList]
    exact readIges_of_map_trim (map_trim_lines_withReturns text.toList)

end Facet
