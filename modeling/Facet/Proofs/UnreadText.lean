import Facet.Proofs.WordReading

namespace Facet

theorem eq_ok_of_toOption {ε α : Type} {result : Except ε α} {a : α}
    (h : result.toOption = some a) : result = .ok a := by
  cases result with
  | error e => cases h
  | ok b => exact congrArg Except.ok (Option.some.inj h)

theorem nextWord?_eq_some {text word left : List Char} (h : nextWord? text = some (word, left)) :
    ∃ gap, IsBlanks gap ∧ text = gap ++ (word ++ left) ∧ IsWord word ∧ EndsWord left := by
  have hfirst := List.head?_dropWhile_not isBlank text
  have hsplit : text = text.takeWhile isBlank ++ text.dropWhile isBlank :=
    List.takeWhile_append_dropWhile.symm
  unfold nextWord? at h
  split at h
  next => cases h
  next c rest hdrop =>
    obtain ⟨rfl, rfl⟩ := Prod.mk.inj (Option.some.inj h)
    rw [hdrop] at hfirst hsplit
    refine ⟨text.takeWhile isBlank, ?_, ?_, ⟨List.cons_ne_nil _ _, ?_⟩, ?_⟩
    · exact fun x hx => List.all_eq_true.mp List.all_takeWhile x hx
    · rw [List.cons_append, List.takeWhile_append_dropWhile]
      exact hsplit
    · rintro x (_ | ⟨_, hx⟩)
      · simpa using hfirst
      · simpa using List.all_eq_true.mp List.all_takeWhile x hx
    · intro x hx
      have hstop := List.head?_dropWhile_not (!isBlank ·) rest
      rw [Option.mem_def.mp hx] at hstop
      simpa using hstop

theorem nextWord?_eq_none {text : List Char} (h : nextWord? text = none) : IsBlanks text := by
  unfold nextWord? at h
  split at h
  next hdrop => exact List.dropWhile_eq_nil_iff.mp hdrop
  next => cases h

theorem nextWord?_suffix {text word left : List Char} (h : nextWord? text = some (word, left)) :
    left <:+ text := by
  obtain ⟨gap, -, rfl, -, -⟩ := nextWord?_eq_some h
  exact (List.suffix_append word left).trans (List.suffix_append gap _)

theorem splitLine_suffix (text : List Char) : (splitLine text).2 <:+ text :=
  (List.drop_suffix 1 _).trans (List.dropWhile_suffix _)

/-- A reader that takes from the front of a text and leaves the rest as it is. -/
def LeavesSuffix {α : Type} (read : List Char → Option (α × List Char)) : Prop :=
  ∀ {text left : List Char} {a : α}, read text = some (a, left) → left <:+ text

theorem leavesSuffix_readNext {α : Type} (read : List Char → Option α) :
    LeavesSuffix (readNext read) := by
  intro text left a h
  obtain ⟨word, hword, -⟩ := readNext_eq_some h
  exact nextWord?_suffix hword

theorem leavesSuffix_readTriple {α : Type} (read : List Char → Option α) :
    LeavesSuffix (readTriple read) := by
  intro text left values h
  obtain ⟨first, second, ha, hb, hc⟩ := readTriple_eq_some h
  exact (leavesSuffix_readNext read hc).trans
    ((leavesSuffix_readNext read hb).trans (leavesSuffix_readNext read ha))

theorem leavesSuffix_readPoint : LeavesSuffix readPoint :=
  fun h => leavesSuffix_readTriple readFloat (readPoint_eq_some h)

theorem leavesSuffix_readTriangle : LeavesSuffix readTriangle :=
  fun h => leavesSuffix_readTriple readIndex (readTriangle_eq_some h)

theorem readRecords_suffix {α : Type} {read : List Char → Option (α × List Char)}
    (hread : LeavesSuffix read) (n : Nat) (text : List Char) :
    (readRecords read n text).2 <:+ text := by
  induction n generalizing text with
  | zero => exact List.suffix_rfl
  | succ n ih =>
    simp only [readRecords]
    split
    next => exact List.suffix_rfl
    next record rest h => exact (ih rest).trans (hread h)

theorem length_readRecords_le {α : Type} (read : List Char → Option (α × List Char)) (n : Nat)
    (text : List Char) : (readRecords read n text).1.length ≤ n := by
  induction n generalizing text with
  | zero => exact Nat.le_refl 0
  | succ n ih =>
    simp only [readRecords]
    split
    next => exact Nat.zero_le _
    next record rest h => exact Nat.succ_le_succ (ih rest)

end Facet
