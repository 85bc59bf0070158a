import Facet.Records
import Mathlib

namespace Facet

def IsBlanks (text : List Char) : Prop :=
  ∀ c ∈ text, isBlank c = true

/-- Something between blanks. -/
structure IsWord (text : List Char) : Prop where
  ne_nil : text ≠ []
  solid : ∀ c ∈ text, isBlank c = false

/-- A word in front of this text ends there. -/
def EndsWord (rest : List Char) : Prop :=
  ∀ c ∈ rest.head?, isBlank c = true

instance (text : List Char) : Decidable (IsBlanks text) :=
  decidable_of_iff (text.all isBlank = true) List.all_eq_true

instance (text : List Char) : Decidable (IsWord text) :=
  decidable_of_iff (text ≠ [] ∧ text.all (!isBlank ·) = true) (by
    simp only [List.all_eq_true, Bool.not_eq_true']
    exact ⟨fun h => ⟨h.1, h.2⟩, fun h => ⟨h.ne_nil, h.solid⟩⟩)

instance (rest : List Char) : Decidable (EndsWord rest) :=
  decidable_of_iff (rest.head?.all isBlank = true) (Option.all_eq_true _ _)

theorem isBlanks_nil : IsBlanks [] := by
  intro c hc
  simp at hc

theorem IsBlanks.append {a b : List Char} (ha : IsBlanks a) (hb : IsBlanks b) :
    IsBlanks (a ++ b) := by
  intro c hc
  exact (List.mem_append.mp hc).elim (ha c) (hb c)

theorem endsWord_cons {c : Char} (h : isBlank c = true) (rest : List Char) :
    EndsWord (c :: rest) := by
  intro x hx
  cases Option.some.inj hx
  exact h

theorem IsBlanks.endsWord_append {gap : List Char} (hgap : IsBlanks gap) (hne : gap ≠ [])
    (rest : List Char) : EndsWord (gap ++ rest) := by
  obtain ⟨c, tail, rfl⟩ := List.exists_cons_of_ne_nil hne
  exact endsWord_cons (hgap c List.mem_cons_self) _

theorem nextWord?_blanks_append {gap : List Char} (hgap : IsBlanks gap) (text : List Char) :
    nextWord? (gap ++ text) = nextWord? text := by
  rw [nextWord?, nextWord?, List.dropWhile_append_of_pos hgap]

theorem nextWord?_word_append {word rest : List Char} (hword : IsWord word) (hrest : EndsWord rest) :
    nextWord? (word ++ rest) = some (word, rest) := by
  obtain ⟨c, tail, rfl⟩ := List.exists_cons_of_ne_nil hword.ne_nil
  have hc : isBlank c = false := hword.solid c List.mem_cons_self
  have htail : ∀ x ∈ tail, (!isBlank x) = true := fun x hx => by
    rw [hword.solid x (List.mem_cons_of_mem c hx), Bool.not_false]
  have hdrop : (c :: (tail ++ rest)).dropWhile isBlank = c :: (tail ++ rest) := by
    rw [List.dropWhile_cons_of_neg (by simp [hc])]
  have hend : rest.takeWhile (!isBlank ·) = [] ∧ rest.dropWhile (!isBlank ·) = rest := by
    cases rest with
    | nil => exact ⟨rfl, rfl⟩
    | cons x xs => simp [hrest x rfl]
  rw [nextWord?, List.cons_append, hdrop]
  simp only [List.takeWhile_append_of_pos htail, List.dropWhile_append_of_pos htail, hend,
    List.append_nil]

theorem readNext_blanks_append {α : Type} (read : List Char → Option α) {gap : List Char}
    (hgap : IsBlanks gap) (text : List Char) : readNext read (gap ++ text) = readNext read text := by
  rw [readNext, readNext, nextWord?_blanks_append hgap]

theorem readNext_word_append {α : Type} {read : List Char → Option α} {word rest : List Char}
    {value : α} (hword : IsWord word) (hread : read word = some value) (hrest : EndsWord rest) :
    readNext read (word ++ rest) = some (value, rest) := by
  simp [readNext, nextWord?_word_append hword hrest, hread]

theorem bne_feed_of_not_mem {text : List Char} (h : '\n' ∉ text) :
    ∀ c ∈ text, (c != '\n') = true := by
  intro c hc
  rw [bne_iff_ne]
  rintro rfl
  exact h hc

theorem splitLine_append {text : List Char} (h : '\n' ∉ text) (rest : List Char) :
    splitLine (text ++ '\n' :: rest) = (text, rest) := by
  have hline := bne_feed_of_not_mem h
  simp [splitLine, List.takeWhile_append_of_pos hline, List.dropWhile_append_of_pos hline]

theorem splitLine_of_not_mem {text : List Char} (h : '\n' ∉ text) : splitLine text = (text, []) := by
  have hline := bne_feed_of_not_mem h
  simp [splitLine, List.takeWhile_eq_self_iff.mpr hline, List.dropWhile_eq_nil_iff.mpr hline]

/-- What is left of a text when the blanks at its two ends are taken away. -/
structure IsTrimOf (text kept : List Char) : Prop where
  around : ∃ lead tail, IsBlanks lead ∧ IsBlanks tail ∧ text = lead ++ (kept ++ tail)
  first : ∀ c ∈ kept.head?, isBlank c = false
  last : ∀ c ∈ kept.getLast?, isBlank c = false

theorem trimEnd_append_blanks (text : List Char) :
    ∃ tail, IsBlanks tail ∧ text = trimEnd text ++ tail := by
  induction text with
  | nil => exact ⟨[], isBlanks_nil, rfl⟩
  | cons c rest ih =>
    obtain ⟨tail, htail, hrest⟩ := ih
    unfold trimEnd
    split
    next hnil =>
      rw [hnil, List.nil_append] at hrest
      split
      next hc =>
        refine ⟨c :: tail, ?_, by rw [hrest, List.nil_append]⟩
        intro x hx
        rcases List.mem_cons.mp hx with rfl | hx
        · exact hc
        · exact htail x hx
      next => exact ⟨tail, htail, by rw [hrest, List.singleton_append]⟩
    next => exact ⟨tail, htail, by rw [List.cons_append, ← hrest]⟩

theorem isBlank_of_mem_getLast?_trimEnd (text : List Char) :
    ∀ c ∈ (trimEnd text).getLast?, isBlank c = false := by
  induction text with
  | nil => intro c hc; cases hc
  | cons x rest ih =>
    unfold trimEnd
    split
    next =>
      split
      next => intro c hc; cases hc
      next hx =>
        intro c hc
        cases Option.some.inj hc
        exact Bool.eq_false_iff.mpr hx
    next hne =>
      intro c hc
      obtain ⟨y, ys, hy⟩ := List.exists_cons_of_ne_nil hne
      rw [hy, List.getLast?_cons_cons, ← hy] at hc
      exact ih c hc

theorem head?_trimEnd {text : List Char} {c : Char} (h : c ∈ (trimEnd text).head?) :
    c ∈ text.head? := by
  obtain ⟨tail, -, heq⟩ := trimEnd_append_blanks text
  rw [heq]
  cases hkept : trimEnd text with
  | nil => rw [hkept] at h; cases h
  | cons x xs => rwa [hkept] at h

theorem isTrimOf_trim (text : List Char) : IsTrimOf text (trim text) := by
  obtain ⟨tail, htail, hrest⟩ := trimEnd_append_blanks (text.dropWhile isBlank)
  refine ⟨⟨text.takeWhile isBlank, tail, ?_, htail, ?_⟩, ?_, ?_⟩
  · intro c hc
    exact List.all_eq_true.mp List.all_takeWhile c hc
  · rw [trim, ← hrest, List.takeWhile_append_dropWhile]
  · intro c hc
    have hhead := head?_trimEnd hc
    have := List.head?_dropWhile_not isBlank text
    rw [Option.mem_def.mp hhead] at this
    simpa using this
  · exact isBlank_of_mem_getLast?_trimEnd _

end Facet
