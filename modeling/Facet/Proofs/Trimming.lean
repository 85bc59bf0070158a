import Facet.Proofs.WordReading

namespace Facet

/-- What is left of a text when the blanks at its end are taken away. -/
structure IsTrimEndOf (text kept : List Char) : Prop where
  behind : ∃ tail, IsBlanks tail ∧ text = kept ++ tail
  last : ∀ c ∈ kept.getLast?, isBlank c = false

theorem isTrimEndOf_trimEnd (text : List Char) : IsTrimEndOf text (trimEnd text) :=
  ⟨trimEnd_append_blanks text, isBlank_of_mem_getLast?_trimEnd text⟩

theorem trimEnd_of_isBlanks {text : List Char} (h : IsBlanks text) : trimEnd text = [] := by
  induction text with
  | nil => rfl
  | cons c rest ih =>
    have hc : isBlank c = true := h c List.mem_cons_self
    have hrest : trimEnd rest = [] := ih fun x hx => h x (List.mem_cons_of_mem c hx)
    simp [trimEnd, hrest, hc]

theorem trimEnd_eq_nil_iff {text : List Char} : trimEnd text = [] ↔ IsBlanks text := by
  refine ⟨fun h => ?_, trimEnd_of_isBlanks⟩
  obtain ⟨tail, htail, htext⟩ := trimEnd_append_blanks text
  rwa [htext, h]

/-- Only the last part that is not blank is cut. -/
theorem trimEnd_append (a b : List Char) :
    trimEnd (a ++ b) = if trimEnd b = [] then trimEnd a else a ++ trimEnd b := by
  by_cases h : trimEnd b = []
  · rw [if_pos h]
    induction a with
    | nil => exact h
    | cons c rest ih => rw [List.cons_append, trimEnd, ih, trimEnd]
  · rw [if_neg h]
    induction a with
    | nil => rfl
    | cons c rest ih =>
      obtain ⟨x, xs, hkept⟩ : ∃ x xs, rest ++ trimEnd b = x :: xs :=
        List.exists_cons_of_ne_nil (List.append_ne_nil_of_right_ne_nil rest h)
      rw [List.cons_append, List.cons_append, trimEnd, ih, hkept]

theorem trimEnd_of_last {text : List Char} (h : ∀ c ∈ text.getLast?, isBlank c = false) :
    trimEnd text = text := by
  rcases List.eq_nil_or_concat text with rfl | ⟨front, c, rfl⟩
  · rfl
  · have hc : isBlank c = false := h c (by simp)
    have hkept : trimEnd [c] = [c] := by simp [trimEnd, hc]
    rw [List.concat_eq_append, trimEnd_append, hkept, if_neg (List.cons_ne_nil c [])]

theorem IsWord.trimEnd_eq {word : List Char} (h : IsWord word) : trimEnd word = word :=
  trimEnd_of_last fun c hc => h.solid c (List.mem_of_getLast? hc)

theorem IsWord.trimEnd_append {word : List Char} (h : IsWord word) (front : List Char) :
    trimEnd (front ++ word) = front ++ word := by
  rw [Facet.trimEnd_append, h.trimEnd_eq, if_neg h.ne_nil]

theorem trim_cons_of_solid {c : Char} (h : isBlank c = false) (rest : List Char) :
    trim (c :: rest) = trimEnd (c :: rest) := by
  rw [trim, List.dropWhile_cons_of_neg (by simp [h])]

theorem trim_append_of_head {front : List Char} (h : front.head?.any (!isBlank ·) = true)
    (rest : List Char) : trim (front ++ rest) = trimEnd (front ++ rest) := by
  cases front with
  | nil => cases h
  | cons c front => exact trim_cons_of_solid (by simpa using h) (front ++ rest)

theorem trim_of_ends {text : List Char} (first : ∀ c ∈ text.head?, isBlank c = false)
    (last : ∀ c ∈ text.getLast?, isBlank c = false) : trim text = text := by
  cases text with
  | nil => rfl
  | cons c rest => rw [trim_cons_of_solid (first c rfl), trimEnd_of_last last]

theorem trimEnd_of_trim {text : List Char} (h : trim text = text) : trimEnd text = text := by
  have hlast := (isTrimOf_trim text).last
  rw [h] at hlast
  exact trimEnd_of_last hlast

theorem trim_trim (text : List Char) : trim (trim text) = trim text :=
  trim_of_ends (isTrimOf_trim text).first (isTrimOf_trim text).last

theorem trim_append_blanks (text : List Char) {tail : List Char} (h : IsBlanks tail) :
    trim (text ++ tail) = trim text := by
  rw [trim, trim, List.dropWhile_append]
  split
  next hempty =>
    have hblank : tail.dropWhile isBlank = [] := List.dropWhile_eq_nil_iff.mpr h
    rw [hblank, List.isEmpty_iff.mp hempty]
  next => rw [trimEnd_append, if_pos (trimEnd_of_isBlanks h)]

theorem mem_of_mem_trim {text : List Char} {c : Char} (h : c ∈ trim text) : c ∈ text := by
  obtain ⟨lead, tail, -, -, htext⟩ := (isTrimOf_trim text).around
  rw [htext]
  exact List.mem_append_right lead (List.mem_append_left tail h)

theorem IsWord.feed_not_mem {word : List Char} (h : IsWord word) : '\n' ∉ word := by
  intro hfeed
  have := h.solid '\n' hfeed
  exact absurd this (by decide)

end Facet
