import Facet.Proofs.RecordRuns

namespace Facet

/-- What a text leaves right behind the given number of its words. -/
structure IsLeftBehind (count : Nat) (text left : List Char) : Prop where
  taken : ∃ front, text = front ++ left ∧ words front = (words text).take count ∧
    ∀ c ∈ front.getLast?, isBlank c = false
  unread : words left = (words text).drop count
  enough : count ≤ (words text).length
  start : count = 0 → left = text
  ends : 0 < count → EndsWord left

theorem isLeftBehind_zero (text : List Char) : IsLeftBehind 0 text text where
  taken := ⟨[], rfl, words_nil, nofun⟩
  unread := rfl
  enough := Nat.zero_le _
  start := fun _ => rfl
  ends := nofun

theorem IsLeftBehind.suffix {count : Nat} {text left : List Char}
    (h : IsLeftBehind count text left) : left <:+ text := by
  obtain ⟨front, rfl, -, -⟩ := h.taken
  exact List.suffix_append front left

theorem isLeftBehind_of_nextWord {text word left : List Char}
    (h : nextWord? text = some (word, left)) : IsLeftBehind 1 text left := by
  have hwords := words_of_word h
  obtain ⟨gap, hgap, rfl, hword, hend⟩ := nextWord?_eq_some h
  refine ⟨⟨gap ++ word, (List.append_assoc gap word left).symm, ?_, ?_⟩, ?_, ?_, nofun,
    fun _ => hend⟩
  · rw [hwords, words_blanks_append hgap, hword.words_eq]
    rfl
  · intro c hc
    rw [List.getLast?_append_of_ne_nil gap hword.ne_nil] at hc
    exact hword.solid c (List.mem_of_getLast? hc)
  · rw [hwords]
    rfl
  · rw [hwords]
    exact Nat.le_add_left 1 _

/-- Words are taken from where they were left off. -/
theorem IsLeftBehind.trans {a b : Nat} {text middle left : List Char}
    (h : IsLeftBehind a text middle) (hnext : IsLeftBehind b middle left) :
    IsLeftBehind (a + b) text left := by
  -- Behind no words at all the place may lie anywhere, also in front of a solid character.
  rcases Nat.eq_zero_or_pos a with rfl | ha
  · obtain rfl := h.start rfl
    rwa [Nat.zero_add]
  obtain ⟨front, rfl, hfront, hfrontLast⟩ := h.taken
  obtain ⟨back, rfl, hback, hbackLast⟩ := hnext.taken
  have hback' : EndsWord back := (h.ends ha).of_append
  have hunread := h.unread
  have henough := hnext.enough
  rw [hunread, List.length_drop] at henough
  refine ⟨⟨front ++ back, (List.append_assoc front back left).symm, ?_, ?_⟩, ?_, ?_, ?_, ?_⟩
  · rw [words_append front hback', hfront, hback, hunread, List.take_add]
  · intro c hc
    rw [List.getLast?_append] at hc
    rcases Option.or_eq_some_iff.mp hc with hlast | ⟨-, hlast⟩
    · exact hbackLast c hlast
    · exact hfrontLast c hlast
  · rw [hnext.unread, hunread, List.drop_drop]
  · have := h.enough
    omega
  · omega
  · intro _
    rcases Nat.eq_zero_or_pos b with rfl | hb
    · rw [hnext.start rfl]
      exact h.ends ha
    · exact hnext.ends hb

theorem isLeftBehind_of_readNext {α : Type} {read : List Char → Option α} {text left : List Char}
    {a : α} (h : readNext read text = some (a, left)) : IsLeftBehind 1 text left := by
  obtain ⟨word, hword, -⟩ := readNext_eq_some h
  exact isLeftBehind_of_nextWord hword

theorem isLeftBehind_of_readTriple {α : Type} {read : List Char → Option α}
    {text left : List Char} {values : α × α × α} (h : readTriple read text = some (values, left)) :
    IsLeftBehind 3 text left := by
  obtain ⟨first, second, ha, hb, hc⟩ := readTriple_eq_some h
  exact (isLeftBehind_of_readNext ha).trans
    ((isLeftBehind_of_readNext hb).trans (isLeftBehind_of_readNext hc))

/-- The first words make up the given number of records. -/
def HoldsRecords {α : Type} (read : List Char → Option α) (k : Nat) (texts : List (List Char)) :
    Prop :=
  3 * k ≤ texts.length ∧ ∀ word ∈ texts.take (3 * k), (read word).isSome = true

theorem BreaksOff.le_of_holdsRecords {α : Type} {read : List Char → Option α} {k j : Nat}
    {texts : List (List Char)} (h : BreaksOff read k texts) (hj : HoldsRecords read j texts) :
    j ≤ k := by
  obtain ⟨front, rest, rfl, hlength, -, hstop⟩ := h.parts
  obtain ⟨henough, hreads⟩ := hj
  by_contra hmore
  have hthree : 3 ≤ rest.length := by
    rw [List.length_append] at henough
    omega
  obtain ⟨a, b, c, others, rfl⟩ : ∃ a b c others, rest = a :: b :: c :: others := by
    match rest, hthree with
    | a :: b :: c :: others, _ => exact ⟨a, b, c, others, rfl⟩
  obtain ⟨d, hd⟩ : ∃ d, 3 * j = front.length + (d + 3) := ⟨3 * j - front.length - 3, by omega⟩
  rw [hd, List.take_length_add_append] at hreads
  simp only [List.take_succ_cons, List.forall_mem_append, List.forall_mem_cons] at hreads
  obtain ⟨-, ha, hb, hc, -⟩ := hreads
  exact hstop ⟨a, b, c, others, rfl, ha, hb, hc⟩

/-- The records of as many words as are numbers, from the first word on and up to the limit, and
what follows the last of these words. -/
structure IsLongest {α ρ : Type} (read : List Char → Option α) (parts : ρ → List α) (limit : Nat)
    (text : List Char) (records : List ρ) (left : List Char) : Prop where
  greatest : IsGreatest {k | k ≤ limit ∧ HoldsRecords read k (words text)} records.length
  values : ((words text).take (3 * records.length)).map read = (records.flatMap parts).map some
  behind : IsLeftBehind (3 * records.length) text left

section Reading

variable {α ρ : Type} {read : List Char → Option α}
  {readRecord : List Char → Option (ρ × List Char)} {f : α × α × α → ρ} {parts : ρ → List α}

theorem isLeftBehind_of_record
    (hrecord : ∀ text, readRecord text = (readTriple read text).map (Prod.map f id))
    {text left : List Char} {record : ρ} (h : readRecord text = some (record, left)) :
    IsLeftBehind 3 text left := by
  rw [hrecord] at h
  obtain ⟨⟨values, after⟩, htriple, heq⟩ := Option.map_eq_some_iff.mp h
  cases heq
  exact isLeftBehind_of_readTriple htriple

/-- A record that breaks off is given back from its first word on. -/
theorem isLeftBehind_readRecords
    (hrecord : ∀ text, readRecord text = (readTriple read text).map (Prod.map f id))
    (n : Nat) (text : List Char) :
    IsLeftBehind (3 * (readRecords readRecord n text).1.length) text
      (readRecords readRecord n text).2 := by
  induction n generalizing text with
  | zero => exact isLeftBehind_zero text
  | succ n ih =>
    simp only [readRecords]
    split
    next => exact isLeftBehind_zero text
    next record left hread =>
      have hall := (isLeftBehind_of_record hrecord hread).trans (ih left)
      rwa [Nat.add_comm, ← Nat.mul_succ] at hall

theorem map_take_words_readRecords
    (hrecord : ∀ text, readRecord text = (readTriple read text).map (Prod.map f id))
    (hparts : ∀ x y z, parts (f (x, y, z)) = [x, y, z]) (n : Nat) (text : List Char) :
    ((words text).take (3 * (readRecords readRecord n text).1.length)).map read =
      ((readRecords readRecord n text).1.flatMap parts).map some := by
  induction n generalizing text with
  | zero => rfl
  | succ n ih =>
    simp only [readRecords]
    split
    next => rfl
    next record left hread =>
      rw [hrecord] at hread
      obtain ⟨⟨⟨x, y, z⟩, after⟩, htriple, heq⟩ := Option.map_eq_some_iff.mp hread
      cases heq
      obtain ⟨a, b, c, hwords, ha, hb, hc⟩ := words_of_readTriple htriple
      simp only [hwords, List.length_cons, Nat.mul_succ, List.take_succ_cons, List.map_cons,
        List.flatMap_cons, List.map_append, hparts, ha, hb, hc, id]
      rw [ih after]
      rfl

theorem isGreatest_length_readRecords
    (hrecord : ∀ text, readRecord text = (readTriple read text).map (Prod.map f id))
    (hparts : ∀ x y z, parts (f (x, y, z)) = [x, y, z]) (n : Nat) (text : List Char) :
    IsGreatest {k | k ≤ n ∧ HoldsRecords read k (words text)}
      (readRecords readRecord n text).1.length := by
  refine ⟨⟨length_readRecords_le readRecord n text,
    (isLeftBehind_readRecords hrecord n text).enough, ?_⟩, ?_⟩
  · intro word hword
    have hread := List.mem_map_of_mem (f := read) hword
    rw [map_take_words_readRecords hrecord hparts] at hread
    obtain ⟨value, -, hvalue⟩ := List.mem_map.mp hread
    rw [← hvalue]
    rfl
  · rintro k ⟨hlimit, hholds⟩
    by_contra hmore
    -- One more record would be there, where the reader has stopped for want of one.
    have hshort : (readRecords readRecord n text).1.length < n := by omega
    have hbreaks := (length_readRecords_eq_iff hrecord hshort text).mp rfl
    exact hmore (hbreaks.le_of_holdsRecords hholds)

theorem isLongest_readRecords
    (hrecord : ∀ text, readRecord text = (readTriple read text).map (Prod.map f id))
    (hparts : ∀ x y z, parts (f (x, y, z)) = [x, y, z]) (n : Nat) (text : List Char) :
    IsLongest read parts n text (readRecords readRecord n text).1
      (readRecords readRecord n text).2 where
  greatest := isGreatest_length_readRecords hrecord hparts n text
  values := map_take_words_readRecords hrecord hparts n text
  behind := isLeftBehind_readRecords hrecord n text

end Reading

/-- Both readers of records take as many as they can, up to the count, and leave everything behind
the last one unread. -/
theorem readRecords_longest (n : Nat) (text : List Char) :
    IsLongest readFloat Vec3.toList n text (readRecords readPoint n text).1
      (readRecords readPoint n text).2 ∧
    IsLongest readIndex Triangle.toList n text (readRecords readTriangle n text).1
      (readRecords readTriangle n text).2 :=
  ⟨isLongest_readRecords (f := fun v => (⟨v.1, v.2.1, v.2.2⟩ : Point)) (fun _ => rfl)
      (fun _ _ _ => rfl) n text,
    isLongest_readRecords (f := fun v => (⟨v.1, v.2.1, v.2.2⟩ : Triangle)) (fun _ => rfl)
      (fun _ _ _ => rfl) n text⟩

example : (readRecords readPoint 7 "1 0 0 2\n5 VERTICES 0".toList).2 =
    " 2\n5 VERTICES 0".toList := by
  decide +kernel

end Facet
