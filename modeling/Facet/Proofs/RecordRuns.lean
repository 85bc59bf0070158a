import Facet.Proofs.TextWords

namespace Facet

/-- The first three words can be read. -/
def StartsRecord {α : Type} (read : List Char → Option α) (texts : List (List Char)) : Prop :=
  ∃ a b c others, texts = a :: b :: c :: others ∧
    (read a).isSome = true ∧ (read b).isSome = true ∧ (read c).isSome = true

/-- The words of `k` records, and behind them words that are no record, or too few. -/
structure BreaksOff {α : Type} (read : List Char → Option α) (k : Nat)
    (texts : List (List Char)) : Prop where
  parts : ∃ front rest, texts = front ++ rest ∧ front.length = 3 * k ∧
    (∀ word ∈ front, (read word).isSome = true) ∧ ¬ StartsRecord read rest

theorem BreaksOff.three_mul_le {α : Type} {read : List Char → Option α} {k : Nat}
    {texts : List (List Char)} (h : BreaksOff read k texts) : 3 * k ≤ texts.length := by
  obtain ⟨front, rest, rfl, hlength, -, -⟩ := h.parts
  rw [List.length_append]
  omega

theorem breaksOff_zero {α : Type} {read : List Char → Option α} {texts : List (List Char)} :
    BreaksOff read 0 texts ↔ ¬ StartsRecord read texts := by
  constructor
  · rintro ⟨front, rest, rfl, hlength, -, hrest⟩
    rwa [List.length_eq_zero_iff.mp hlength]
  · intro h
    exact ⟨[], texts, rfl, rfl, nofun, h⟩

theorem breaksOff_succ {α : Type} {read : List Char → Option α} {k : Nat}
    {texts : List (List Char)} :
    BreaksOff read (k + 1) texts ↔ ∃ a b c others, texts = a :: b :: c :: others ∧
      (read a).isSome = true ∧ (read b).isSome = true ∧ (read c).isSome = true ∧
      BreaksOff read k others := by
  constructor
  · rintro ⟨front, rest, rfl, hlength, hreads, hrest⟩
    obtain ⟨a, b, c, front, rfl⟩ : ∃ a b c others, front = a :: b :: c :: others := by
      match front, hlength with
      | a :: b :: c :: others, _ => exact ⟨a, b, c, others, rfl⟩
    simp only [List.forall_mem_cons] at hreads
    obtain ⟨ha, hb, hc, hothers⟩ := hreads
    simp only [List.length_cons] at hlength
    exact ⟨a, b, c, front ++ rest, rfl, ha, hb, hc, front, rest, rfl, by omega, hothers, hrest⟩
  · rintro ⟨a, b, c, others, rfl, ha, hb, hc, front, rest, rfl, hlength, hreads, hrest⟩
    refine ⟨a :: b :: c :: front, rest, rfl, by simp [hlength]; omega, ?_, hrest⟩
    simp only [List.forall_mem_cons]
    exact ⟨ha, hb, hc, hreads⟩

section Counting

variable {α ρ : Type} {read : List Char → Option α}
  {readRecord : List Char → Option (ρ × List Char)} {f : α × α × α → ρ}

/-- Fewer records are read than asked for exactly if the words break off there. -/
theorem length_readRecords_eq_iff
    (hrecord : ∀ text, readRecord text = (readTriple read text).map (Prod.map f id))
    {n k : Nat} (hk : k < n) (text : List Char) :
    (readRecords readRecord n text).1.length = k ↔ BreaksOff read k (words text) := by
  induction n generalizing k text with
  | zero => omega
  | succ n ih =>
    have hstarts : (readTriple read text).isSome = true ↔ StartsRecord read (words text) :=
      isSome_readTriple_iff
    cases hread : readTriple read text with
    | none =>
      have hnone : readRecord text = none := by rw [hrecord, hread]; rfl
      have hstop : ¬ StartsRecord read (words text) := by
        intro hstarts
        have hsome := isSome_readTriple_iff.mpr hstarts
        rw [hread] at hsome
        cases hsome
      rw [readRecords, hnone]
      constructor
      · rintro rfl
        exact breaksOff_zero.mpr hstop
      · intro hbreaks
        cases k with
        | zero => rfl
        | succ k =>
          obtain ⟨a, b, c, others, hwords, ha, hb, hc, -⟩ := breaksOff_succ.mp hbreaks
          exact absurd ⟨a, b, c, others, hwords, ha, hb, hc⟩ hstop
    | some found =>
      obtain ⟨⟨x, y, z⟩, left⟩ := found
      have hsome : readRecord text = some (f (x, y, z), left) := by rw [hrecord, hread]; rfl
      obtain ⟨a, b, c, hwords, ha, hb, hc⟩ := words_of_readTriple hread
      have ha := Option.isSome_of_mem ha
      have hb := Option.isSome_of_mem hb
      have hc := Option.isSome_of_mem hc
      rw [readRecords, hsome]
      cases k with
      | zero =>
        rw [breaksOff_zero, hwords]
        constructor
        · intro hlength
          cases hlength
        · intro hstop
          exact absurd ⟨a, b, c, words left, rfl, ha, hb, hc⟩ hstop
      | succ k =>
        have hleft := ih (Nat.lt_of_succ_lt_succ hk) left
        simp only [List.length_cons, Nat.add_right_cancel_iff, hleft, breaksOff_succ, hwords]
        constructor
        · intro hbreaks
          exact ⟨a, b, c, words left, rfl, ha, hb, hc, hbreaks⟩
        · rintro ⟨_, _, _, _, hsame, -, -, -, hbreaks⟩
          cases hsame
          exact hbreaks

end Counting

theorem length_readPoints_eq_iff {n k : Nat} (hk : k < n) (text : List Char) :
    (readRecords readPoint n text).1.length = k ↔ BreaksOff readFloat k (words text) :=
  length_readRecords_eq_iff (f := fun v => (⟨v.1, v.2.1, v.2.2⟩ : Point)) (fun _ => rfl) hk text

theorem length_readTriangles_eq_iff {n k : Nat} (hk : k < n) (text : List Char) :
    (readRecords readTriangle n text).1.length = k ↔ BreaksOff readIndex k (words text) :=
  length_readRecords_eq_iff (f := fun v => (⟨v.1, v.2.1, v.2.2⟩ : Triangle)) (fun _ => rfl) hk
    text

end Facet
