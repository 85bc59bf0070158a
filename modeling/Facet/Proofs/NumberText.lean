import Facet.Proofs.DecimalText
import Facet.Proofs.FloatBits
import Facet.Proofs.WordReading

namespace Facet

theorem isBlank_of_isDigit {c : Char} (h : c.isDigit = true) : isBlank c = false := by
  rw [Bool.eq_false_iff]
  intro hblank
  simp only [Char.isDigit, isBlank, Bool.and_eq_true, Bool.or_eq_true, decide_eq_true_eq, beq_iff_eq,
    ge_iff_le, UInt32.le_iff_toNat_le, ← UInt32.toNat_inj, UInt32.reduceToNat, Char.reduceVal] at h hblank
  omega

theorem toLower_of_isDigit {c : Char} (h : c.isDigit = true) : c.toLower = c := by
  simp only [Char.isDigit, Bool.and_eq_true, decide_eq_true_eq] at h
  rw [Char.toLower, dif_neg]
  grind

theorem readCount_countText {limit n : Nat} (h : n ≤ limit) :
    readCount limit (countText n) = some n := by
  have hdigits := isDigits_countText n
  have hne := countText_ne_nil n
  unfold readCount
  split
  next rest heq =>
    have := hdigits '+' (by simp [heq])
    simp at this
  next =>
    simp only [digitsValue_countText]
    exact if_pos ⟨hne, List.all_eq_true.mpr hdigits, h⟩

theorem readCount_countText_of_lt {limit n : Nat} (h : limit < n) :
    readCount limit (countText n) = none := by
  unfold readCount
  split
  next rest heq =>
    have hplus := isDigits_countText n '+' (by simp [heq])
    exact absurd hplus (by decide)
  next =>
    simp only [digitsValue_countText]
    exact if_neg fun hall => absurd hall.2.2 (Nat.not_le.mpr h)

theorem readCount_le {limit n : Nat} {word : List Char} (h : readCount limit word = some n) :
    n ≤ limit := by
  simp only [readCount, Option.ite_none_right_eq_some] at h
  obtain ⟨⟨-, -, hle⟩, hvalue⟩ := h
  cases Option.some.inj hvalue
  exact hle

theorem readIndex_countText (i : UInt32) : readIndex (countText i.toNat) = some i := by
  rw [readIndex, readCount_countText (by have := i.toNat_lt; omega)]
  simp

theorem readMagnitude_of_isDigit {c : Char} (h : c.isDigit = true) (rest : List Char) :
    readMagnitude (c :: rest) = (readDecimal (c :: rest)).map Decimal.nearest := by
  have hi : c ≠ 'i' := by rintro rfl; simp at h
  have hn : c ≠ 'n' := by rintro rfl; simp at h
  simp [readMagnitude, toLower_of_isDigit h, hi, hn]

theorem readMagnitude_digits {digits : List Char} (hne : digits ≠ []) (h : IsDigits digits) :
    readMagnitude digits = some (Decimal.nearest ⟨digitsValue digits, 0⟩) := by
  obtain ⟨c, rest, rfl⟩ := List.exists_cons_of_ne_nil hne
  rw [readMagnitude_of_isDigit (h c List.mem_cons_self), readDecimal_digits hne h, Option.map_some]

/-- Whatever reads as a count reads as a number. -/
theorem readCount_eq_none {word : List Char} (h : readFloat word = none) (limit : Nat) :
    readCount limit word = none := by
  have hdigits : ∀ digits, readMagnitude digits = none →
      ¬(digits ≠ [] ∧ digits.all Char.isDigit = true ∧ digitsValue digits ≤ limit) := by
    rintro digits hnone ⟨hne, hall, -⟩
    rw [readMagnitude_digits hne (List.all_eq_true.mp hall)] at hnone
    cases hnone
  unfold readFloat at h
  split at h
  next rest => simp [readCount]
  next rest => exact if_neg (hdigits rest (Option.map_eq_none_iff.mp h))
  next hminus hplus =>
    unfold readCount
    split
    next rest => exact absurd rfl (hplus rest)
    next =>
      simp only
      exact if_neg (hdigits word (Option.map_eq_none_iff.mp h))

theorem readIndex_eq_none {word : List Char} (h : readFloat word = none) :
    readIndex word = none := by
  rw [readIndex, readCount_eq_none h, Option.map_none]

theorem readMagnitude_magnitudeText {bits : Nat} (h : bits ≤ infinityBits) :
    readMagnitude (magnitudeText bits) = some bits := by
  unfold magnitudeText
  split
  next hzero => rw [hzero]; rfl
  next =>
    split
    next hinf => rw [hinf]; rfl
    next =>
      obtain ⟨c, rest, htext, hc⟩ := (Decimal.shortest bits).head?_text
      rw [htext, readMagnitude_of_isDigit hc, ← htext, Decimal.readDecimal_text,
        Decimal.nearest_shortest h]

theorem head?_magnitudeText (bits : Nat) :
    ∃ c rest, magnitudeText bits = c :: rest ∧ c ≠ '-' ∧ c ≠ '+' := by
  unfold magnitudeText
  split
  next => exact ⟨'0', [], rfl, by decide, by decide⟩
  next =>
    split
    next => exact ⟨'i', ['n', 'f'], rfl, by decide, by decide⟩
    next =>
      obtain ⟨c, rest, htext, hc⟩ := (Decimal.shortest bits).head?_text
      exact ⟨c, rest, htext, by rintro rfl; simp at hc, by rintro rfl; simp at hc⟩

theorem readFloat_floatText (x : Float) : readFloat (floatText x) = some x := by
  unfold floatText
  simp only
  split
  next hnan =>
    have : readFloat ['N', 'a', 'N'] = some (signedFloat false (infinityBits + 1 <<< 51)) := by
      decide
    rw [this, signedFloat, if_neg (by decide), ← toBits_of_infinityBits_lt hnan,
      UInt64.ofNat_toNat, Float.ofBits_toBits]
  next hnum =>
    have hread := readMagnitude_magnitudeText (show magnitudeBits x ≤ infinityBits by omega)
    have hself := signedFloat_bits x
    cases hneg : isNegative x with
    | true =>
      rw [hneg] at hself
      simp only [if_true, readFloat, hread, Option.map_some, hself]
    | false =>
      rw [hneg] at hself
      obtain ⟨c, rest, htext, hminus, hplus⟩ := head?_magnitudeText (magnitudeBits x)
      rw [htext] at hread
      rw [if_neg (by decide), htext]
      unfold readFloat
      split
      next heq => exact absurd (List.cons.inj heq).1 hminus
      next heq => exact absurd (List.cons.inj heq).1 hplus
      next => rw [hread, Option.map_some, hself]

theorem isBlank_of_mem_countText {n : Nat} {c : Char} (h : c ∈ countText n) :
    isBlank c = false :=
  isBlank_of_isDigit (isDigits_countText n c h)

theorem isWord_countText (n : Nat) : IsWord (countText n) :=
  ⟨countText_ne_nil n, fun _ hc => isBlank_of_mem_countText hc⟩

theorem Decimal.isBlank_of_mem_text {d : Decimal} {c : Char} (h : c ∈ d.text) :
    isBlank c = false := by
  obtain ⟨whole, fraction, -, hdigits, htext, -⟩ := d.text_eq
  have hmem : c ∈ whole ++ fraction ∨ c = '.' := by
    rw [htext] at h
    split at h
    next => exact Or.inl (List.mem_append_left _ h)
    next =>
      rcases List.mem_append.mp h with hw | hf
      · exact Or.inl (List.mem_append_left _ hw)
      · exact (List.mem_cons.mp hf).symm.imp_left (List.mem_append_right _)
  rcases hmem with hmem | rfl
  · exact isBlank_of_isDigit (hdigits c hmem)
  · decide

theorem isBlank_of_mem_magnitudeText {bits : Nat} {c : Char} (h : c ∈ magnitudeText bits) :
    isBlank c = false := by
  unfold magnitudeText at h
  split at h
  next => rw [List.mem_singleton.mp h]; decide
  next =>
    split at h
    next =>
      have hword : IsWord ['i', 'n', 'f'] := by decide
      exact hword.solid c h
    next => exact Decimal.isBlank_of_mem_text h

theorem isWord_floatText (x : Float) : IsWord (floatText x) := by
  obtain ⟨c, rest, htext, -, -⟩ := head?_magnitudeText (magnitudeBits x)
  have hsolid : ∀ c ∈ magnitudeText (magnitudeBits x), isBlank c = false :=
    fun _ hc => isBlank_of_mem_magnitudeText hc
  unfold floatText
  simp only
  split
  next =>
    have hword : IsWord ['N', 'a', 'N'] := by decide
    exact hword
  next =>
    split
    next =>
      refine ⟨List.cons_ne_nil _ _, ?_⟩
      rintro c (_ | ⟨_, hc⟩)
      · decide
      · exact hsolid c hc
    next => exact ⟨by simp [htext], hsolid⟩

end Facet
