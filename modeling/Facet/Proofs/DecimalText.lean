import Facet.Numeral
import Facet.Proofs.NearestMagnitude

namespace Facet

theorem two_pow_le_ten_pow {m n : Nat} (h : m ≤ 3 * n) : 2 ^ m ≤ 10 ^ n := by
  calc 2 ^ m ≤ 2 ^ (3 * n) := Nat.pow_le_pow_right (by decide) h
    _ = (2 ^ 3) ^ n := Nat.pow_mul ..
    _ ≤ 10 ^ n := Nat.pow_le_pow_left (by decide) n

namespace Decimal

theorem small_of_log2 {c s p : Nat} (h : c.log2 + s + 2 ≤ 3 * p) : 2 * (c * 2 ^ s) < 10 ^ p := by
  have hpos := Nat.two_pow_pos s
  calc 2 * (c * 2 ^ s) < 2 * (2 ^ (c.log2 + 1) * 2 ^ s) := by
        apply Nat.mul_lt_mul_of_pos_left _ (by decide)
        exact Nat.mul_lt_mul_of_pos_right Nat.lt_log2_self hpos
    _ = 2 ^ (c.log2 + s + 2) := by
        rw [← Nat.pow_add, Nat.mul_comm, ← Nat.pow_succ]
        congr 1
        omega
    _ ≤ 10 ^ p := two_pow_le_ten_pow h

theorem nearest_eq (d : Decimal) : d.nearest =
    if d.coefficient = 0 then 0
    else if 400 < d.exponent then infinityBits
    else if d.exponent + d.coefficient.log2 < -400 then 0
    else if 0 ≤ d.exponent then nearestBits (d.coefficient * 10 ^ d.exponent.toNat * 2 ^ 1074) 1
    else nearestBits (d.coefficient * 2 ^ 1074) (10 ^ (-d.exponent).toNat) := by
  have hshift (n k : Nat) : n <<< k = n * 2 ^ k := Nat.shiftLeft_eq n k
  simp only [nearest, hshift, Nat.pow_eq]

theorem lastPlace_eq (bits : Nat) : lastPlace bits =
    if 1074 ≤ doublings bits then ⟨2 ^ (doublings bits - 1074), 0⟩
    else ⟨5 ^ (1074 - doublings bits), doublings bits - 1074⟩ := by
  rw [lastPlace, Nat.one_shiftLeft, Nat.pow_eq]

/-- The magnitude does not depend on how the powers of ten are split off, nor on the exponents that
are settled without a division. -/
theorem nearest_eq_nearestBits (d : Decimal) {k n : Nat} (h : d.exponent + k = n) :
    d.nearest = nearestBits (d.coefficient * 2 ^ 1074 * 10 ^ n) (10 ^ k) := by
  have hten : 0 < 10 ^ k := Nat.pow_pos (by decide)
  have hscale (e : Nat) : d.coefficient * 10 ^ e * 2 ^ 1074 = d.coefficient * 2 ^ 1074 * 10 ^ e :=
    Nat.mul_right_comm ..
  rw [nearest_eq]
  split
  next hc =>
    rw [nearestBits_of_small]
    simpa only [hc, Nat.zero_mul, Nat.mul_zero] using hten
  next hc =>
    split
    next he =>
      obtain ⟨e, he'⟩ := Int.eq_ofNat_of_zero_le (show 0 ≤ d.exponent by omega)
      obtain rfl : e + k = n := by omega
      obtain ⟨a, ha⟩ : ∃ a, 52 + 2046 = a + 1074 := ⟨1024, rfl⟩
      have hlarge : 2 ^ a ≤ d.coefficient * 10 ^ e :=
        Nat.le_trans (two_pow_le_ten_pow (by omega)) (Nat.le_mul_of_pos_left _ (by omega))
      rw [nearestBits_of_large hten]
      rw [units_infinityBits, ha, pow_add 2 a, pow_add 10, ← Nat.mul_assoc, ← hscale]
      exact Nat.mul_le_mul_right _ (Nat.mul_le_mul_right _ hlarge)
    next =>
      split
      next he =>
        obtain ⟨p, rfl⟩ : ∃ p : Nat, k = p + n := ⟨k - n, by omega⟩
        have hsmall : 2 * (d.coefficient * 2 ^ 1074) < 10 ^ p := by
          apply small_of_log2
          omega
        rw [nearestBits_of_small]
        rw [← Nat.mul_assoc, Nat.pow_add]
        exact Nat.mul_lt_mul_of_pos_right hsmall (Nat.pow_pos (by decide))
      next =>
        split
        next he =>
          obtain ⟨e, he'⟩ := Int.eq_ofNat_of_zero_le he
          obtain rfl : e + k = n := by omega
          rw [he', Int.toNat_natCast, hscale, Nat.pow_add, ← Nat.mul_assoc]
          have := nearestBits_scaled hten (d.coefficient * 2 ^ 1074 * 10 ^ e) 1
          rw [← this, Nat.one_mul]
        next he =>
          obtain ⟨p, hp⟩ := Int.eq_ofNat_of_zero_le (show 0 ≤ -d.exponent by omega)
          obtain rfl : k = p + n := by omega
          rw [hp, Int.toNat_natCast, Nat.pow_add]
          exact (nearestBits_scaled (Nat.pow_pos (by decide)) _ _).symm

/-- Two ways to write one value read as the same magnitude. -/
theorem nearest_eq_of_value {d e : Decimal} {k m n : Nat} (hd : d.exponent + k = m)
    (he : e.exponent + k = n) (h : d.coefficient * 10 ^ m = e.coefficient * 10 ^ n) :
    d.nearest = e.nearest := by
  rw [nearest_eq_nearestBits d hd, nearest_eq_nearestBits e he, Nat.mul_right_comm, h,
    Nat.mul_right_comm]

theorem nearest_exactly {bits : Nat} (h : bits ≤ infinityBits) : (exactly bits).nearest = bits := by
  by_cases hd : 1074 ≤ doublings bits
  · obtain ⟨k, hk⟩ : ∃ k, doublings bits = k + 1074 := ⟨doublings bits - 1074, by omega⟩
    have hlast : lastPlace bits = ⟨2 ^ k, 0⟩ := by
      rw [lastPlace_eq, if_pos hd, hk, Nat.add_sub_cancel]
    have hexp : (exactly bits).exponent + (0 : Nat) = (0 : Nat) := by simp [exactly, hlast]
    have hvalue : (exactly bits).coefficient * 2 ^ 1074 * 10 ^ 0 = units bits * 10 ^ 0 := by
      simp only [exactly, hlast, units_eq, hk, Nat.pow_add, Nat.mul_assoc]
    rw [nearest_eq_nearestBits _ hexp, hvalue]
    exact nearestBits_units h (by decide)
  · obtain ⟨k, hk⟩ : ∃ k, 1074 = doublings bits + k := ⟨1074 - doublings bits, by omega⟩
    have hlast : lastPlace bits = ⟨5 ^ k, -k⟩ := by
      rw [lastPlace_eq, if_neg hd, hk]
      congr <;> omega
    have hexp : (exactly bits).exponent + k = (0 : Nat) := by
      simp only [exactly, hlast]
      omega
    have hvalue : (exactly bits).coefficient * 2 ^ 1074 * 10 ^ 0 = units bits * 10 ^ k := by
      simp only [exactly, hlast, units_eq, Nat.pow_zero, Nat.mul_one]
      rw [hk, Nat.pow_add, show 10 = 5 * 2 from rfl, Nat.mul_pow]
      exact Nat.mul_mul_mul_comm ..
    rw [nearest_eq_nearestBits _ hexp, hvalue]
    exact nearestBits_units h (Nat.pow_pos (by decide))

/-- The decimal that is written for a magnitude reads back as it. -/
theorem nearest_shortest {bits : Nat} (h : bits ≤ infinityBits) : (shortest bits).nearest = bits := by
  unfold shortest
  simp only
  cases hfound : (List.range 17).findSome? fun i =>
      ((exactly bits).neighbours (lastPlace bits).coefficient
        (digitCount (exactly bits).coefficient - (i + 1))).find? (·.nearest = bits) with
  | none => exact nearest_exactly h
  | some d =>
    obtain ⟨i, -, hd⟩ := List.exists_of_findSome?_eq_some hfound
    simpa using List.find?_some hd

end Decimal


/-- Nothing but decimal digits. -/
def IsDigits (text : List Char) : Prop :=
  ∀ c ∈ text, c.isDigit = true

theorem IsDigits.append {a b : List Char} (ha : IsDigits a) (hb : IsDigits b) :
    IsDigits (a ++ b) := by
  intro c hc
  exact (List.mem_append.mp hc).elim (ha c) (hb c)

theorem IsDigits.of_subset {a b : List Char} (hb : IsDigits b) (h : a ⊆ b) : IsDigits a :=
  fun c hc => hb c (h hc)

theorem isDigits_zeros (n : Nat) : IsDigits (List.replicate n '0') := by
  intro c hc
  rw [List.eq_of_mem_replicate hc]
  rfl

theorem isDigits_countText (n : Nat) : IsDigits (countText n) :=
  fun _ hc => Nat.isDigit_of_mem_toDigits (by decide) (by decide) hc

theorem countText_ne_nil (n : Nat) : countText n ≠ [] :=
  Nat.toDigits_ne_nil

theorem digitsValue_countText (n : Nat) : digitsValue (countText n) = n :=
  Nat.ofDigitChars_ten_toDigits

theorem digitsValue_append_zeros (digits : List Char) (k : Nat) :
    digitsValue (digits ++ List.replicate k '0') = digitsValue digits * 10 ^ k := by
  rw [Nat.mul_comm]
  exact (Nat.ofDigitChars_append 0).trans Nat.ofDigitChars_replicate_zero

theorem digitsValue_zeros_append (digits : List Char) (k : Nat) :
    digitsValue (List.replicate k '0' ++ digits) = digitsValue digits := by
  have hzeros : digitsValue (List.replicate k '0') = 0 := Nat.ofDigitChars_replicate_zero
  rw [digitsValue, List.foldl_append]
  exact congrArg (Nat.ofDigitChars 10 digits) hzeros

theorem readDecimal_digits {digits : List Char} (hne : digits ≠ []) (h : IsDigits digits) :
    readDecimal digits = some ⟨digitsValue digits, 0⟩ := by
  have htake : digits.takeWhile Char.isDigit = digits := List.takeWhile_eq_self_iff.mpr h
  have hdrop : digits.dropWhile Char.isDigit = [] := List.dropWhile_eq_nil_iff.mpr h
  simp [readDecimal, htake, hdrop, hne, readExponent]

theorem readDecimal_point {whole fraction : List Char} (hne : whole ≠ []) (hw : IsDigits whole)
    (hf : IsDigits fraction) :
    readDecimal (whole ++ '.' :: fraction) =
      some ⟨digitsValue (whole ++ fraction), -fraction.length⟩ := by
  have htake : (whole ++ '.' :: fraction).takeWhile Char.isDigit = whole := by
    simp [List.takeWhile_append_of_pos hw]
  have hdrop : (whole ++ '.' :: fraction).dropWhile Char.isDigit = '.' :: fraction := by
    simp [List.dropWhile_append_of_pos hw]
  have hftake : fraction.takeWhile Char.isDigit = fraction := List.takeWhile_eq_self_iff.mpr hf
  have hfdrop : fraction.dropWhile Char.isDigit = [] := List.dropWhile_eq_nil_iff.mpr hf
  simp [readDecimal, htake, hdrop, hftake, hfdrop, hne, readExponent]

theorem trimZeros_append_zeros (digits : List Char) :
    ∃ k, digits = trimZeros digits ++ List.replicate k '0' := by
  let zeros := digits.reverse.takeWhile (· = '0')
  have hzeros : zeros = List.replicate zeros.length '0' := by
    apply List.eq_replicate_of_mem
    intro c hc
    simpa using List.all_eq_true.mp List.all_takeWhile c hc
  have hsplit : digits.reverse = zeros ++ digits.reverse.dropWhile (· = '0') :=
    List.takeWhile_append_dropWhile.symm
  have hback := congrArg List.reverse hsplit
  rw [List.reverse_reverse, List.reverse_append, hzeros, List.reverse_replicate] at hback
  exact ⟨zeros.length, hback⟩

namespace Decimal

/-- The digits in front of the point, at least one, and those behind it. -/
theorem text_eq (d : Decimal) : ∃ whole fraction, whole ≠ [] ∧ IsDigits (whole ++ fraction) ∧
    d.text = (if fraction = [] then whole else whole ++ '.' :: fraction) ∧
    (⟨digitsValue (whole ++ fraction), -fraction.length⟩ : Decimal).nearest = d.nearest := by
  have hdigits := isDigits_countText d.coefficient
  by_cases he : 0 ≤ d.exponent
  · refine ⟨countText d.coefficient ++ List.replicate d.exponent.toNat '0', [], ?_, ?_, ?_, ?_⟩
    · simp [countText_ne_nil]
    · simpa using hdigits.append (isDigits_zeros _)
    · simp [text, he]
    · rw [List.append_nil, digitsValue_append_zeros, digitsValue_countText]
      apply nearest_eq_of_value (k := 0) (m := 0) (n := d.exponent.toNat)
      · simp
      · omega
      · simp
  · obtain ⟨places, hplaces⟩ := Int.eq_ofNat_of_zero_le (show 0 ≤ -d.exponent by omega)
    let padded := List.replicate (places + 1 - (countText d.coefficient).length) '0' ++
      countText d.coefficient
    have hlength : places < padded.length := by
      simp only [padded, List.length_append, List.length_replicate]
      omega
    have hpadded : IsDigits padded := (isDigits_zeros _).append hdigits
    have hvalue : digitsValue padded = d.coefficient := by
      rw [digitsValue_zeros_append, digitsValue_countText]
    let whole := padded.take (padded.length - places)
    let fraction := trimZeros (padded.drop (padded.length - places))
    obtain ⟨k, hk⟩ : ∃ k, padded.drop (padded.length - places) =
        fraction ++ List.replicate k '0' := trimZeros_append_zeros _
    have hsplit : padded = (whole ++ fraction) ++ List.replicate k '0' := by
      rw [List.append_assoc, ← hk, List.take_append_drop]
    refine ⟨whole, fraction, ?_, ?_, ?_, ?_⟩
    · apply List.ne_nil_of_length_pos
      simp only [whole, List.length_take]
      omega
    · exact hpadded.of_subset fun c hc => by rw [hsplit]; exact List.mem_append_left _ hc
    · simp only [text, if_neg he, hplaces, Int.toNat_natCast]
      split
      next hnil => exact (if_pos hnil).symm
      next hne => exact (if_neg hne).symm
    · have hcount : fraction.length + k = places := by
        have := congrArg List.length hk
        simp only [List.length_drop, List.length_append, List.length_replicate] at this
        omega
      apply nearest_eq_of_value (k := places) (m := k) (n := 0)
      · simp only
        omega
      · omega
      · rw [← hvalue, hsplit, digitsValue_append_zeros]
        simp

end Decimal


theorem Decimal.head?_text (d : Decimal) : ∃ c rest, d.text = c :: rest ∧ c.isDigit = true := by
  obtain ⟨whole, fraction, hne, hdigits, htext, -⟩ := d.text_eq
  obtain ⟨c, rest, rfl⟩ := List.exists_cons_of_ne_nil hne
  refine ⟨c, if fraction = [] then rest else rest ++ '.' :: fraction, ?_, hdigits c (by simp)⟩
  rw [htext]
  split <;> rfl

theorem Decimal.readDecimal_text (d : Decimal) :
    (readDecimal d.text).map nearest = some d.nearest := by
  obtain ⟨whole, fraction, hne, hdigits, htext, hvalue⟩ := d.text_eq
  have hw : IsDigits whole := hdigits.of_subset (List.subset_append_left _ _)
  have hf : IsDigits fraction := hdigits.of_subset (List.subset_append_right _ _)
  rw [htext, ← hvalue]
  split
  next hnil =>
    rw [readDecimal_digits hne hw, hnil, List.append_nil]
    rfl
  next => rw [readDecimal_point hne hw hf, Option.map_some]

end Facet
