import Facet.Proofs.OperationOrder

namespace Facet

open Float.Model Float.Model.UnpackedFloat

/-- The place of a number in the order of all numbers. Both zeros have the same place. -/
def rank (x : Float) : Int :=
  (signOf x).apply (magnitudeBits x)

theorem lt_significand {a b : Nat} (h : a < b) (hsame : doublings a = doublings b) :
    significand a < significand b := by
  have hunits := strictMono_units h
  rw [units_eq, units_eq, hsame] at hunits
  exact Nat.lt_of_mul_lt_mul_right hunits

theorem doublings_le {a b : Nat} (h : a ≤ b) : doublings a ≤ doublings b := by
  have hdiv : a / 2 ^ 52 ≤ b / 2 ^ 52 := Nat.div_le_div_right h
  rw [doublings, doublings, Nat.shiftRight_eq_div_pow, Nat.shiftRight_eq_div_pow]
  omega

/-- Magnitudes are in the order of their exponents first and of their digits then. -/
theorem compare_doublings_then (a b : Nat) :
    (compare ((doublings a : Int) - 1074) (doublings b - 1074)).then
      (compare (significand a) (significand b)) = compare (a : Int) b := by
  rcases Nat.lt_trichotomy a b with hlt | rfl | hgt
  · rw [Int.compare_eq_lt.mpr (show (a : Int) < b by omega)]
    rcases Nat.lt_or_eq_of_le (doublings_le hlt.le) with hless | hsame
    · rw [Int.compare_eq_lt.mpr (by omega)]
      rfl
    · rw [hsame, Int.compare_eq_eq.mpr rfl, Nat.compare_eq_lt.mpr (lt_significand hlt hsame)]
      rfl
  · rw [Int.compare_eq_eq.mpr rfl, Int.compare_eq_eq.mpr rfl, Nat.compare_eq_eq.mpr rfl]
    rfl
  · rw [Int.compare_eq_gt.mpr (show (b : Int) < a by omega)]
    rcases Nat.lt_or_eq_of_le (doublings_le hgt.le) with hless | hsame
    · rw [Int.compare_eq_gt.mpr (by omega)]
      rfl
    · rw [hsame, Int.compare_eq_eq.mpr rfl, Nat.compare_eq_gt.mpr (lt_significand hgt hsame)]
      rfl

theorem compare_neg_neg (a b : Int) : compare (-a) (-b) = (compare a b).swap := by
  rcases Int.lt_trichotomy a b with hlt | rfl | hgt
  · rw [Int.compare_eq_lt.mpr hlt, Int.compare_eq_gt.mpr (by omega)]
    rfl
  · rw [Int.compare_eq_eq.mpr rfl, Int.compare_eq_eq.mpr rfl]
    rfl
  · rw [Int.compare_eq_gt.mpr hgt, Int.compare_eq_lt.mpr (by omega)]
    rfl

/-- A number that is not a NaN is zero, finite or infinite. -/
theorem unpack_cases {x : Float} (h : magnitudeBits x ≤ infinityBits) :
    (magnitudeBits x = 0 ∧ x.toModel.unpack = .zero (signOf x)) ∨
    (∃ hx : IsFiniteNonzero x, x.toModel.unpack = .finite (signOf x) (significand (magnitudeBits x))
      (doublings (magnitudeBits x) - 1074) (significand_pos hx.pos)) ∨
    (magnitudeBits x = infinityBits ∧ x.toModel.unpack = .infinity (signOf x)) := by
  rcases Nat.eq_zero_or_pos (magnitudeBits x) with hzero | hpos
  · exact Or.inl ⟨hzero, unpack_of_zero hzero⟩
  · rcases Nat.lt_or_eq_of_le h with hlt | heq
    · exact Or.inr (Or.inl ⟨⟨hpos, hlt⟩, unpack_of_finite hpos hlt⟩)
    · exact Or.inr (Or.inr ⟨heq, unpack_of_infinity heq⟩)

theorem compare_unpack {a b : Float} (ha : magnitudeBits a ≤ infinityBits)
    (hb : magnitudeBits b ≤ infinityBits) :
    UnpackedFloat.compare a.toModel.unpack b.toModel.unpack = some (compare (rank a) (rank b)) := by
  have hinfinity := infinityBits_eq
  have hless {i j : Int} (h : i < j) : some Ordering.lt = some (compare i j) := by
    rw [Int.compare_eq_lt.mpr h]
  have hmore {i j : Int} (h : j < i) : some Ordering.gt = some (compare i j) := by
    rw [Int.compare_eq_gt.mpr h]
  have hsame {i j : Int} (h : i = j) : some Ordering.eq = some (compare i j) := by
    rw [Int.compare_eq_eq.mpr h]
  rcases unpack_cases ha with ⟨hbits, hua⟩ | ⟨⟨hpos, hlt⟩, hua⟩ | ⟨hbits, hua⟩ <;>
  rcases unpack_cases hb with ⟨hbits', hub⟩ | ⟨⟨hpos', hlt'⟩, hub⟩ | ⟨hbits', hub⟩ <;>
  rw [hua, hub, rank, rank] <;>
  cases signOf a <;> cases signOf b <;>
  simp only [UnpackedFloat.compare, Sign.apply] <;>
  try first
    | exact hless (by omega)
    | exact hmore (by omega)
    | exact hsame (by omega)
  -- What is left are two finite numbers of the same sign.
  · rw [compare_doublings_then, compare_neg_neg]
  · rw [compare_doublings_then]

theorem isNaN_iff (x : Float) : x.isNaN = true ↔ infinityBits < magnitudeBits x := by
  change x.toModel.unpack.isNaN = true ↔ _
  rcases Nat.lt_or_ge infinityBits (magnitudeBits x) with hnan | hnumber
  · rw [unpack_of_nan hnan]
    exact ⟨fun _ => hnan, fun _ => rfl⟩
  · have hfalse : x.toModel.unpack.isNaN = false := by
      rcases unpack_cases hnumber with ⟨-, hunpack⟩ | ⟨hx, hunpack⟩ | ⟨-, hunpack⟩ <;>
        rw [hunpack] <;> rfl
    rw [hfalse]
    exact ⟨nofun, fun h => absurd h (Nat.not_lt.mpr hnumber)⟩

theorem isInf_iff (x : Float) : x.isInf = true ↔ magnitudeBits x = infinityBits := by
  change x.toModel.unpack.isInf = true ↔ _
  rcases Nat.lt_or_ge infinityBits (magnitudeBits x) with hnan | hnumber
  · rw [unpack_of_nan hnan]
    exact iff_of_false nofun hnan.ne'
  · rcases unpack_cases hnumber with ⟨hzero, hunpack⟩ | ⟨hx, hunpack⟩ | ⟨hinfinite, hunpack⟩
    · rw [hunpack, hzero]
      exact iff_of_false nofun (by decide)
    · rw [hunpack]
      exact iff_of_false nofun hx.lt_infinity.ne
    · rw [hunpack]
      exact iff_of_true rfl hinfinite

theorem lt_iff_compare (a b : Float) :
    a < b ↔ UnpackedFloat.compare a.toModel.unpack b.toModel.unpack = some .lt := by
  change a.lt b = true ↔ _
  rw [Float.lt, decide_eq_true_iff]
  change (UnpackedFloat.compare a.toModel.unpack b.toModel.unpack == some .lt) = true ↔ _
  exact beq_iff_eq

theorem le_iff_compare (a b : Float) :
    a ≤ b ↔ (UnpackedFloat.compare a.toModel.unpack b.toModel.unpack).any (·.isLE) = true := by
  change a.le b = true ↔ _
  rw [Float.le, decide_eq_true_iff]
  rfl

theorem lt_iff_rank_lt {a b : Float} (ha : magnitudeBits a ≤ infinityBits)
    (hb : magnitudeBits b ≤ infinityBits) : a < b ↔ rank a < rank b := by
  rw [lt_iff_compare, compare_unpack ha hb, Option.some_inj, Int.compare_eq_lt]

/-- Numbers that compare are no NaNs. -/
theorem rank_le_rank {a b : Float} (h : a ≤ b) :
    magnitudeBits a ≤ infinityBits ∧ magnitudeBits b ≤ infinityBits ∧ rank a ≤ rank b := by
  rw [le_iff_compare] at h
  have ha : magnitudeBits a ≤ infinityBits := by
    by_contra hnan
    rw [unpack_of_nan (Nat.lt_of_not_le hnan)] at h
    cases h
  have hb : magnitudeBits b ≤ infinityBits := by
    by_contra hnan
    rw [unpack_of_nan (Nat.lt_of_not_le hnan)] at h
    cases hu : a.toModel.unpack <;> rw [hu] at h <;> cases h
  rw [compare_unpack ha hb] at h
  exact ⟨ha, hb, Int.isLE_compare.mp h⟩

theorem natAbs_rank (x : Float) : (rank x).natAbs = magnitudeBits x := by
  rw [rank]
  cases signOf x <;> simp only [Sign.apply] <;> omega

/-- Only the two zeros have the same place. -/
theorem eq_of_rank_eq {x y : Float} (hpos : 0 < magnitudeBits x) (h : rank x = rank y) : x = y := by
  rw [rank, rank] at h
  cases hx : signOf x <;> cases hy : signOf y <;> simp only [hx, hy, Sign.apply] at h
  case negative.negative => exact eq_of_bits (hx.trans hy.symm) (by omega)
  case negative.positive => omega
  case positive.negative => omega
  case positive.positive => exact eq_of_bits (hx.trans hy.symm) (by omega)

theorem IsPositive.rank_eq {x : Float} (h : IsPositive x) : rank x = magnitudeBits x := by
  rw [rank, h.sign, Sign.apply]

theorem isPositive_of_rank {x : Float} (hle : magnitudeBits x ≤ infinityBits) (h : 0 < rank x) :
    IsPositive x := by
  cases hsign : signOf x with
  | negative =>
    rw [rank, hsign, Sign.apply] at h
    omega
  | positive =>
    rw [rank, hsign, Sign.apply] at h
    exact ⟨hsign, by omega, hle⟩

section Floors

variable {a b floor : Float}

theorem greater_of_number (ha : magnitudeBits a ≤ infinityBits) (hfloor : IsPositive floor) :
    greater a floor = if a < floor then floor else a := by
  have hleft : ¬ a.isNaN = true := mt (isNaN_iff a).mp (Nat.not_lt.mpr ha)
  have hright : ¬ floor.isNaN = true := mt (isNaN_iff floor).mp (Nat.not_lt.mpr hfloor.le_infinity)
  rw [greater, if_neg hleft, if_neg hright]

/-- A positive floor makes every number positive, and puts it where the larger of the two is. -/
theorem greater_eq (ha : magnitudeBits a ≤ infinityBits) (hfloor : IsPositive floor) :
    IsPositive (greater a floor) ∧ rank (greater a floor) = max (rank a) (rank floor) := by
  have hless := lt_iff_rank_lt ha hfloor.le_infinity
  have hrank := hfloor.rank_eq
  have hpos := hfloor.pos
  rw [greater_of_number ha hfloor]
  split
  next h =>
    have hlt := hless.mp h
    exact ⟨hfloor, (max_eq_right hlt.le).symm⟩
  next h =>
    have hle := Int.not_lt.mp (mt hless.mpr h)
    exact ⟨isPositive_of_rank ha (by omega), (max_eq_left hle).symm⟩

theorem greater_le_greater (h : a ≤ b) (hfloor : IsPositive floor) :
    magnitudeBits (greater a floor) ≤ magnitudeBits (greater b floor) := by
  obtain ⟨ha, hb, hrank⟩ := rank_le_rank h
  obtain ⟨hleft, hleftrank⟩ := greater_eq ha hfloor
  obtain ⟨hright, hrightrank⟩ := greater_eq hb hfloor
  rw [hleft.rank_eq] at hleftrank
  rw [hright.rank_eq] at hrightrank
  omega

end Floors

end Facet
