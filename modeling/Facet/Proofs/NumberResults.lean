import Facet.Proofs.RoundedValues
import Facet.Vec3

namespace Facet

open Float.Model Float.Model.UnpackedFloat

section Operands

variable {x y : Float}

theorem number_iff_unpack (x : Float) :
    magnitudeBits x ≤ infinityBits ↔ x.toModel.unpack.isNaN = false := by
  have hnan : x.toModel.unpack.isNaN = true ↔ infinityBits < magnitudeBits x := isNaN_iff x
  rw [← Nat.not_lt, ← hnan, Bool.not_eq_true]

theorem number_of_pack {u : UnpackedFloat}
    (h : magnitudeBits (Float.ofModel (Float.Model.pack u)) ≤ infinityBits) : u.isNaN = false := by
  cases u with
  | notANumber => exact absurd h (Nat.not_le.mpr bits_of_notANumber)
  | infinity s => rfl
  | zero s => rfl
  | finite s m e hm => rfl

theorem number_of_add (h : magnitudeBits (x + y) ≤ infinityBits) :
    magnitudeBits x ≤ infinityBits ∧ magnitudeBits y ≤ infinityBits := by
  have hsum : (UnpackedFloat.add .binary64 x.toModel.unpack y.toModel.unpack).isNaN = false :=
    number_of_pack h
  rw [number_iff_unpack, number_iff_unpack]
  revert hsum
  cases x.toModel.unpack <;> cases y.toModel.unpack <;>
    simp [UnpackedFloat.add, UnpackedFloat.isNaN]

theorem number_of_mul (h : magnitudeBits (x * y) ≤ infinityBits) :
    magnitudeBits x ≤ infinityBits ∧ magnitudeBits y ≤ infinityBits := by
  have hproduct : (UnpackedFloat.mul .binary64 x.toModel.unpack y.toModel.unpack).isNaN = false :=
    number_of_pack h
  rw [number_iff_unpack, number_iff_unpack]
  revert hproduct
  cases x.toModel.unpack <;> cases y.toModel.unpack <;>
    simp [UnpackedFloat.mul, UnpackedFloat.isNaN]

theorem number_of_sqrt (h : magnitudeBits x.sqrt ≤ infinityBits) :
    magnitudeBits x ≤ infinityBits := by
  have hroot : (UnpackedFloat.sqrt .binary64 x.toModel.unpack).isNaN = false := number_of_pack h
  rw [number_iff_unpack]
  revert hroot
  cases x.toModel.unpack <;> simp [UnpackedFloat.sqrt, UnpackedFloat.isNaN]

theorem float_add_comm (x y : Float) : x + y = y + x := by
  have hadd : UnpackedFloat.add .binary64 x.toModel.unpack y.toModel.unpack =
      UnpackedFloat.add .binary64 y.toModel.unpack x.toModel.unpack := by
    cases x.toModel.unpack with
    | notANumber => cases y.toModel.unpack <;> rfl
    | infinity s =>
      cases y.toModel.unpack with
      | infinity t => cases s <;> cases t <;> rfl
      | _ => rfl
    | zero s =>
      cases y.toModel.unpack with
      | zero t => cases s <;> cases t <;> rfl
      | _ => rfl
    | finite s m e hm =>
      cases y.toModel.unpack with
      | finite t n f hn => simp only [UnpackedFloat.add, min_comm e f, Int.add_comm]
      | _ => rfl
  exact congrArg (fun u => Float.ofModel (Float.Model.pack u)) hadd

/-- Only the other infinity takes an infinity away. -/
theorem bits_add_infinity (hx : magnitudeBits x = infinityBits)
    (hy : magnitudeBits y ≤ infinityBits)
    (hsame : magnitudeBits y = infinityBits → signOf y = signOf x) :
    magnitudeBits (x + y) = infinityBits ∧ signOf (x + y) = signOf x := by
  have hsum : UnpackedFloat.add .binary64 x.toModel.unpack y.toModel.unpack =
      .infinity (signOf x) := by
    rw [unpack_of_infinity hx]
    rcases unpack_cases hy with ⟨-, hunpack⟩ | ⟨_, hunpack⟩ | ⟨hinfinite, hunpack⟩
    · rw [hunpack]
      rfl
    · rw [hunpack]
      rfl
    · rw [hunpack, hsame hinfinite]
      cases signOf x <;> rfl
  rw [add_eq_pack, hsum]
  exact bits_of_infinity _

theorem number_add (hx : magnitudeBits x ≤ infinityBits) (hy : magnitudeBits y ≤ infinityBits)
    (hsame : magnitudeBits x = infinityBits → magnitudeBits y = infinityBits →
      signOf x = signOf y) : magnitudeBits (x + y) ≤ infinityBits := by
  rcases Nat.lt_or_eq_of_le hx with hxfinite | hxinfinite
  · rcases Nat.lt_or_eq_of_le hy with hyfinite | hyinfinite
    · exact (isRounded_add hxfinite hyfinite).nearest.le_infinity
    · rw [float_add_comm]
      exact (bits_add_infinity hyinfinite hx fun h => hsame h hyinfinite).1.le
  · exact (bits_add_infinity hxinfinite hy fun h => (hsame hxinfinite h).symm).1.le

theorem number_sub_iff : magnitudeBits (x - y) ≤ infinityBits ↔
    magnitudeBits x ≤ infinityBits ∧ magnitudeBits y ≤ infinityBits ∧
      ¬ (magnitudeBits x = infinityBits ∧ x = y) := by
  rw [subtract_eq_add_neg]
  constructor
  · intro h
    obtain ⟨hx, hneg⟩ := number_of_add h
    have hy : magnitudeBits y ≤ infinityBits := by
      rw [number_iff_unpack, unpack_neg] at hneg
      rw [number_iff_unpack, ← hneg]
      cases y.toModel.unpack <;> rfl
    refine ⟨hx, hy, ?_⟩
    rintro ⟨hinfinite, rfl⟩
    have hadd : (UnpackedFloat.add .binary64 x.toModel.unpack (-x).toModel.unpack).isNaN = false :=
      number_of_pack h
    rw [unpack_neg, unpack_of_infinity hinfinite] at hadd
    cases hsign : signOf x <;> rw [hsign] at hadd <;> cases hadd
  · rintro ⟨hx, hy, hdifferent⟩
    obtain ⟨hbits, hsign⟩ := bits_neg hy
    refine number_add hx (hbits ▸ hy) fun hxinfinite hyinfinite => ?_
    rw [hsign]
    have hne : signOf x ≠ signOf y := fun heq =>
      hdifferent ⟨hxinfinite, eq_of_bits heq (hxinfinite.trans (hyinfinite.symm.trans hbits))⟩
    revert hne
    cases signOf x <;> cases signOf y <;> simp <;> rfl

/-- A number not below zero. It may be infinite, and it may be the zero with a minus sign. -/
structure IsNonneg (x : Float) : Prop where
  number : magnitudeBits x ≤ infinityBits
  nonneg : 0 ≤ value x

theorem isNonneg_of_infinity (h : magnitudeBits x = infinityBits ∧ signOf x = .positive) :
    IsNonneg x :=
  ⟨h.1.le, value_nonneg h.2⟩

theorem IsRounded.isNonneg {r : Float} {a : ℝ} (h : IsRounded r a) (ha : 0 ≤ a) : IsNonneg r :=
  ⟨h.nearest.le_infinity, h.value_nonneg ha⟩

theorem isNonneg_mul_self (h : magnitudeBits x ≤ infinityBits) : IsNonneg (x * x) := by
  rcases Nat.lt_or_eq_of_le h with hlt | heq
  · exact (isRounded_mul hlt hlt).isNonneg (mul_self_nonneg _)
  · have hsign (s : Sign) : s * s = .positive := by cases s <;> rfl
    rw [mul_eq_pack, unpack_of_infinity heq, UnpackedFloat.mul, hsign]
    exact isNonneg_of_infinity (bits_of_infinity _)

theorem IsNonneg.positive_of_infinity (h : IsNonneg x) (hx : magnitudeBits x = infinityBits) :
    signOf x = .positive :=
  signOf_of_nonneg (hx ▸ by decide) h.nonneg

theorem IsNonneg.add (hx : IsNonneg x) (hy : IsNonneg y) : IsNonneg (x + y) := by
  have hinfinite {a b : Float} (ha : IsNonneg a) (hb : IsNonneg b)
      (hbits : magnitudeBits a = infinityBits) : IsNonneg (a + b) := by
    have hsame (h : magnitudeBits b = infinityBits) : signOf b = signOf a :=
      (hb.positive_of_infinity h).trans (ha.positive_of_infinity hbits).symm
    obtain ⟨hsum, hsign⟩ := bits_add_infinity hbits hb.number hsame
    exact isNonneg_of_infinity ⟨hsum, hsign.trans (ha.positive_of_infinity hbits)⟩
  rcases Nat.lt_or_eq_of_le hx.number with hxfinite | hxinfinite
  · rcases Nat.lt_or_eq_of_le hy.number with hyfinite | hyinfinite
    · exact (isRounded_add hxfinite hyfinite).isNonneg (add_nonneg hx.nonneg hy.nonneg)
    · rw [float_add_comm]
      exact hinfinite hy hx hyinfinite
  · exact hinfinite hx hy hxinfinite

theorem IsNonneg.sqrt (h : IsNonneg x) : IsNonneg x.sqrt := by
  rcases Nat.lt_or_eq_of_le h.number with hfinite | hinfinite
  · exact (isRounded_sqrt hfinite h.nonneg).isNonneg (Real.sqrt_nonneg _)
  · have hpositive : IsPositive x :=
      ⟨h.positive_of_infinity hinfinite, hinfinite ▸ by decide, h.number⟩
    exact isNonneg_of_infinity (hpositive.sqrt_of_infinity hinfinite)

end Operands

namespace Point

theorem isNonneg_dot {v : Point} (hx : magnitudeBits v.x ≤ infinityBits)
    (hy : magnitudeBits v.y ≤ infinityBits) (hz : magnitudeBits v.z ≤ infinityBits) :
    IsNonneg (v.dot v) :=
  ((isNonneg_mul_self hx).add (isNonneg_mul_self hy)).add (isNonneg_mul_self hz)

/-- A length is a number if and only if all components are. -/
theorem number_length_iff (v : Point) : magnitudeBits v.length ≤ infinityBits ↔
    magnitudeBits v.x ≤ infinityBits ∧ magnitudeBits v.y ≤ infinityBits ∧
      magnitudeBits v.z ≤ infinityBits := by
  constructor
  · intro h
    obtain ⟨hxy, hz⟩ := number_of_add (number_of_sqrt h)
    obtain ⟨hx, hy⟩ := number_of_add hxy
    exact ⟨(number_of_mul hx).1, (number_of_mul hy).1, (number_of_mul hz).1⟩
  · rintro ⟨hx, hy, hz⟩
    exact (isNonneg_dot hx hy hz).sqrt.number

theorem isPositive_length_of_infinity {v : Point} (h : magnitudeBits v.length = infinityBits) :
    IsPositive v.length := by
  obtain ⟨hx, hy, hz⟩ := (number_length_iff v).mp h.le
  exact ⟨(isNonneg_dot hx hy hz).sqrt.positive_of_infinity h, h ▸ by decide, h.le⟩

end Point

end Facet
