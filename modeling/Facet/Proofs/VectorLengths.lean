import Facet.Proofs.NumberResults

namespace Facet

/-- A number at most `c` times `R ^ 2` away from it, and a bit, has a root at most `c` times `R`
away from `R`, and a bit. -/
theorem abs_sqrt_sub_le {D R c d : ℝ} (hR : 0 ≤ R) (hc : 0 ≤ c) (hd : 0 ≤ d) (hle : c ≤ 1)
    (h : |D - R ^ 2| ≤ c * R ^ 2 + d ^ 2) : |√D - R| ≤ c * R + d := by
  obtain ⟨hlow, hhigh⟩ := abs_le.mp h
  have hproduct := mul_nonneg hc hR
  rw [abs_le]
  constructor
  · have hroot : (1 - c) * R - d ≤ √D := by
      rcases le_or_gt ((1 - c) * R) d with hsmall | hlarge
      · linarith [Real.sqrt_nonneg D]
      · apply Real.le_sqrt_of_sq_le
        have hone : 0 ≤ 1 - c := by linarith
        nlinarith [mul_nonneg hc (mul_nonneg hone (sq_nonneg R)),
          mul_nonneg hd (sub_nonneg.mpr hlarge.le)]
    linarith
  · have hroot : √D ≤ (1 + c) * R + d := by
      rw [Real.sqrt_le_left (by positivity)]
      nlinarith [mul_nonneg hc (mul_nonneg hc (sq_nonneg R)), mul_nonneg hc (sq_nonneg R),
        mul_nonneg hd hR, mul_nonneg hd hproduct]
    linarith

section Steps

variable {x y : Float}

theorem mul_self_error (h : IsFinite (x * x)) :
    |value (x * x) - value x ^ 2| ≤ 1e-15 * value x ^ 2 + 1e-60 := by
  obtain ⟨hx, -⟩ := h.of_mul
  have herror := (isRounded_mul hx hx).error h
  rwa [abs_mul_self, ← sq] at herror

theorem isFinite_mul_self (hx : IsFinite x) (h : value x ^ 2 ≤ 1e60) : IsFinite (x * x) := by
  apply (isRounded_mul hx hx).isFinite
  rwa [abs_mul_self, ← sq]

theorem IsNonneg.add_error (hx : IsNonneg x) (hy : IsNonneg y) (h : IsFinite (x + y)) :
    |value (x + y) - (value x + value y)| ≤ 1e-15 * (value x + value y) + 1e-60 := by
  obtain ⟨hxfinite, hyfinite⟩ := h.of_add
  have herror := (isRounded_add hxfinite hyfinite).error h
  rwa [abs_of_nonneg (add_nonneg hx.nonneg hy.nonneg)] at herror

theorem IsNonneg.isFinite_add (hx : IsNonneg x) (hy : IsNonneg y) (hxfinite : IsFinite x)
    (hyfinite : IsFinite y) (h : value x + value y ≤ 1e60) : IsFinite (x + y) := by
  apply (isRounded_add hxfinite hyfinite).isFinite
  rwa [abs_of_nonneg (add_nonneg hx.nonneg hy.nonneg)]

end Steps

namespace Point

variable {v : Point}

/-- All three components are numbers, and none of them is infinite. -/
structure AllFinite (v : Point) : Prop where
  x : IsFinite v.x
  y : IsFinite v.y
  z : IsFinite v.z

/-- The length that would be computed without rounding. -/
noncomputable def realLength (v : Point) : ℝ :=
  √(value v.x ^ 2 + value v.y ^ 2 + value v.z ^ 2)

theorem sq_realLength (v : Point) :
    v.realLength ^ 2 = value v.x ^ 2 + value v.y ^ 2 + value v.z ^ 2 :=
  Real.sq_sqrt (by positivity)

theorem allFinite_of_dot (h : IsFinite (v.dot v)) : v.AllFinite := by
  obtain ⟨hxy, hz⟩ := h.of_add
  obtain ⟨hx, hy⟩ := hxy.of_add
  exact ⟨hx.of_mul.1, hy.of_mul.1, hz.of_mul.1⟩

theorem AllFinite.isNonneg_dot (hv : v.AllFinite) : IsNonneg (v.dot v) :=
  Point.isNonneg_dot (Nat.le_of_lt hv.x) (Nat.le_of_lt hv.y) (Nat.le_of_lt hv.z)

theorem dot_error (h : IsFinite (v.dot v)) :
    |value (v.dot v) - v.realLength ^ 2| ≤ 1e-14 * v.realLength ^ 2 + 1e-29 ^ 2 := by
  obtain ⟨hxy, hzz⟩ := h.of_add
  obtain ⟨hxx, hyy⟩ := hxy.of_add
  obtain ⟨hx, hy, hz⟩ := allFinite_of_dot h
  have hxsquare := isNonneg_mul_self (Nat.le_of_lt hx)
  have hysquare := isNonneg_mul_self (Nat.le_of_lt hy)
  have hzsquare := isNonneg_mul_self (Nat.le_of_lt hz)
  have hsum := (hxsquare.add hysquare).add_error hzsquare h
  have hpartial := hxsquare.add_error hysquare hxy
  have hxerror := mul_self_error hxx
  have hyerror := mul_self_error hyy
  have hzerror := mul_self_error hzz
  rw [sq_realLength, Vec3.dot]
  rw [abs_le] at *
  constructor <;> linarith [sq_nonneg (value v.x), sq_nonneg (value v.y), sq_nonneg (value v.z)]

/-- A computed length is off by little, unless it overflows. -/
theorem length_error (h : IsFinite v.length) :
    |value v.length - v.realLength| ≤ 1e-13 * v.realLength + 1e-28 := by
  have hdot : IsFinite (v.dot v) := h.of_sqrt
  have hreal : 0 ≤ v.realLength := Real.sqrt_nonneg _
  have hroot := abs_sqrt_sub_le hreal (by norm_num) (by norm_num) (by norm_num) (dot_error hdot)
  have hrounded := (isRounded_sqrt hdot (allFinite_of_dot hdot).isNonneg_dot.nonneg).error h
  rw [abs_of_nonneg (Real.sqrt_nonneg _)] at hrounded
  rw [length]
  rw [abs_le] at *
  constructor <;> linarith

/-- No square of a small number overflows, nor does a sum of them. -/
theorem isFinite_length (hv : v.AllFinite) (h : v.realLength ≤ 1e9) : IsFinite v.length := by
  have hsquare : v.realLength ^ 2 ≤ 1e9 ^ 2 := pow_le_pow_left₀ (Real.sqrt_nonneg _) h 2
  rw [sq_realLength] at hsquare
  have hx := sq_nonneg (value v.x)
  have hy := sq_nonneg (value v.y)
  have hz := sq_nonneg (value v.z)
  have hxx := isFinite_mul_self hv.x (by linarith)
  have hyy := isFinite_mul_self hv.y (by linarith)
  have hzz := isFinite_mul_self hv.z (by linarith)
  have hxsquare := isNonneg_mul_self (Nat.le_of_lt hv.x)
  have hysquare := isNonneg_mul_self (Nat.le_of_lt hv.y)
  have hzsquare := isNonneg_mul_self (Nat.le_of_lt hv.z)
  have hxerror := (abs_le.mp (mul_self_error hxx)).2
  have hyerror := (abs_le.mp (mul_self_error hyy)).2
  have hzerror := (abs_le.mp (mul_self_error hzz)).2
  have hxy := hxsquare.isFinite_add hysquare hxx hyy (by linarith)
  have hpartial := (abs_le.mp (hxsquare.add_error hysquare hxy)).2
  have hdot : IsFinite (v.dot v) :=
    (hxsquare.add hysquare).isFinite_add hzsquare hxy hzz (by linarith)
  have hdoterror := dot_error hdot
  apply (isRounded_sqrt hdot hv.isNonneg_dot.nonneg).isFinite
  rw [abs_of_nonneg (Real.sqrt_nonneg _), Real.sqrt_le_left (by norm_num)]
  rw [sq_realLength] at hdoterror
  linarith [(abs_le.mp hdoterror).2]

end Point

end Facet
