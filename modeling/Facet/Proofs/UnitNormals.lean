import Facet.Mesh
import Facet.Proofs.VectorLengths

namespace Facet

theorem isFinite_normalEpsilon : IsFinite Point.normalEpsilon := by
  change magnitudeBits Point.normalEpsilon < infinityBits
  decide +kernel

theorem le_value_normalEpsilon : 9e-10 ≤ value Point.normalEpsilon := by
  rw [value_of_bits (m := 4835703278458517) (d := 992) (by decide +kernel) (by decide +kernel)
    (by decide +kernel)]
  norm_num

namespace Point

variable {v : Point}

/-- No component is a NaN and the length is one but for less than `1e-9`, both as it is computed
and as it is. -/
structure IsUnit (v : Point) : Prop where
  number : ∀ c ∈ v.toList, ¬ c.isNaN
  computed : (v.length - 1).abs < 1e-9
  actual : |v.realLength - 1| < 1e-9

theorem AllFinite.number (hv : v.AllFinite) : ∀ c ∈ v.toList, ¬ c.isNaN := by
  have hcomponent {c : Float} (hc : IsFinite c) : ¬ c.isNaN :=
    mt (isNaN_iff c).mp (Nat.not_lt.mpr (Nat.le_of_lt hc))
  simp only [Vec3.toList, List.forall_mem_cons]
  exact ⟨hcomponent hv.x, hcomponent hv.y, hcomponent hv.z, List.forall_mem_nil _⟩

/-- A vector that comes close to length one is also found to do so. -/
theorem isUnit_of_realLength (hv : v.AllFinite) (h : |v.realLength - 1| ≤ 1e-12) : v.IsUnit := by
  obtain ⟨hlow, hhigh⟩ := abs_le.mp h
  have hlength : IsFinite v.length := isFinite_length hv (by linarith)
  obtain ⟨hlengthlow, hlengthhigh⟩ := abs_le.mp (length_error hlength)
  have hsmall : |value v.length - value 1| ≤ 1e-11 := by
    rw [value_one, abs_le]
    constructor <;> linarith
  have hrounded := isRounded_sub hlength isFinite_one
  have hdifference : IsFinite (v.length - 1) := hrounded.isFinite (by linarith)
  have herror := hrounded.error hdifference
  have hvalue : |value (v.length - 1)| ≤ 2e-11 := by
    have htriangle := abs_sub_abs_le_abs_sub (value (v.length - 1)) (value v.length - value 1)
    linarith
  refine ⟨hv.number, ?_, by linarith⟩
  have hepsilon := le_value_normalEpsilon
  change (v.length - 1).abs < normalEpsilon
  rw [lt_iff_value_lt hdifference.abs isFinite_normalEpsilon, value_abs hdifference]
  linarith

/-- One component of a vector that is divided by its length. -/
theorem quotient_error {x len : Float} (hx : IsFinite x) (hlen : IsFiniteNonzero len)
    (h : |value x / value len| ≤ 2) :
    IsFinite (x / len) ∧ |value (x / len) ^ 2 - (value x / value len) ^ 2| ≤ 2e-14 := by
  have hrounded := isRounded_div hx hlen
  have hfinite : IsFinite (x / len) := hrounded.isFinite (by linarith)
  have herror := hrounded.error hfinite
  refine ⟨hfinite, ?_⟩
  generalize value x / value len = quotient at *
  generalize value (x / len) = computed at *
  have hdifference : |computed - quotient| ≤ 3e-15 := by linarith
  have hsum : |computed + quotient| ≤ 5 := by
    obtain ⟨hlow, hhigh⟩ := abs_le.mp h
    obtain ⟨herrorlow, herrorhigh⟩ := abs_le.mp hdifference
    rw [abs_le]
    constructor <;> linarith
  calc
    |computed ^ 2 - quotient ^ 2| = |computed + quotient| * |computed - quotient| := by
      rw [sq_sub_sq, abs_mul]
    _ ≤ 5 * 3e-15 := mul_le_mul hsum hdifference (abs_nonneg _) (by norm_num)
    _ ≤ 2e-14 := by norm_num

theorem isFiniteNonzero_of_le {len : Float} (h : IsFinite len) (hle : normalEpsilon ≤ len) :
    IsFiniteNonzero len := by
  refine ⟨Nat.pos_of_ne_zero fun hzero => ?_, h⟩
  have hvalue := value_le_value hle
  have hepsilon := le_value_normalEpsilon
  rw [value_of_zero hzero] at hvalue
  linarith

theorem abs_ratio_sub_one_le (h : IsFinite v.length) (hle : normalEpsilon ≤ v.length) :
    |v.realLength / value v.length - 1| ≤ 2e-13 := by
  have hlen : 9e-10 ≤ value v.length := le_value_normalEpsilon.trans (value_le_value hle)
  have hpos : 0 < value v.length := by linarith
  obtain ⟨hlow, hhigh⟩ := abs_le.mp (length_error h)
  rw [div_sub_one hpos.ne', abs_div, abs_of_pos hpos, div_le_iff₀ hpos, abs_le]
  constructor <;> linarith

/-- The length that a vector is divided by is so close to its own that the quotients make up a
vector of length one. -/
theorem isUnit_dividedBy (h : IsFinite v.length) (hle : normalEpsilon ≤ v.length) :
    (v.dividedBy v.length).IsUnit := by
  obtain ⟨hx, hy, hz⟩ := allFinite_of_dot h.of_sqrt
  have hnonzero := isFiniteNonzero_of_le h hle
  obtain ⟨hratiolow, hratiohigh⟩ := abs_le.mp (abs_ratio_sub_one_le h hle)
  have hsquare : (value v.x / value v.length) ^ 2 + (value v.y / value v.length) ^ 2 +
      (value v.z / value v.length) ^ 2 = (v.realLength / value v.length) ^ 2 := by
    rw [div_pow, div_pow, div_pow, div_pow, sq_realLength]
    ring
  generalize v.realLength / value v.length = ratio at *
  have hsmall {a : ℝ} (ha : a ^ 2 ≤ ratio ^ 2) : |a| ≤ 2 := by
    have hle : |a| ≤ ratio := abs_le_of_sq_le_sq ha (by linarith)
    linarith
  have hxsquare := sq_nonneg (value v.x / value v.length)
  have hysquare := sq_nonneg (value v.y / value v.length)
  have hzsquare := sq_nonneg (value v.z / value v.length)
  obtain ⟨hxfinite, hxerror⟩ := quotient_error hx hnonzero (hsmall (by linarith))
  obtain ⟨hyfinite, hyerror⟩ := quotient_error hy hnonzero (hsmall (by linarith))
  obtain ⟨hzfinite, hzerror⟩ := quotient_error hz hnonzero (hsmall (by linarith))
  refine isUnit_of_realLength ⟨hxfinite, hyfinite, hzfinite⟩ ?_
  have hnorm : |value (v.x / v.length) ^ 2 + value (v.y / v.length) ^ 2 +
      value (v.z / v.length) ^ 2 - 1 ^ 2| ≤ 1e-12 * 1 ^ 2 + 0 ^ 2 := by
    rw [abs_le] at *
    constructor <;> nlinarith only [hxerror, hyerror, hzerror, hsquare, hratiolow, hratiohigh]
  have hroot := abs_sqrt_sub_le one_pos.le (by norm_num) le_rfl (by norm_num) hnorm
  rwa [mul_one, add_zero] at hroot

theorem isUnit_up : up.IsUnit := by
  have hzero : IsFinite 0 := by
    change magnitudeBits 0 < infinityBits
    decide +kernel
  have hvalue : value 0 = 0 := value_of_zero (by decide +kernel)
  refine isUnit_of_realLength ⟨hzero, hzero, isFinite_one⟩ ?_
  change |√(value 0 ^ 2 + value 0 ^ 2 + value 1 ^ 2) - 1| ≤ 1e-12
  rw [hvalue, value_one]
  norm_num

theorem isUnit_normalizeOr (v : Point) : (v.normalizeOr up).IsUnit := by
  simp only [normalizeOr]
  split
  next h =>
    obtain ⟨hfinite, hle⟩ : v.length.isFinite ∧ normalEpsilon ≤ v.length := by simpa using h
    exact isUnit_dividedBy ((isFinite_iff _).mpr hfinite) hle
  next => exact isUnit_up

/-- A vector with an infinite length is divided down to nothing. -/
theorem dividedBy_of_infinity (h : v.length.isInf) :
    ∀ c ∈ (v.dividedBy v.length).toList, c = 0 ∨ c = -0 ∨ c.isNaN := by
  have hinfinite := (isInf_iff _).mp h
  have hquotient (a : Float) : a / v.length = 0 ∨ a / v.length = -0 ∨ (a / v.length).isNaN := by
    have hpositive := isPositive_length_of_infinity hinfinite
    rcases bits_div_of_infinity a hpositive hinfinite with hzero | hnan
    · exact (eq_zero_of_bits hzero).imp_right Or.inl
    · exact Or.inr (Or.inr ((isNaN_iff _).mpr hnan))
  simp only [dividedBy, Vec3.map, Vec3.toList, List.forall_mem_cons]
  exact ⟨hquotient _, hquotient _, hquotient _, List.forall_mem_nil _⟩

theorem not_isUnit_of_zero (h : ∀ c ∈ v.toList, c = 0 ∨ c = -0 ∨ c.isNaN) :
    ¬ v.IsUnit := by
  intro hunit
  have hvalue : ∀ c ∈ v.toList, value c = 0 := by
    intro c hc
    rcases h c hc with rfl | rfl | hnan
    · exact value_of_zero (by decide +kernel)
    · exact value_of_zero (by decide +kernel)
    · exact absurd hnan (hunit.number c hc)
  simp only [Vec3.toList, List.forall_mem_cons] at hvalue
  obtain ⟨hx, hy, hz, -⟩ := hvalue
  have hlength := hunit.actual
  rw [realLength, hx, hy, hz] at hlength
  norm_num at hlength

end Point

namespace Mesh

variable {sum position : Point}

theorem vertexNormal_of_infinity (h : sum.length.isInf) :
    vertexNormal sum position = sum.dividedBy sum.length := by
  have hinfinite := (isInf_iff _).mp h
  have hpositive := Point.isPositive_length_of_infinity hinfinite
  have hle : Point.normalEpsilon ≤ sum.length := by
    rw [le_iff_rank_le (Nat.le_of_lt isFinite_normalEpsilon) hinfinite.le, hpositive.rank_eq,
      hinfinite]
    decide +kernel
  exact if_pos hle

theorem isUnit_vertexNormal (h : ¬ sum.length.isInf) : (vertexNormal sum position).IsUnit := by
  simp only [vertexNormal]
  split
  next hle =>
    obtain ⟨-, hnumber, -⟩ := rank_le_rank hle
    have hne : magnitudeBits sum.length ≠ infinityBits := mt (isInf_iff _).mpr h
    exact Point.isUnit_dividedBy (lt_of_le_of_ne hnumber hne) hle
  next => exact Point.isUnit_normalizeOr position

theorem vertexNormal_of_sums {m : Mesh} {v : Nat} {n : Point} (hsum : m.normalSums[v]? = some sum)
    (hn : m.computeNormals[v]? = some n) : ∃ p, n = vertexNormal sum p := by
  rw [computeNormals, Array.getElem?_zipWith, hsum] at hn
  cases hp : m.vertices[v]? with
  | none => simp [hp] at hn
  | some p =>
    rw [hp] at hn
    exact ⟨p, (Option.some.inj hn).symm⟩

end Mesh

/-- The normal of a vertex has length one, unless the length of the summed normals overflows. Then
nothing is left of it. -/
theorem computeNormals_isUnit_iff (m : Mesh) {v : Nat} {sum n : Point}
    (hsum : m.normalSums[v]? = some sum) (hn : m.computeNormals[v]? = some n) :
    (n.IsUnit ↔ ¬ sum.length.isInf) ∧
      (sum.length.isInf → ∀ c ∈ n.toList, c = 0 ∨ c = -0 ∨ c.isNaN) := by
  obtain ⟨p, rfl⟩ := Mesh.vertexNormal_of_sums hsum hn
  have hvanishes (h : sum.length.isInf) :
      ∀ c ∈ (Mesh.vertexNormal sum p).toList, c = 0 ∨ c = -0 ∨ c.isNaN := by
    rw [Mesh.vertexNormal_of_infinity h]
    exact Point.dividedBy_of_infinity h
  exact ⟨⟨fun hunit h => Point.not_isUnit_of_zero (hvanishes h) hunit, Mesh.isUnit_vertexNormal⟩,
    hvanishes⟩

/-- Three corners far from each other, and three that are close. -/
theorem computeNormals_isUnit_iff_of_two :
    let m := Mesh.ofParts
      #[⟨1e80, 0, 0⟩, ⟨0, 1e80, 0⟩, ⟨0, 0, 0⟩, ⟨1, 0, 0⟩, ⟨0, 1, 0⟩, ⟨0, 0, 1⟩]
      #[⟨0, 1, 2⟩, ⟨3, 4, 5⟩]
    (∃ n, m.computeNormals[0]? = some n ∧ ¬ n.IsUnit) ∧
      ∃ n, m.computeNormals[3]? = some n ∧ n.IsUnit := by
  intro m
  have hsums : m.normalSums[0]? = some ⟨0, 0, 1e160⟩ ∧ m.normalSums[3]? = some ⟨1, 1, 1⟩ := by
    decide +kernel
  have hlengths : (Point.length ⟨0, 0, 1e160⟩).isInf ∧ ¬ (Point.length ⟨1, 1, 1⟩).isInf := by
    decide +kernel
  have hsize : m.computeNormals.size = 6 := m.size_computeNormals
  have hfar := Array.getElem?_eq_getElem (show 0 < m.computeNormals.size by omega)
  have hnear := Array.getElem?_eq_getElem (show 3 < m.computeNormals.size by omega)
  obtain ⟨hunit, -⟩ := computeNormals_isUnit_iff m hsums.1 hfar
  obtain ⟨hunit', -⟩ := computeNormals_isUnit_iff m hsums.2 hnear
  exact ⟨⟨_, hfar, fun h => hunit.mp h hlengths.1⟩, ⟨_, hnear, hunit'.mpr hlengths.2⟩⟩

/-- The corners of one triangle get no normals, for the length of its own is infinite. -/
theorem overflowing_normals_vanish :
    let m := Mesh.ofParts #[⟨1e80, 0, 0⟩, ⟨0, 1e80, 0⟩, ⟨0, 0, 0⟩] #[⟨0, 1, 2⟩]
    (∀ p ∈ m.vertices, ∀ c ∈ p.toList, c.isFinite) ∧
      m.computeNormals = #[Point.zero, Point.zero, Point.zero] ∧ ¬ Point.zero.IsUnit := by
  refine ⟨by decide +kernel, by decide +kernel, Point.not_isUnit_of_zero ?_⟩
  simp [Point.zero, Vec3.toList]

end Facet
