import Facet.Model
import Facet.Proofs.NumberResults

namespace Facet

/-- Two coordinates without a difference: one of them is a NaN, or both are the same infinity. -/
def Incomparable (x y : Float) : Prop :=
  x.isNaN ∨ y.isNaN ∨ x.isInf ∧ x = y

theorem isNaN_sub_iff {x y : Float} : (x - y).isNaN ↔ Incomparable x y := by
  have hsub := number_sub_iff (x := x) (y := y)
  rw [Incomparable, isNaN_iff, isNaN_iff, isNaN_iff, isInf_iff, ← Nat.not_le, ← Nat.not_le,
    ← Nat.not_le, hsub]
  tauto

/-- A distance is a NaN if there is no difference in one of the coordinates. -/
theorem isNaN_distance_iff {p q : Point} : (p.distance q).isNaN ↔
    Incomparable p.x q.x ∨ Incomparable p.y q.y ∨ Incomparable p.z q.z := by
  have hlength := Point.number_length_iff (p - q)
  simp only [← isNaN_sub_iff, isNaN_iff, ← Nat.not_le]
  change ¬ magnitudeBits (Point.length (p - q)) ≤ infinityBits ↔ _
  rw [hlength]
  change ¬ (magnitudeBits (p.x - q.x) ≤ infinityBits ∧ magnitudeBits (p.y - q.y) ≤ infinityBits ∧
    magnitudeBits (p.z - q.z) ≤ infinityBits) ↔ _
  tauto

section Largest

variable {largest d bound : Float}

/-- The larger of two numbers stays below a bound if both do. A NaN does not count. -/
theorem greater_lt_iff (hlargest : magnitudeBits largest ≤ infinityBits)
    (hbound : magnitudeBits bound ≤ infinityBits) :
    magnitudeBits (greater largest d) ≤ infinityBits ∧
      (greater largest d < bound ↔ largest < bound ∧ (d < bound ∨ d.isNaN)) := by
  have hleft : ¬ largest.isNaN = true := mt (isNaN_iff _).mp (Nat.not_lt.mpr hlargest)
  rw [greater, if_neg hleft]
  split
  next hnan => exact ⟨hlargest, (and_iff_left (Or.inr hnan)).symm⟩
  next hnumber =>
    have hd : magnitudeBits d ≤ infinityBits := Nat.not_lt.mp (mt (isNaN_iff d).mpr hnumber)
    have hless := lt_iff_rank_lt hlargest hd
    have hlargestbound := lt_iff_rank_lt hlargest hbound
    have hdbound := lt_iff_rank_lt hd hbound
    rw [or_iff_left hnumber]
    split
    next hlt =>
      rw [hless] at hlt
      exact ⟨hd, by rw [hlargestbound, hdbound]; omega⟩
    next hge =>
      rw [hless] at hge
      exact ⟨hlargest, by rw [hlargestbound, hdbound]; omega⟩

theorem foldl_greater_lt_iff (ds : List Float) (hlargest : magnitudeBits largest ≤ infinityBits)
    (hbound : magnitudeBits bound ≤ infinityBits) :
    ds.foldl greater largest < bound ↔
      largest < bound ∧ ∀ d ∈ ds, d < bound ∨ d.isNaN := by
  induction ds generalizing largest with
  | nil => simp
  | cons d rest ih =>
    obtain ⟨hnumber, hless⟩ := greater_lt_iff (d := d) hlargest hbound
    rw [List.foldl_cons, ih hnumber, hless, List.forall_mem_cons, and_assoc]

end Largest

namespace Model

theorem mem_vertexDistances {a b : Model} {d : Float} : d ∈ a.vertexDistances b ↔
    ∃ (i : Nat) (p q : Point), a.mesh.vertices[i]? = some p ∧ b.mesh.vertices[i]? = some q ∧
      p.distance q = d := by
  simp only [vertexDistances, List.mem_iff_getElem?, List.getElem?_zipWith_eq_some,
    Array.getElem?_toList]

end Model

open Model

/-- Two models are close if and only if they have the same number of vertices and every vertex is
close to the one with its number, or has no distance from it. -/
theorem maxVertexDistance_lt_iff (a b : Model) :
    a.maxVertexDistance b < roundTripTolerance ↔
      a.mesh.vertices.size = b.mesh.vertices.size ∧
        ∀ (i : Nat) (p q : Point), a.mesh.vertices[i]? = some p → b.mesh.vertices[i]? = some q →
          p.distance q < roundTripTolerance ∨ Incomparable p.x q.x ∨ Incomparable p.y q.y ∨
            Incomparable p.z q.z := by
  have hinfinite : ¬ signedFloat false infinityBits < roundTripTolerance := by
    decide +kernel
  have hzero : (0 : Float) < roundTripTolerance := by
    decide +kernel
  have hnumbers : magnitudeBits 0 ≤ infinityBits ∧
      magnitudeBits roundTripTolerance ≤ infinityBits := by
    decide +kernel
  rw [maxVertexDistance]
  split
  next hsize =>
    simp only [foldl_greater_lt_iff _ hnumbers.1 hnumbers.2, hsize, hzero, true_and,
      mem_vertexDistances, ← isNaN_distance_iff]
    constructor
    · exact fun h i p q hp hq => h _ ⟨i, p, q, hp, hq, rfl⟩
    · rintro h d ⟨i, p, q, hp, hq, rfl⟩
      exact h i p q hp hq
  next hsize => exact iff_of_false hinfinite fun h => hsize h.1

/-- A vertex that has become a NaN is not noticed. -/
theorem lost_vertex_unnoticed :
    let a : Model := ⟨"", Mesh.ofParts #[⟨0, 0, 0⟩] #[]⟩
    let b : Model := ⟨"", Mesh.ofParts #[⟨0 / 0, 0, 0⟩] #[]⟩
    a.maxVertexDistance b < roundTripTolerance ∧
      ∃ p q, a.mesh.vertices[0]? = some p ∧ b.mesh.vertices[0]? = some q ∧
        ¬ p.distance q < roundTripTolerance := by
  exact ⟨by decide +kernel, _, _, rfl, rfl, by decide +kernel⟩

end Facet
