import Facet.Mesh
import Facet.Proofs.RealValues

namespace Facet

open Float.Model Float.Model.UnpackedFloat

/-- The same number, where the sign of a zero does not count. -/
def SameNumber (x y : Float) : Prop :=
  x = y ∨ (x = 0 ∨ x = -0) ∧ (y = 0 ∨ y = -0)

theorem sameNumber_of_rank {x y : Float} (h : rank x = rank y) : SameNumber x y := by
  rcases Nat.eq_zero_or_pos (magnitudeBits x) with hzero | hpos
  · have hbits : magnitudeBits y = 0 := by rw [← natAbs_rank, ← h, natAbs_rank, hzero]
    exact Or.inr ⟨eq_zero_of_bits hzero, eq_zero_of_bits hbits⟩
  · exact Or.inl (eq_of_rank_eq hpos h)

theorem eq_of_isNaN {x y : Float} (hx : x.isNaN) (hy : y.isNaN) : x = y := by
  rw [Float.isNaN_eq_decide_eq_nan, decide_eq_true_iff] at hx hy
  exact hx.trans hy.symm

/-- A number among `xs` that comes before all numbers among them. It is a NaN only if they all
are. -/
structure IsExtreme (before : Float → Float → Prop) (xs : List Float) (x : Float) : Prop where
  mem : x ∈ xs
  before_all : ∀ y ∈ xs, ¬ y.isNaN → before x y
  nan : x.isNaN → ∀ y ∈ xs, y.isNaN

/-- An order of the numbers, and the operation that picks the first of two and passes over a
NaN. -/
structure Picks (before : Float → Float → Prop) (pick : Float → Float → Float) : Prop where
  trans : ∀ {a b c}, before a b → before b c → before a c
  antisymm : ∀ {a b}, before a b → before b a → rank a = rank b
  numbers : ∀ {a b}, ¬ a.isNaN → ¬ b.isNaN →
    pick a b = a ∧ before a b ∨ pick a b = b ∧ before b a
  left : ∀ {a b}, ¬ a.isNaN → b.isNaN → pick a b = a
  right : ∀ {a b}, a.isNaN → pick a b = b

section Orders

variable {a b c : Float}

theorem number_of_not_isNaN (h : ¬ a.isNaN) : magnitudeBits a ≤ infinityBits :=
  Nat.not_lt.mp (mt (isNaN_iff a).mpr h)

theorem float_le_trans (hab : a ≤ b) (hbc : b ≤ c) : a ≤ c := by
  obtain ⟨ha, hb, hleft⟩ := rank_le_rank hab
  obtain ⟨-, hc, hright⟩ := rank_le_rank hbc
  exact (le_iff_rank_le ha hc).mpr (hleft.trans hright)

theorem rank_eq_of_le (hab : a ≤ b) (hba : b ≤ a) : rank a = rank b :=
  (rank_le_rank hab).2.2.antisymm (rank_le_rank hba).2.2

theorem le_of_not_lt (ha : ¬ a.isNaN) (hb : ¬ b.isNaN) (h : ¬ a < b) : b ≤ a := by
  have ha := number_of_not_isNaN ha
  have hb := number_of_not_isNaN hb
  rw [lt_iff_rank_lt ha hb] at h
  exact (le_iff_rank_le hb ha).mpr (not_lt.mp h)

theorem le_of_float_lt (ha : ¬ a.isNaN) (hb : ¬ b.isNaN) (h : a < b) : a ≤ b := by
  have ha := number_of_not_isNaN ha
  have hb := number_of_not_isNaN hb
  rw [lt_iff_rank_lt ha hb] at h
  exact (le_iff_rank_le ha hb).mpr h.le

theorem picks_lesser : Picks (· ≤ ·) lesser where
  trans := float_le_trans
  antisymm := rank_eq_of_le
  numbers := by
    intro a b ha hb
    rw [lesser, if_neg ha, if_neg hb]
    split
    next h => exact Or.inr ⟨rfl, le_of_float_lt hb ha h⟩
    next h => exact Or.inl ⟨rfl, le_of_not_lt hb ha h⟩
  left ha hb := by rw [lesser, if_neg ha, if_pos hb]
  right ha := by rw [lesser, if_pos ha]

theorem picks_greater : Picks (· ≥ ·) greater where
  trans hab hbc := float_le_trans hbc hab
  antisymm hab hba := rank_eq_of_le hba hab
  numbers := by
    intro a b ha hb
    rw [greater, if_neg ha, if_neg hb]
    split
    next h => exact Or.inr ⟨rfl, le_of_float_lt ha hb h⟩
    next h => exact Or.inl ⟨rfl, le_of_not_lt ha hb h⟩
  left ha hb := by rw [greater, if_neg ha, if_pos hb]
  right ha := by rw [greater, if_pos ha]

end Orders

section Extremes

variable {before : Float → Float → Prop} {pick : Float → Float → Float} {xs ys : List Float}
variable {a b : Float}

theorem Picks.refl (h : Picks before pick) (ha : ¬ a.isNaN) : before a a :=
  (h.numbers ha ha).elim And.right And.right

theorem Picks.isExtreme_singleton (h : Picks before pick) (a : Float) :
    IsExtreme before [a] a where
  mem := List.mem_singleton_self a
  before_all := by
    intro y hy hnumber
    obtain rfl := List.mem_singleton.mp hy
    exact h.refl hnumber
  nan := by
    intro hnan y hy
    obtain rfl := List.mem_singleton.mp hy
    exact hnan

/-- The first of two extremes is the extreme of all numbers on either side. -/
theorem Picks.isExtreme_append (h : Picks before pick) (ha : IsExtreme before xs a)
    (hb : IsExtreme before ys b) : IsExtreme before (xs ++ ys) (pick a b) := by
  by_cases hanan : a.isNaN
  · rw [h.right hanan]
    have hxs := ha.nan hanan
    refine ⟨List.mem_append_right xs hb.mem, ?_, ?_⟩
    · intro y hy hnumber
      exact hb.before_all y ((List.mem_append.mp hy).resolve_left fun hx =>
        hnumber (hxs y hx)) hnumber
    · intro hnan y hy
      exact (List.mem_append.mp hy).elim (hxs y) (hb.nan hnan y)
  · by_cases hbnan : b.isNaN
    · rw [h.left hanan hbnan]
      have hys := hb.nan hbnan
      refine ⟨List.mem_append_left ys ha.mem, ?_, fun hnan => absurd hnan hanan⟩
      intro y hy hnumber
      exact ha.before_all y ((List.mem_append.mp hy).resolve_right fun hy =>
        hnumber (hys y hy)) hnumber
    · rcases h.numbers hanan hbnan with ⟨hpick, hbefore⟩ | ⟨hpick, hbefore⟩
      · rw [hpick]
        refine ⟨List.mem_append_left ys ha.mem, ?_, fun hnan => absurd hnan hanan⟩
        intro y hy hnumber
        rcases List.mem_append.mp hy with hx | hy
        · exact ha.before_all y hx hnumber
        · exact h.trans hbefore (hb.before_all y hy hnumber)
      · rw [hpick]
        refine ⟨List.mem_append_right xs hb.mem, ?_, fun hnan => absurd hnan hbnan⟩
        intro y hy hnumber
        rcases List.mem_append.mp hy with hx | hy
        · exact h.trans hbefore (ha.before_all y hx hnumber)
        · exact hb.before_all y hy hnumber

/-- What is the extreme of the same numbers is the same number. -/
theorem Picks.sameNumber (h : Picks before pick) (ha : IsExtreme before xs a)
    (hb : IsExtreme before ys b) (hsame : ∀ x, x ∈ xs ↔ x ∈ ys) : SameNumber a b := by
  have hab : a ∈ ys := (hsame a).mp ha.mem
  have hba : b ∈ xs := (hsame b).mpr hb.mem
  by_cases hanan : a.isNaN
  · exact Or.inl (eq_of_isNaN hanan (ha.nan hanan b hba))
  · have hbnan : ¬ b.isNaN := fun hnan => hanan (hb.nan hnan a hab)
    exact sameNumber_of_rank
      (h.antisymm (ha.before_all b hba hbnan) (hb.before_all a hab hanan))

end Extremes

inductive Axis where
  | x
  | y
  | z

def Vec3.along {α : Type} (v : Vec3 α) : Axis → α
  | .x => v.x
  | .y => v.y
  | .z => v.z

theorem Vec3.along_zipWith {α β : Type} (f : α → α → β) (a b : Vec3 α) (axis : Axis) :
    (a.zipWith f b).along axis = f (a.along axis) (b.along axis) := by
  cases axis <;> rfl

namespace Box

/-- On each axis the box reaches from the least to the greatest coordinate of the points. -/
structure IsTight (box : Box Float) (ps : List Point) : Prop where
  min : ∀ axis, IsExtreme (· ≤ ·) (ps.map (Vec3.along · axis)) (box.min.along axis)
  max : ∀ axis, IsExtreme (· ≥ ·) (ps.map (Vec3.along · axis)) (box.max.along axis)

structure IsSame (a b : Box Float) : Prop where
  min : ∀ axis, SameNumber (a.min.along axis) (b.min.along axis)
  max : ∀ axis, SameNumber (a.max.along axis) (b.max.along axis)

variable {a b box : Box Float} {ps qs : List Point}

theorem isTight_point (p : Point) : IsTight ⟨p, p⟩ [p] where
  min axis := picks_lesser.isExtreme_singleton (p.along axis)
  max axis := picks_greater.isExtreme_singleton (p.along axis)

theorem IsTight.union (ha : a.IsTight ps) (hb : b.IsTight qs) :
    (a.union b).IsTight (ps ++ qs) where
  min axis := by
    rw [List.map_append]
    exact (Vec3.along_zipWith lesser a.min b.min axis) ▸
      picks_lesser.isExtreme_append (ha.min axis) (hb.min axis)
  max axis := by
    rw [List.map_append]
    exact (Vec3.along_zipWith greater a.max b.max axis) ▸
      picks_greater.isExtreme_append (ha.max axis) (hb.max axis)

theorem IsTight.foldl (h : box.IsTight ps) (qs : List Point) :
    IsTight (qs.foldl (fun box p => box.union ⟨p, p⟩) box) (ps ++ qs) := by
  induction qs generalizing box ps with
  | nil => rwa [List.append_nil]
  | cons q rest ih =>
    have hnext := ih (h.union (isTight_point q))
    rwa [List.append_assoc] at hnext

theorem isTight_ofPoints (h : ps ≠ []) : (ofPoints ps).IsTight ps := by
  cases ps with
  | nil => exact absurd rfl h
  | cons p rest => exact (isTight_point p).foldl rest

theorem IsTight.isSame (ha : a.IsTight ps) (hb : b.IsTight qs) (h : ∀ p, p ∈ ps ↔ p ∈ qs) :
    a.IsSame b := by
  have hcoordinates (axis : Axis) (c : Float) :
      c ∈ ps.map (Vec3.along · axis) ↔ c ∈ qs.map (Vec3.along · axis) := by
    simp only [List.mem_map, h]
  exact ⟨fun axis => picks_lesser.sameNumber (ha.min axis) (hb.min axis) (hcoordinates axis),
    fun axis => picks_greater.sameNumber (ha.max axis) (hb.max axis) (hcoordinates axis)⟩

end Box

/-- The box around some points reaches just as far as they do, whatever their order, and the box
around more points is the union of the boxes around some and around the others. -/
theorem ofPoints_tight {ps : List Point} (hps : ps ≠ []) :
    (Box.ofPoints ps).IsTight ps ∧
    (∀ qs : List Point, qs.Perm ps → (Box.ofPoints qs).IsSame (Box.ofPoints ps)) ∧
    ∀ qs : List Point, qs ≠ [] →
      (Box.ofPoints (ps ++ qs)).IsSame ((Box.ofPoints ps).union (Box.ofPoints qs)) := by
  have htight := Box.isTight_ofPoints hps
  refine ⟨htight, ?_, ?_⟩
  · intro qs hperm
    have hqs : qs ≠ [] := fun hnil => hps (hnil ▸ hperm).nil_eq.symm
    exact (Box.isTight_ofPoints hqs).isSame htight fun p => hperm.mem_iff
  · intro qs hqs
    have hall : ps ++ qs ≠ [] := List.append_ne_nil_of_left_ne_nil hps qs
    exact (Box.isTight_ofPoints hall).isSame (htight.union (Box.isTight_ofPoints hqs))
      fun p => Iff.rfl

/-- A first point without any coordinate leaves no trace once others have come. -/
theorem ofPoints_tight_after_nan :
    let lost : Point := ⟨0 / 0, 0 / 0, 0 / 0⟩
    let ps : List Point := [lost, ⟨1, 0 / 0, 0⟩, ⟨-2, 0 / 0, -0⟩]
    ((Box.ofPoints ps).min.x = -2 ∧ (Box.ofPoints ps).min.y.isNaN ∧ (Box.ofPoints ps).max.x = 1) ∧
    (Box.ofPoints ps).IsTight ps ∧
    (Box.ofPoints ps.reverse).IsSame (Box.ofPoints ps) ∧
    (Box.ofPoints (ps ++ [lost])).IsSame ((Box.ofPoints ps).union (Box.ofPoints [lost])) := by
  intro lost ps
  have hps : ps ≠ [] := List.cons_ne_nil _ _
  obtain ⟨htight, hperm, happend⟩ := ofPoints_tight hps
  exact ⟨by decide +kernel, htight, hperm _ (List.reverse_perm ps),
    happend [lost] (List.cons_ne_nil _ _)⟩

theorem Mesh.isTight_boundingBox (m : Mesh) (h : 0 < m.vertices.size) :
    m.boundingBox.IsTight m.vertices.toList := by
  apply Box.isTight_ofPoints
  rw [← List.length_pos_iff_ne_nil, Array.length_toList]
  exact h

end Facet
