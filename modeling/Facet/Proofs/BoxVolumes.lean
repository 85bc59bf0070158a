import Facet.Box
import Mathlib

namespace Facet

/-- Exact arithmetic: nothing is rounded, and every coordinate is a number. -/
instance : Coordinate ℚ where
  zero := 0
  half := 1 / 2
  smaller := min
  larger := max
  isPositive x := 0 < x

/-- How far `high` is above `low`. There is no extent where the two are in the wrong order. -/
def extent (low high : ℚ) : ℚ :=
  max (high - low) 0

section Extents

variable {low high low' high' : ℚ}

theorem extent_nonneg (low high : ℚ) : 0 ≤ extent low high :=
  le_max_right _ _

theorem extent_of_le (h : low ≤ high) : extent low high = high - low :=
  max_eq_left (sub_nonneg.mpr h)

theorem extent_of_ge (h : high ≤ low) : extent low high = 0 :=
  max_eq_right (sub_nonpos.mpr h)

theorem extent_mono (hlow : low' ≤ low) (hhigh : high ≤ high') :
    extent low high ≤ extent low' high' :=
  max_le_max_right 0 (sub_le_sub hhigh hlow)

/-- The whole is no shorter than both parts without what they share. -/
theorem extent_add_le (low high low' high' : ℚ) :
    extent low high + extent low' high' - extent (max low low') (min high high') ≤
      extent (min low low') (max high high') := by
  have hshared := extent_nonneg (max low low') (min high high')
  have hleft : extent low high ≤ extent (min low low') (max high high') :=
    extent_mono (min_le_left _ _) (le_max_left _ _)
  have hright : extent low' high' ≤ extent (min low low') (max high high') :=
    extent_mono (min_le_right _ _) (le_max_right _ _)
  rcases le_total high low with h | h
  · rw [extent_of_ge h]
    linarith
  · rcases le_total high' low' with h' | h'
    · rw [extent_of_ge h']
      linarith
    · have hstarts := max_add_min low low'
      have hends := max_add_min high high'
      have hoverlap : min high high' - max low low' ≤ extent (max low low') (min high high') :=
        le_max_left _ _
      have hwhole : max high high' - min low low' ≤ extent (min low low') (max high high') :=
        le_max_left _ _
      rw [extent_of_le h, extent_of_le h']
      linarith

/-- Where an extent grows, it grows by no less outside another one. -/
theorem extent_outside_le (hlow : low' ≤ low) (hhigh : high ≤ high') (start stop : ℚ) :
    extent low high - extent (max start low) (min stop high) ≤
      extent low' high' - extent (max start low') (min stop high') := by
  unfold extent
  grind

end Extents

/-- The sizes of two parts, of what they share and of what holds both. -/
structure AreCounted (left right shared whole : ℚ) : Prop where
  nonneg : 0 ≤ shared
  shared_le_left : shared ≤ left
  shared_le_right : shared ≤ right
  le_whole : left + right - shared ≤ whole

/-- A part that grows, and what it shares with another one. -/
structure Grows (part shared part' shared' : ℚ) : Prop where
  nonneg : 0 ≤ shared
  shared_le : shared ≤ part
  shared_mono : shared ≤ shared'
  outside_le : part - shared ≤ part' - shared'

section Products

variable {x y o u x' y' o' u' : ℚ}

theorem AreCounted.mul (h : AreCounted x y o u) (h' : AreCounted x' y' o' u') :
    AreCounted (x * x') (y * y') (o * o') (u * u') where
  nonneg := mul_nonneg h.nonneg h'.nonneg
  shared_le_left := mul_le_mul h.shared_le_left h'.shared_le_left h'.nonneg
    (h.nonneg.trans h.shared_le_left)
  shared_le_right := mul_le_mul h.shared_le_right h'.shared_le_right h'.nonneg
    (h.nonneg.trans h.shared_le_right)
  le_whole := by
    obtain ⟨hnonneg, hleft, hright, hwhole⟩ := h
    obtain ⟨hnonneg', hleft', hright', hwhole'⟩ := h'
    have hcorners := add_nonneg (mul_nonneg (sub_nonneg.mpr hleft) (sub_nonneg.mpr hright'))
      (mul_nonneg (sub_nonneg.mpr hright) (sub_nonneg.mpr hleft'))
    calc
      x * x' + y * y' - o * o' ≤ (x + y - o) * (x' + y' - o') := by linarith
      _ ≤ u * u' := mul_le_mul hwhole hwhole' (by linarith) (by linarith)

theorem Grows.part_le (h : Grows x o x' o') : x ≤ x' := by
  linarith [h.shared_mono, h.outside_le]

theorem Grows.mul (h : Grows x o x' o') (h' : Grows y u y' u') :
    Grows (x * y) (o * u) (x' * y') (o' * u') where
  nonneg := mul_nonneg h.nonneg h'.nonneg
  shared_le := mul_le_mul h.shared_le h'.shared_le h'.nonneg (h.nonneg.trans h.shared_le)
  shared_mono := mul_le_mul h.shared_mono h'.shared_mono h'.nonneg (h.nonneg.trans h.shared_mono)
  outside_le := by
    have houter : (x - o) * y ≤ (x' - o') * y' :=
      mul_le_mul h.outside_le h'.part_le (h'.nonneg.trans h'.shared_le)
        ((sub_nonneg.mpr h.shared_le).trans h.outside_le)
    have hinner : o * (y - u) ≤ o' * (y' - u') :=
      mul_le_mul h.shared_mono h'.outside_le (sub_nonneg.mpr h'.shared_le)
        (h.nonneg.trans h.shared_mono)
    linarith

end Products

theorem areCounted_extents (low high low' high' : ℚ) :
    AreCounted (extent low high) (extent low' high') (extent (max low low') (min high high'))
      (extent (min low low') (max high high')) where
  nonneg := extent_nonneg _ _
  shared_le_left := extent_mono (le_max_left _ _) (min_le_left _ _)
  shared_le_right := extent_mono (le_max_right _ _) (min_le_right _ _)
  le_whole := extent_add_le low high low' high'

theorem grows_extents {low high low' high' : ℚ} (hlow : low' ≤ low) (hhigh : high ≤ high')
    (start stop : ℚ) :
    Grows (extent low high) (extent (max start low) (min stop high)) (extent low' high')
      (extent (max start low') (min stop high')) where
  nonneg := extent_nonneg _ _
  shared_le := extent_mono (le_max_right _ _) (min_le_right _ _)
  shared_mono := extent_mono (max_le_max_left _ hlow) (min_le_min_left _ hhigh)
  outside_le := extent_outside_le hlow hhigh start stop

namespace Box

open Coordinate

/-- What the boxes share. It is inverted on an axis where they lie apart. -/
def overlap (a b : Box ℚ) : Box ℚ :=
  ⟨a.min.zipWith larger b.min, a.max.zipWith smaller b.max⟩

theorem volume_eq (a : Box ℚ) :
    a.volume = extent a.min.x a.max.x * extent a.min.y a.max.y * extent a.min.z a.max.z :=
  rfl

theorem overlap_comm (a b : Box ℚ) : a.overlap b = b.overlap a := by
  have hlarger (p q : ℚ) : larger p q = larger q p := max_comm p q
  have hsmaller (p q : ℚ) : smaller p q = smaller q p := min_comm p q
  simp only [overlap, Vec3.zipWith, hlarger a.min.x, hlarger a.min.y, hlarger a.min.z,
    hsmaller a.max.x, hsmaller a.max.y, hsmaller a.max.z]

theorem volume_eq_zero {a : Box ℚ} (h : ¬ (0 < a.size.x ∧ 0 < a.size.y ∧ 0 < a.size.z)) :
    a.volume = 0 := by
  have hextent {low high : ℚ} (h : ¬ 0 < high - low) : extent low high = 0 :=
    max_eq_right (not_lt.mp h)
  rw [volume_eq]
  by_cases hx : 0 < a.size.x
  · by_cases hy : 0 < a.size.y
    · rw [hextent fun hz => h ⟨hx, hy, hz⟩, mul_zero]
    · rw [hextent hy, mul_zero, zero_mul]
  · rw [hextent hx, zero_mul, zero_mul]

/-- Boxes that share nothing need no case of their own, because their overlap has no volume. -/
theorem intersectionVolume_eq (a b : Box ℚ) : a.intersectionVolume b = (a.overlap b).volume := by
  have hintersection : a.intersection b =
      if 0 < (a.overlap b).size.x ∧ 0 < (a.overlap b).size.y ∧ 0 < (a.overlap b).size.z then
        some (a.overlap b)
      else none := by
    simp only [intersection, Bool.and_eq_true, and_assoc]
    simp only [isPositive, decide_eq_true_eq]
    rfl
  rw [intersectionVolume, hintersection]
  split_ifs with h
  · rfl
  · exact (volume_eq_zero h).symm

theorem areCounted_volumes (a b : Box ℚ) :
    AreCounted a.volume b.volume (a.intersectionVolume b) (a.union b).volume := by
  have hx := areCounted_extents a.min.x a.max.x b.min.x b.max.x
  have hy := areCounted_extents a.min.y a.max.y b.min.y b.max.y
  have hz := areCounted_extents a.min.z a.max.z b.min.z b.max.z
  rw [intersectionVolume_eq]
  exact (hx.mul hy).mul hz

theorem grows_volumes (a b c : Box ℚ) :
    Grows b.volume (a.intersectionVolume b) (b.union c).volume
      (a.intersectionVolume (b.union c)) := by
  have hgrows (low high low' high' start stop : ℚ) :=
    grows_extents (min_le_left low low') (le_max_left high high') start stop
  have hx := hgrows b.min.x b.max.x c.min.x c.max.x a.min.x a.max.x
  have hy := hgrows b.min.y b.max.y c.min.y c.max.y a.min.y a.max.y
  have hz := hgrows b.min.z b.max.z c.min.z c.max.z a.min.z a.max.z
  rw [intersectionVolume_eq, intersectionVolume_eq]
  exact (hx.mul hy).mul hz

theorem intersectionVolume_comm (a b : Box ℚ) : a.intersectionVolume b = b.intersectionVolume a := by
  rw [intersectionVolume_eq, intersectionVolume_eq, overlap_comm]

theorem unionVolume_eq (a b : Box ℚ) :
    a.unionVolume b = a.volume + b.volume - a.intersectionVolume b :=
  rfl

/-- What is left of a volume is never below zero, so that nothing is cut off there. -/
theorem differenceVolume_eq (a b : Box ℚ) :
    a.differenceVolume b = a.volume - a.intersectionVolume b :=
  max_eq_left (sub_nonneg.mpr (areCounted_volumes a b).shared_le_left)

end Box

/-- Volumes add up as those of sets do, wherever the boxes lie, and boxes that are inverted on some
axis count as empty. -/
theorem box_volumes (a b c : Box ℚ) :
    (0 ≤ a.intersectionVolume b ∧ a.intersectionVolume b = b.intersectionVolume a ∧
      a.intersectionVolume b ≤ min a.volume b.volume) ∧
    (max a.volume b.volume ≤ a.unionVolume b ∧ a.unionVolume b ≤ (a.union b).volume) ∧
    a.differenceVolume b + a.intersectionVolume b = a.volume ∧
    a.differenceVolume b + b.differenceVolume a ≤ (a.union b).volume ∧
    a.unionVolume b ≤ a.unionVolume (b.union c) := by
  obtain ⟨hnonneg, hleft, hright, hwhole⟩ := Box.areCounted_volumes a b
  have houtside := (Box.grows_volumes a b c).outside_le
  have hcomm := a.intersectionVolume_comm b
  rw [a.differenceVolume_eq, b.differenceVolume_eq, a.unionVolume_eq, a.unionVolume_eq]
  refine ⟨⟨hnonneg, hcomm, le_min hleft hright⟩, ⟨max_le ?_ ?_, hwhole⟩, ?_, ?_, ?_⟩ <;> linarith

end Facet
