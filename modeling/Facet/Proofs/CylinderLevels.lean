import Facet.Proofs.CylinderSurface
import Facet.Proofs.GridNumbers
import Facet.Proofs.RoundedOrder
import Facet.Proofs.VectorLengths

namespace Facet

open Float.Model Float.Model.UnpackedFloat

/-- What stands for a sine or a cosine is a finite number within its range. -/
theorem withinUnit_finite (x : Float) : IsFinite (withinUnit x) ∧ |value (withinUnit x)| ≤ 1 := by
  rw [withinUnit]
  split
  next h =>
    obtain ⟨hlow, hhigh⟩ := (Bool.and_eq_true ..).mp h
    obtain ⟨-, -, hlow⟩ := rank_le_rank (of_decide_eq_true hlow)
    obtain ⟨-, -, hhigh⟩ := rank_le_rank (of_decide_eq_true hhigh)
    refine ⟨isFinite_of_rank isFinite_one.neg isFinite_one hlow hhigh, abs_le.mpr ⟨?_, ?_⟩⟩
    · rw [← value_one, ← value_neg isFinite_one]
      exact rank_le_iff_value_le.mp hlow
    · rw [← value_one]
      exact rank_le_iff_value_le.mp hhigh
  next =>
    rw [value_zero, abs_zero]
    exact ⟨isFinite_zero, zero_le_one⟩

theorem positiveLength_finite {x : Float} (hx : IsFinite x) :
    IsFinite (positiveLength x) ∧ 0 < value (positiveLength x) := by
  rw [positiveLength]
  split
  next hpos =>
    rw [lt_iff_value_lt isFinite_zero hx, value_zero] at hpos
    exact ⟨hx, hpos⟩
  next =>
    have hfinite : IsFinite degenerateLength := by
      change magnitudeBits degenerateLength < infinityBits
      decide +kernel
    have hpos : (0 : Float) < degenerateLength := by decide +kernel
    rw [lt_iff_value_lt isFinite_zero hfinite, value_zero] at hpos
    exact ⟨hfinite, hpos⟩

theorem toFloat_nonzero {n : UInt32} (h : 0 < n.toNat) :
    IsFiniteNonzero n.toFloat ∧ IsPositive n.toFloat := by
  obtain ⟨hfinite, hvalue⟩ := toFloat_exact n
  have hpos : 0 < value n.toFloat := by
    rw [hvalue]
    exact Nat.cast_pos.mpr h
  have hbits : 0 < magnitudeBits n.toFloat := by
    by_contra hzero
    rw [value_of_zero (Nat.eq_zero_of_not_pos hzero)] at hpos
    exact lt_irrefl 0 hpos
  exact ⟨⟨hbits, hfinite⟩, signOf_of_nonneg hbits hpos.le, hbits, hfinite.le⟩

theorem mem_indicesBelow_of_lt {n i : UInt32} (h : i.toNat < n.toNat) : i ∈ indicesBelow n := by
  have hget := getElem?_indicesBelow h
  rw [UInt32.ofNat_toNat] at hget
  exact List.mem_of_getElem? hget

namespace CylinderGrid

/-- The way down to a ring, as many times too long as there are steps. -/
def travel (g : CylinderGrid) (ring : UInt32) : Float :=
  g.height * ring.toFloat

/-- How far below the top a ring is. -/
def depth (g : CylinderGrid) (ring : UInt32) : Float :=
  g.travel ring / (g.rings - 1).toFloat

theorem level_eq (g : CylinderGrid) (ring : UInt32) : g.level ring = g.half - g.depth ring :=
  rfl

/-- Lengths above zero that are not infinite, and at least one step. -/
structure HasSize (g : CylinderGrid) : Prop where
  radius : IsFinite g.radius
  height : IsFinite g.height
  radius_pos : 0 < value g.radius
  height_pos : 0 < value g.height
  slices_pos : 0 < g.slices.toNat
  two_le_rings : 2 ≤ g.rings.toNat

section Vertices

variable {g : CylinderGrid} {capped : Bool}

theorem mem_vertices {ring column : UInt32} (hring : ring.toNat < g.rings.toNat)
    (hcolumn : column.toNat < g.slices.toNat) : g.point ring column ∈ (g.mesh capped).vertices := by
  have hside : g.point ring column ∈ g.sideVertices :=
    List.mem_flatMap.mpr ⟨ring, mem_indicesBelow_of_lt hring,
      List.mem_map.mpr ⟨column, mem_indicesBelow_of_lt hcolumn, rfl⟩⟩
  have hvertices : (g.mesh capped).vertices = (g.vertices capped).toArray := rfl
  rw [hvertices, List.mem_toArray, vertices]
  split
  · exact List.mem_append_left _ hside
  · exact hside

/-- A vertex is on a ring, or it is the centre of an end. -/
theorem forall_vertices {P : Point → Prop}
    (hside : ∀ ring column, ring.toNat < g.rings.toNat → P (g.point ring column))
    (hcenters : ∀ p ∈ g.centers, P p) : ∀ p ∈ (g.mesh capped).vertices, P p := by
  have hvertices : (g.mesh capped).vertices = (g.vertices capped).toArray := rfl
  have hall : ∀ p ∈ g.sideVertices, P p := by
    intro p hp
    obtain ⟨ring, hring, hp⟩ := List.mem_flatMap.mp hp
    obtain ⟨column, -, rfl⟩ := List.mem_map.mp hp
    exact hside ring column (mem_indicesBelow hring)
  intro p hp
  rw [hvertices, List.mem_toArray, vertices] at hp
  split at hp
  · exact (List.mem_append.mp hp).elim (hall p) (hcenters p)
  · exact hall p hp

end Vertices

namespace HasSize

variable {g : CylinderGrid} (h : g.HasSize) {ring : UInt32}

include h

theorem last_pos : 0 < (g.rings - 1).toNat := by
  have hrings := h.two_le_rings
  rw [toNat_last hrings]
  omega

theorem le_last (hring : ring.toNat < g.rings.toNat) : ring.toNat ≤ (g.rings - 1).toNat := by
  rw [toNat_last h.two_le_rings]
  omega

theorem one_le_last : (1 : ℝ) ≤ (g.rings - 1).toNat :=
  Nat.one_le_cast.mpr h.last_pos

theorem isFinite_half : IsFinite g.half ∧ 0 ≤ value g.half := by
  have hpos := h.height_pos
  obtain ⟨hfinite, hlow, -⟩ := (isRounded_half h.height).between isFinite_zero h.height
    (by rw [value_zero]; linarith) (by linarith)
  rw [value_zero] at hlow
  exact ⟨hfinite, hlow⟩

theorem isRounded_travel (ring : UInt32) :
    IsRounded (g.travel ring) (value g.height * ring.toNat) := by
  obtain ⟨hfinite, hvalue⟩ := toFloat_exact ring
  rw [← hvalue]
  exact isRounded_mul h.height hfinite

theorem travel_nonneg (ring : UInt32) : 0 ≤ value (g.travel ring) :=
  (h.isRounded_travel ring).value_nonneg (mul_nonneg h.height_pos.le (Nat.cast_nonneg _))

theorem rank_travel_le (hring : ring.toNat ≤ (g.rings - 1).toNat) :
    rank (g.travel ring) ≤ rank (g.travel (g.rings - 1)) := by
  rcases Nat.lt_or_eq_of_le hring with hlt | heq
  · exact (h.isRounded_travel ring).rank_le_rank (h.isRounded_travel _)
      (mul_lt_mul_of_pos_left (Nat.cast_lt.mpr hlt) h.height_pos)
  · rw [UInt32.toNat_inj.mp heq]

/-- If the longest way is finite, then all are. -/
theorem isFinite_travel (hlast : IsFinite (g.travel (g.rings - 1)))
    (hring : ring.toNat ≤ (g.rings - 1).toNat) : IsFinite (g.travel ring) := by
  apply isFinite_of_rank isFinite_zero hlast _ (h.rank_travel_le hring)
  rw [rank_le_iff_value_le, value_zero]
  exact h.travel_nonneg ring

theorem isRounded_depth (htravel : IsFinite (g.travel ring)) :
    IsRounded (g.depth ring) (value (g.travel ring) / (g.rings - 1).toNat) := by
  rw [← (toFloat_exact _).2]
  exact isRounded_div htravel (toFloat_nonzero h.last_pos).1

theorem isFinite_depth (htravel : IsFinite (g.travel ring)) :
    IsFinite (g.depth ring) ∧ 0 ≤ value (g.depth ring) := by
  have hnonneg := h.travel_nonneg ring
  obtain ⟨hfinite, hlow, -⟩ := (h.isRounded_depth htravel).between isFinite_zero htravel
    (by rw [value_zero]; exact div_nonneg hnonneg (Nat.cast_nonneg _))
    (div_le_self hnonneg h.one_le_last)
  rw [value_zero] at hlow
  exact ⟨hfinite, hlow⟩

theorem depth_le (hlast : IsFinite (g.travel (g.rings - 1)))
    (hring : ring.toNat ≤ (g.rings - 1).toNat) :
    value (g.depth ring) ≤ value (g.depth (g.rings - 1)) := by
  have hpos : 0 < value (g.rings - 1).toFloat := by
    rw [(toFloat_exact _).2]
    exact one_pos.trans_le h.one_le_last
  exact value_div_le (h.isFinite_travel hlast hring) hlast (toFloat_nonzero h.last_pos).1 hpos
    (rank_le_iff_value_le.mp (h.rank_travel_le hring))

theorem isRounded_level (htravel : IsFinite (g.travel ring)) :
    IsRounded (g.level ring) (value g.half - value (g.depth ring)) :=
  isRounded_sub h.isFinite_half.1 (h.isFinite_depth htravel).1

theorem isFinite_level (htravel : IsFinite (g.travel ring)) :
    IsFinite (g.level ring) ∧ value (g.level ring) ≤ value g.half := by
  obtain ⟨hhalf, hhalfnonneg⟩ := h.isFinite_half
  obtain ⟨hdepth, hdepthnonneg⟩ := h.isFinite_depth htravel
  obtain ⟨hfinite, -, hhigh⟩ := (h.isRounded_level htravel).between hdepth.neg hhalf
    (by rw [value_neg hdepth]; linarith) (by linarith)
  exact ⟨hfinite, hhigh⟩

theorem depth_of_infinite (htravel : ¬ IsFinite (g.travel ring)) :
    magnitudeBits (g.depth ring) = infinityBits ∧ signOf (g.depth ring) = .positive := by
  have hinfinite : magnitudeBits (g.travel ring) = infinityBits :=
    (h.isRounded_travel ring).nearest.le_infinity.antisymm (Nat.not_lt.mp htravel)
  have hpos : 0 < magnitudeBits (g.travel ring) := hinfinite ▸ by decide
  have hpositive : IsPositive (g.travel ring) :=
    ⟨signOf_of_nonneg hpos (h.travel_nonneg ring), hpos, hinfinite.le⟩
  obtain ⟨hfinite, hlast⟩ := toFloat_nonzero h.last_pos
  rw [depth, hpositive.div_of_infinity hinfinite hlast hfinite]
  exact bits_of_infinity .positive

/-- Where the way is too long for a number, the ring is infinitely far below. -/
theorem level_of_infinite (htravel : ¬ IsFinite (g.travel ring)) :
    magnitudeBits (g.level ring) = infinityBits ∧ signOf (g.level ring) = .negative := by
  obtain ⟨hbits, hsign⟩ := h.depth_of_infinite htravel
  obtain ⟨hnegbits, hnegsign⟩ := bits_neg hbits.le
  obtain ⟨hhalf, -⟩ := h.isFinite_half
  rw [hbits] at hnegbits
  rw [hsign] at hnegsign
  rw [level_eq, subtract_eq_add_neg, float_add_comm]
  obtain ⟨hsum, hsumsign⟩ := bits_add_infinity hnegbits hhalf.le fun heq => absurd heq hhalf.ne
  exact ⟨hsum, hsumsign.trans hnegsign⟩

theorem level_le_half (ring : UInt32) : g.level ring ≤ g.half := by
  obtain ⟨hhalf, -⟩ := h.isFinite_half
  by_cases htravel : IsFinite (g.travel ring)
  · obtain ⟨hfinite, hle⟩ := h.isFinite_level htravel
    exact (le_iff_value_le hfinite hhalf).mpr hle
  · obtain ⟨hbits, hsign⟩ := h.level_of_infinite htravel
    have hhalfbits := natAbs_rank g.half
    rw [le_iff_rank_le hbits.le hhalf.le, rank, hsign, hbits, Sign.apply]
    unfold IsFinite at hhalf
    omega

/-- A ring is no farther below the middle than the top is above it if and only if it is no farther
below the top than both together. -/
theorem neg_half_le_level_iff (htravel : IsFinite (g.travel ring)) :
    -value g.half ≤ value (g.level ring) ↔ value (g.depth ring) ≤ 2 * value g.half := by
  obtain ⟨hhalf, hnonneg⟩ := h.isFinite_half
  obtain ⟨hdepth, hdepthnonneg⟩ := h.isFinite_depth htravel
  constructor
  · intro hlevel
    by_contra hdeep
    have hlow := sub_lt_neg hhalf hdepth hnonneg (not_le.mp hdeep)
    rw [← level_eq] at hlow
    exact absurd hlevel (not_le.mpr hlow)
  · intro hdeep
    obtain ⟨-, hlow, -⟩ := (h.isRounded_level htravel).between hhalf.neg hhalf
      (by rw [value_neg hhalf]; linarith) (by linarith)
    rwa [value_neg hhalf] at hlow

/-- Nothing lies between half of the height and what it is rounded to. -/
theorem neg_half_le {r : Float} (hr : IsFinite r) (hlow : -(value g.height / 2) ≤ value r) :
    -value g.half ≤ value r := by
  have hrank := (isRounded_half h.height).le_rank hr.neg (by rw [value_neg hr]; linarith)
  have hvalue : value (-r) ≤ value g.half := rank_le_iff_value_le.mp hrank
  rw [value_neg hr] at hvalue
  linarith

/-- No ring is farther from the middle than the ends if the last ring is not. -/
theorem abs_level_le (hlast : IsFinite (g.travel (g.rings - 1)))
    (hdepth : value (g.depth (g.rings - 1)) ≤ 2 * value g.half)
    (hring : ring.toNat ≤ (g.rings - 1).toNat) : |value (g.level ring)| ≤ value g.half := by
  have htravel := h.isFinite_travel hlast hring
  exact abs_le.mpr ⟨(h.neg_half_le_level_iff htravel).mpr ((h.depth_le hlast hring).trans hdepth),
    (h.isFinite_level htravel).2⟩

/-- The first ring is as high as the upper centre. -/
theorem value_level_zero : IsFinite (g.travel 0) ∧ value (g.level 0) = value g.half := by
  obtain ⟨hhalf, -⟩ := h.isFinite_half
  have hroundtravel := h.isRounded_travel 0
  rw [UInt32.toNat_zero, Nat.cast_zero, mul_zero] at hroundtravel
  obtain ⟨htravel, htravelzero⟩ := hroundtravel.eq_zero
  have hrounddepth := h.isRounded_depth htravel
  rw [htravelzero, zero_div] at hrounddepth
  have hroundlevel := h.isRounded_level htravel
  rw [hrounddepth.eq_zero.2, sub_zero] at hroundlevel
  obtain ⟨-, hlow, hhigh⟩ := hroundlevel.between hhalf hhalf le_rfl le_rfl
  exact ⟨htravel, hhigh.antisymm hlow⟩

theorem half_error :
    |value g.half - value g.height / 2| ≤ 1e-15 * (value g.height / 2) + 1e-60 := by
  have herror := (isRounded_half h.height).error h.isFinite_half.1
  rwa [abs_of_nonneg (half_pos h.height_pos).le] at herror

/-- Before it is rounded, a quotient is off by no more than the way that is divided. -/
theorem travel_div_le (htravel : IsFinite (g.travel ring))
    (hring : ring.toNat ≤ (g.rings - 1).toNat) :
    value (g.travel ring) / (g.rings - 1).toNat ≤ (1 + 1e-15) * value g.height + 1e-60 := by
  have hheight := h.height_pos
  have hlast := h.one_le_last
  have hle : (ring.toNat : ℝ) ≤ (g.rings - 1).toNat := Nat.cast_le.mpr hring
  have herror := (h.isRounded_travel ring).error htravel
  rw [abs_of_nonneg (mul_nonneg hheight.le (Nat.cast_nonneg _))] at herror
  have hproduct := mul_le_mul_of_nonneg_left hle hheight.le
  rw [div_le_iff₀ (one_pos.trans_le hlast)]
  linarith [(abs_le.mp herror).2]

/-- Where nothing overflows, rounding leads only a little below the bottom. -/
theorem level_error (htravel : IsFinite (g.travel ring))
    (hring : ring.toNat ≤ (g.rings - 1).toNat) :
    |value (g.level ring)| ≤ (1 / 2 + 1e-14) * value g.height + 1e-59 := by
  have hheight := h.height_pos
  obtain ⟨hhalf, hhalfnonneg⟩ := h.isFinite_half
  obtain ⟨hdepth, hdepthnonneg⟩ := h.isFinite_depth htravel
  have hquotient : 0 ≤ value (g.travel ring) / (g.rings - 1).toNat :=
    div_nonneg (h.travel_nonneg ring) (Nat.cast_nonneg _)
  have hquotientle := h.travel_div_le htravel hring
  obtain ⟨hhalflow, hhalfhigh⟩ := abs_le.mp h.half_error
  have hdeptherror := (h.isRounded_depth htravel).error hdepth
  rw [abs_of_nonneg hquotient] at hdeptherror
  have hdepthhigh := (abs_le.mp hdeptherror).2
  have hbefore : |value g.half - value (g.depth ring)| ≤
      (1 / 2 + 4e-15) * value g.height + 4e-60 := by
    rw [abs_le]
    constructor <;> linarith
  obtain ⟨hbeforelow, hbeforehigh⟩ := abs_le.mp hbefore
  obtain ⟨hlow, hhigh⟩ :=
    abs_le.mp ((h.isRounded_level htravel).error (h.isFinite_level htravel).1)
  rw [abs_le]
  constructor <;> linarith

theorem isFinite_point (htravel : IsFinite (g.travel ring)) (column : UInt32) :
    (g.point ring column).AllFinite := by
  have hscaled (x : Float) : IsFinite (g.radius * withinUnit x) := by
    obtain ⟨hunit, hle⟩ := withinUnit_finite x
    obtain ⟨hlow, hhigh⟩ := abs_le.mp hle
    have hpos := h.radius_pos
    exact ((isRounded_mul h.radius hunit).between h.radius.neg h.radius
      (by rw [value_neg h.radius]; nlinarith) (by nlinarith)).1
  exact ⟨hscaled _, hscaled _, (h.isFinite_level htravel).1⟩

end HasSize

end CylinderGrid

theorem Tolerance.hasSize_cylinderGrid (t : Tolerance) {radius height : Float}
    (hradius : IsFinite radius) (hheight : IsFinite height) :
    (t.cylinderGrid radius height).HasSize where
  radius := (positiveLength_finite hradius).1
  height := (positiveLength_finite hheight).1
  radius_pos := (positiveLength_finite hradius).2
  height_pos := (positiveLength_finite hheight).2
  slices_pos := Nat.lt_of_lt_of_le (by decide) t.six_le_slices
  two_le_rings := t.two_le_rings_cylinderGrid radius height

namespace CylinderGrid.HasSize

variable {g : CylinderGrid} {capped : Bool} (h : g.HasSize)

include h

theorem first_mem {ring : UInt32} (hring : ring.toNat < g.rings.toNat) :
    g.point ring 0 ∈ (g.mesh capped).vertices :=
  mem_vertices hring h.slices_pos

theorem center_level {p : Point} (hp : p ∈ g.centers) :
    p.AllFinite ∧ |value p.z| = value g.half ∧ p.z ≤ g.half := by
  obtain ⟨hhalf, hnonneg⟩ := h.isFinite_half
  rw [centers, List.mem_cons, List.mem_singleton] at hp
  rcases hp with rfl | rfl
  · refine ⟨⟨isFinite_zero, isFinite_zero, hhalf.neg⟩, ?_, ?_⟩
    · rw [value_neg hhalf, abs_neg, abs_of_nonneg hnonneg]
    · rw [le_iff_value_le hhalf.neg hhalf, value_neg hhalf]
      linarith
  · exact ⟨⟨isFinite_zero, isFinite_zero, hhalf⟩, abs_of_nonneg hnonneg,
      (le_iff_value_le hhalf hhalf).mpr le_rfl⟩

/-- All coordinates are finite if and only if the longest way down is. -/
theorem allFinite_iff :
    (∀ p ∈ (g.mesh capped).vertices, p.AllFinite) ↔ IsFinite (g.travel (g.rings - 1)) := by
  constructor
  · intro hall
    by_contra htravel
    obtain ⟨hbits, -⟩ := h.level_of_infinite htravel
    exact absurd hbits (hall _ (h.first_mem (last_lt_rings h.two_le_rings))).z.ne
  · intro hlast
    refine forall_vertices (fun ring column hring => ?_) fun p hp => (h.center_level hp).1
    exact h.isFinite_point (h.isFinite_travel hlast (h.le_last hring)) column

/-- A depth that compares is finite, and so was the way before it was divided. -/
theorem isFinite_travel_of_depth_le {b : Float} (hb : IsFinite b) (hle : g.depth ring ≤ b) :
    IsFinite (g.travel ring) := by
  by_contra htravel
  obtain ⟨hbits, hsign⟩ := h.depth_of_infinite htravel
  obtain ⟨-, -, hrank⟩ := rank_le_rank hle
  have hbbits := natAbs_rank b
  rw [rank, hsign, hbits, Sign.apply] at hrank
  unfold IsFinite at hb
  omega

/-- All is within the height if and only if halving it does not round up and the last ring is no
deeper than both halves. -/
theorem within_iff :
    (∀ p ∈ (g.mesh capped).vertices, p.AllFinite ∧ |value p.z| ≤ value g.height / 2) ↔
      g.half + g.half ≤ g.height ∧ g.depth (g.rings - 1) ≤ g.half + g.half := by
  obtain ⟨hhalf, hnonneg⟩ := h.isFinite_half
  have hboth : IsFinite (g.half + g.half) ∧ value (g.half + g.half) = 2 * value g.half :=
    half_add_half_exact h.height
  rw [le_iff_value_le hboth.1 h.height, hboth.2]
  constructor
  · intro hall
    have hlast : IsFinite (g.travel (g.rings - 1)) :=
      h.allFinite_iff.mp fun p hp => (hall p hp).1
    have htop : |value (g.level 0)| ≤ value g.height / 2 :=
      (hall _ (h.first_mem (first_lt_rings h.two_le_rings))).2
    have hbottom : |value (g.level (g.rings - 1))| ≤ value g.height / 2 :=
      (hall _ (h.first_mem (last_lt_rings h.two_le_rings))).2
    obtain ⟨hlevel, -⟩ := h.isFinite_level hlast
    obtain ⟨hdepth, -⟩ := h.isFinite_depth hlast
    have hlow := h.neg_half_le hlevel (abs_le.mp hbottom).1
    rw [h.value_level_zero.2, abs_of_nonneg hnonneg] at htop
    rw [le_iff_value_le hdepth hboth.1, hboth.2]
    exact ⟨by linarith, (h.neg_half_le_level_iff hlast).mp hlow⟩
  · rintro ⟨hheight, hdepthle⟩
    have hlast := h.isFinite_travel_of_depth_le hboth.1 hdepthle
    rw [le_iff_value_le (h.isFinite_depth hlast).1 hboth.1, hboth.2] at hdepthle
    refine forall_vertices (fun ring column hring => ?_) fun p hp => ?_
    · have hle := h.le_last hring
      have hlevel := h.abs_level_le hlast hdepthle hle
      exact ⟨h.isFinite_point (h.isFinite_travel hlast hle) column, hlevel.trans (by linarith)⟩
    · obtain ⟨hfinite, hlevel, -⟩ := h.center_level hp
      exact ⟨hfinite, hlevel.trans_le (by linarith)⟩

end CylinderGrid.HasSize

/-- The vertices of a cylinder of finite lengths are within its height if and only if halving it
does not round up and the last ring is no deeper than both halves. They are finite if and only if
the longest way down is, before it is divided, and then only rounding can lead out, by little.
Nothing is ever above the top. -/
theorem cylinder_levels {t : Tolerance} {radius height : Float} (capped : Bool)
    (hradius : IsFinite radius) (hheight : IsFinite height) :
    let g := t.cylinderGrid radius height
    let last := g.rings - 1
    let m := cylinderMesh t radius height capped
    ((∀ p ∈ m.vertices, p.AllFinite ∧ |value p.z| ≤ value g.height / 2) ↔
      g.half + g.half ≤ g.height ∧ g.depth last ≤ g.half + g.half) ∧
    ((∀ p ∈ m.vertices, p.AllFinite) ↔ IsFinite (g.travel last)) ∧
    (IsFinite (g.travel last) →
      ∀ p ∈ m.vertices, |value p.z| ≤ (1 / 2 + 1e-14) * value g.height + 1e-59) ∧
    ∀ p ∈ m.vertices, p.z ≤ g.half := by
  intro g last m
  have h : g.HasSize := t.hasSize_cylinderGrid hradius hheight
  refine ⟨h.within_iff, h.allFinite_iff, fun hlast => ?_, ?_⟩
  · refine CylinderGrid.forall_vertices (fun ring column hring => ?_) fun p hp => ?_
    · have hle := h.le_last hring
      exact h.level_error (h.isFinite_travel hlast hle) hle
    · obtain ⟨-, hlevel, -⟩ := h.center_level hp
      have hpos := h.height_pos
      rw [hlevel]
      linarith [(abs_le.mp h.half_error).2]
  · exact CylinderGrid.forall_vertices (fun ring column _ => h.level_le_half ring) fun p hp =>
      (h.center_level hp).2.2

/-- One step is computed without a product that overflows, even at the largest heights. -/
theorem cylinder_levels_of_one_step :
    let t : Tolerance := { linear := 1e308, minSegments := 3 }
    (IsFinite 1 ∧ IsFinite 1e308) ∧
    ∀ p ∈ (cylinderMesh t 1 1e308 true).vertices,
      p.AllFinite ∧ |value p.z| ≤ value 1e308 / 2 := by
  intro t
  have hheight : IsFinite 1e308 := by
    change magnitudeBits 1e308 < infinityBits
    decide +kernel
  obtain ⟨hwithin, -⟩ := @cylinder_levels t 1 1e308 true isFinite_one hheight
  have hsame : (t.cylinderGrid 1 1e308).height = 1e308 := by decide +kernel
  rw [hsame] at hwithin
  exact ⟨⟨isFinite_one, hheight⟩, hwithin.mpr (by decide +kernel)⟩

/-- Four steps are too many at the largest heights, and six lead below the bottom of an ordinary
one. -/
theorem cylinder_leaves_height :
    (∃ p ∈ (cylinderMesh { linear := 1e308 } 1 1e308 false).vertices, ¬ IsFinite p.z) ∧
    ∃ p ∈ (cylinderMesh {} 1 2.7 false).vertices, p.z < -(2.7 / 2) := by
  let tall := Tolerance.cylinderGrid { linear := 1e308 } 1 1e308
  let usual := Tolerance.cylinderGrid {} 1 2.7
  have hinfinite : ¬ magnitudeBits (tall.level 2) < infinityBits := by decide +kernel
  have hbelow : usual.level 6 < -(2.7 / 2) := by decide +kernel
  have htall : tall.point 2 0 ∈ (tall.mesh false).vertices :=
    CylinderGrid.mem_vertices (by decide +kernel) (by decide +kernel)
  have husual : usual.point 6 0 ∈ (usual.mesh false).vertices :=
    CylinderGrid.mem_vertices (by decide +kernel) (by decide +kernel)
  exact ⟨⟨_, htall, hinfinite⟩, _, husual, hbelow⟩

end Facet
