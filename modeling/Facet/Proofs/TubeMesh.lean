import Facet.RingGrid
import Facet.Proofs.TubePatches
import Mathlib.Data.Set.Function

namespace Facet

theorem length_indicesBelow (n : UInt32) : (indicesBelow n).length = n.toNat := by
  rw [indicesBelow, List.length_map, List.length_range]

theorem length_map_indicesBelow {α : Type} (n : UInt32) (f : UInt32 → α) :
    ((indicesBelow n).map f).length = n.toNat := by
  rw [List.length_map, length_indicesBelow]

theorem length_flatMap_indicesBelow {α : Type} (rows : List UInt32) (n : UInt32)
    (f : UInt32 → UInt32 → α) :
    (rows.flatMap fun row => (indicesBelow n).map (f row)).length = rows.length * n.toNat := by
  simp only [List.length_flatMap, length_map_indicesBelow, List.map_const', List.sum_replicate_nat]

theorem drop_indicesBelow (n : UInt32) (k : Nat) :
    (indicesBelow n).drop k = (List.range' k (n.toNat - k)).map UInt32.ofNat := by
  rw [indicesBelow, ← List.map_drop, List.range_eq_range', List.drop_range', Nat.zero_add,
    Nat.mul_one]

theorem toNat_sub_one {n : UInt32} (h : 1 ≤ n.toNat) : (n - 1).toNat = n.toNat - 1 := by
  have hone : (1 : UInt32) ≤ n := UInt32.le_iff_toNat_le.mpr h
  rw [UInt32.toNat_sub_of_le _ _ hone, UInt32.toNat_one]

theorem ofNat_toNat_sub_one {n : UInt32} (h : 1 ≤ n.toNat) : UInt32.ofNat (n.toNat - 1) = n - 1 := by
  rw [← toNat_sub_one h, UInt32.ofNat_toNat]

theorem ofNat_mod_toNat {n : UInt32} {k : Nat} (h : k ≤ n.toNat) :
    UInt32.ofNat (k % n.toNat) = UInt32.ofNat k % n := by
  have hlt := n.toNat_lt
  rw [UInt32.ofNat_mod (Nat.lt_of_le_of_lt h hlt) hlt, UInt32.ofNat_toNat]

namespace Tube

open Site Patch

variable (tube : Tube)

def triangle (place : Site tube.columns → UInt32) (p : Patch tube.columns) : Triangle :=
  ⟨place (tube.corners p).1, place (tube.corners p).2.1, place (tube.corners p).2.2⟩

section Numbers

def ringCount : Nat :=
  (tube.last - tube.first + 1) * tube.columns

/-- The place of a point on the rows, counted row after row. -/
def offset (r : Nat) (c : ZMod tube.columns) : Nat :=
  (r - tube.first) * tube.columns + c.val

/-- Vertex numbers for all places, those of the rows from `start` on. -/
def number (start upperNumber lowerNumber : Nat) : Site tube.columns → Nat
  | upper => upperNumber
  | lower => lowerNumber
  | ring r c => start + tube.offset r c

theorem val_lt (c : ZMod tube.columns) : c.val < tube.columns := by
  have := tube.three_le
  have : NeZero tube.columns := ⟨by omega⟩
  exact c.val_lt

theorem offset_lt {r : Nat} (hlast : r ≤ tube.last) (c : ZMod tube.columns) :
    tube.offset r c < tube.ringCount := by
  have hc := tube.val_lt c
  calc
    tube.offset r c < (r - tube.first) * tube.columns + tube.columns := by
      unfold offset
      omega
    _ = (r - tube.first + 1) * tube.columns := (Nat.succ_mul _ _).symm
    _ ≤ tube.ringCount := Nat.mul_le_mul_right _ (by omega)

theorem offset_inj {r s : Nat} (hr : tube.first ≤ r) (hs : tube.first ≤ s)
    {c d : ZMod tube.columns} (h : tube.offset r c = tube.offset s d) : r = s ∧ c = d := by
  have hc := tube.val_lt c
  have hd := tube.val_lt d
  have hpos : 0 < tube.columns := by omega
  have : NeZero tube.columns := ⟨by omega⟩
  have hrow := congrArg (· / tube.columns) h
  have hcolumn := congrArg (· % tube.columns) h
  simp only [offset, Nat.mul_comm _ tube.columns, Nat.mul_add_div hpos, Nat.mul_add_mod,
    Nat.div_eq_of_lt hc, Nat.div_eq_of_lt hd, Nat.mod_eq_of_lt hc, Nat.mod_eq_of_lt hd]
    at hrow hcolumn
  exact ⟨by omega, ZMod.val_injective _ hcolumn⟩

theorem exists_offset_eq {i : Nat} (hi : i < tube.ringCount) :
    ∃ r c, tube.HasSite (ring r c) ∧ tube.offset r c = i := by
  have hle := tube.first_le
  have hpos : 0 < tube.columns := by
    have := tube.three_le
    omega
  have hrow : i / tube.columns < tube.last - tube.first + 1 := Nat.div_lt_of_lt_mul (by
    rwa [Nat.mul_comm])
  have := Nat.zero_le (i / tube.columns)
  refine ⟨tube.first + i / tube.columns, (i % tube.columns : Nat), ⟨by omega, by omega⟩, ?_⟩
  rw [offset, ZMod.val_natCast, Nat.mod_mod, Nat.add_sub_cancel_left, Nat.div_add_mod']

theorem number_injOn_rings (start upperNumber lowerNumber : Nat) :
    Set.InjOn (tube.number start upperNumber lowerNumber)
      {s | tube.HasSite s ∧ tube.IsRing s} := by
  rintro a ⟨ha, hra⟩ b ⟨hb, hrb⟩ h
  cases a with
  | upper => exact hra.elim
  | lower => exact hra.elim
  | ring r c =>
    cases b with
    | upper => exact hrb.elim
    | lower => exact hrb.elim
    | ring s d =>
      obtain ⟨rfl, rfl⟩ := tube.offset_inj ha.1 hb.1 (Nat.add_left_cancel h)
      rfl

/-- The ends keep their numbers to themselves if these are not among those of the rows. -/
theorem number_injOn {start upperNumber lowerNumber : Nat} (hne : upperNumber ≠ lowerNumber)
    (hupper : upperNumber < start ∨ start + tube.ringCount ≤ upperNumber)
    (hlower : lowerNumber < start ∨ start + tube.ringCount ≤ lowerNumber) :
    Set.InjOn (tube.number start upperNumber lowerNumber) {s | tube.HasSite s} := by
  have hring (r : Nat) (c : ZMod tube.columns) (hs : tube.HasSite (ring r c)) :=
    tube.offset_lt hs.2 c
  intro a ha b hb h
  cases a with
  | upper =>
    cases b with
    | upper => rfl
    | lower => exact absurd h hne
    | ring s d =>
      have := hring s d hb
      simp only [number] at h
      omega
  | lower =>
    cases b with
    | upper => exact absurd h.symm hne
    | lower => rfl
    | ring s d =>
      have := hring s d hb
      simp only [number] at h
      omega
  | ring r c =>
    cases b with
    | upper =>
      have := hring r c ha
      simp only [number] at h
      omega
    | lower =>
      have := hring r c ha
      simp only [number] at h
      omega
    | ring s d =>
      have hsa : tube.HasSite (ring r c) := ha
      have hsb : tube.HasSite (ring s d) := hb
      exact tube.number_injOn_rings start upperNumber lowerNumber ⟨hsa, trivial⟩ ⟨hsb, trivial⟩ h

def place (start upperNumber lowerNumber : Nat) (s : Site tube.columns) : UInt32 :=
  UInt32.ofNat (tube.number start upperNumber lowerNumber s)

theorem toNat_place {start upperNumber lowerNumber : Nat} {s : Site tube.columns}
    (h : tube.number start upperNumber lowerNumber s < 2 ^ 32) :
    (tube.place start upperNumber lowerNumber s).toNat =
      tube.number start upperNumber lowerNumber s :=
  UInt32.toNat_ofNat_of_lt' h

theorem number_lt_of_isRing {start upperNumber lowerNumber limit : Nat} {s : Site tube.columns}
    (hsite : tube.HasSite s) (hring : tube.IsRing s) (hrings : start + tube.ringCount ≤ limit) :
    tube.number start upperNumber lowerNumber s < limit := by
  cases s with
  | upper => exact hring.elim
  | lower => exact hring.elim
  | ring r c =>
    have := tube.offset_lt hsite.2 c
    change start + tube.offset r c < limit
    omega

theorem number_lt {start upperNumber lowerNumber limit : Nat} {s : Site tube.columns}
    (hsite : tube.HasSite s) (hrings : start + tube.ringCount ≤ limit)
    (hupper : upperNumber < limit) (hlower : lowerNumber < limit) :
    tube.number start upperNumber lowerNumber s < limit := by
  cases s with
  | upper => exact hupper
  | lower => exact hlower
  | ring r c => exact tube.number_lt_of_isRing hsite trivial hrings

theorem place_injOn {start upperNumber lowerNumber : Nat} {sites : Set (Site tube.columns)}
    (hinj : Set.InjOn (tube.number start upperNumber lowerNumber) sites)
    (hlt : ∀ s ∈ sites, tube.number start upperNumber lowerNumber s < 2 ^ 32) :
    Set.InjOn (tube.place start upperNumber lowerNumber) sites := by
  intro a ha b hb h
  have hnat := congrArg UInt32.toNat h
  rw [tube.toNat_place (hlt a ha), tube.toNat_place (hlt b hb)] at hnat
  exact hinj ha hb hnat

end Numbers

section Grid

variable {index : UInt32 → UInt32 → UInt32} {place : Site tube.columns → UInt32}

/-- Whether a grid numbers the rows as `place` does, the first column once more after the last. -/
def Agrees (index : UInt32 → UInt32 → UInt32) (place : Site tube.columns → UInt32) : Prop :=
  ∀ r k, tube.first ≤ r → r ≤ tube.last → k ≤ tube.columns →
    index (UInt32.ofNat r) (UInt32.ofNat k) = place (ring r k)

variable {tube} in
/-- A column and its neighbour, which is the first column again where the row ends. -/
theorem Agrees.column (h : tube.Agrees index place) {r k : Nat} (hfirst : tube.first ≤ r)
    (hlast : r ≤ tube.last) (hk : k < tube.columns) :
    index (UInt32.ofNat r) (UInt32.ofNat k) = place (ring r k) ∧
      index (UInt32.ofNat r) (UInt32.ofNat k + 1) = place (ring r (k + 1)) := by
  have hcolumn : UInt32.ofNat k + 1 = UInt32.ofNat (k + 1) := (UInt32.ofNat_add k 1).symm
  rw [h r k hfirst hlast hk.le, hcolumn, h r (k + 1) hfirst hlast hk, Nat.cast_succ]
  exact ⟨rfl, rfl⟩

theorem quad_eq (h : tube.Agrees index place) {r k : Nat} (hfirst : tube.first ≤ r)
    (hlast : r < tube.last) (hk : k < tube.columns) :
    quad index (UInt32.ofNat r) (UInt32.ofNat k) =
      [tube.triangle place (left r k), tube.triangle place (right r k)] := by
  have hrow : UInt32.ofNat r + 1 = UInt32.ofNat (r + 1) := (UInt32.ofNat_add r 1).symm
  obtain ⟨hhere, hnext⟩ := h.column hfirst hlast.le hk
  obtain ⟨hbelow, hbelowNext⟩ := h.column (Nat.le_succ_of_le hfirst) hlast hk
  simp only [quad, hrow, hhere, hnext, hbelow, hbelowNext, triangle, corners]

theorem upperFan_eq (h : tube.Agrees index place) {k : Nat} (hk : k < tube.columns) :
    upperFan index (place upper) (UInt32.ofNat tube.first) (UInt32.ofNat k) =
      tube.triangle place (upperWedge k) := by
  obtain ⟨hhere, hnext⟩ := h.column le_rfl tube.first_le hk
  simp only [upperFan, hhere, hnext, triangle, corners]

theorem lowerFan_eq (h : tube.Agrees index place) {k : Nat} (hk : k < tube.columns) :
    lowerFan index (place lower) (UInt32.ofNat tube.last) (UInt32.ofNat k) =
      tube.triangle place (lowerWedge k) := by
  obtain ⟨hhere, hnext⟩ := h.column tube.first_le le_rfl hk
  simp only [lowerFan, hhere, hnext, triangle, corners]

variable {n : UInt32} (hn : n.toNat = tube.columns)

include hn

theorem indicesBelow_eq : indicesBelow n = (List.range tube.columns).map UInt32.ofNat := by
  rw [indicesBelow, hn]

theorem map_upperFan_eq (h : tube.Agrees index place) :
    (indicesBelow n).map (upperFan index (place upper) (UInt32.ofNat tube.first)) =
      tube.upperWedges.map (tube.triangle place) := by
  rw [tube.indicesBelow_eq hn, upperWedges, columnList, List.map_map, List.map_map, List.map_map]
  exact List.map_congr_left fun k hk => tube.upperFan_eq h (List.mem_range.mp hk)

theorem map_lowerFan_eq (h : tube.Agrees index place) :
    (indicesBelow n).map (lowerFan index (place lower) (UInt32.ofNat tube.last)) =
      tube.lowerWedges.map (tube.triangle place) := by
  rw [tube.indicesBelow_eq hn, lowerWedges, columnList, List.map_map, List.map_map, List.map_map]
  exact List.map_congr_left fun k hk => tube.lowerFan_eq h (List.mem_range.mp hk)

theorem flatMap_quad_eq (h : tube.Agrees index place) {rows : List UInt32}
    (hrows : rows = (List.range' tube.first (tube.last - tube.first)).map UInt32.ofNat) :
    (rows.flatMap fun row => (indicesBelow n).flatMap (quad index row)) =
      tube.sidePatches.map (tube.triangle place) := by
  rw [hrows, tube.indicesBelow_eq hn, sidePatches, List.flatMap_map, List.map_flatMap]
  refine List.flatMap_congr fun r hr => ?_
  obtain ⟨hfirst, hlast⟩ := List.mem_range'_1.mp hr
  rw [columnList, List.flatMap_map, List.flatMap_map, List.map_flatMap]
  exact List.flatMap_congr fun k hk =>
    tube.quad_eq h hfirst (by omega) (List.mem_range.mp hk)

end Grid

end Tube

end Facet
