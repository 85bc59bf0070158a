import Facet.Proofs.DirectedEdges
import Mathlib.Data.ZMod.Basic
import Mathlib.Tactic.Ring

namespace Facet

/-- A place on a tube with a point at either end. The places of a row run around. -/
inductive Site (n : Nat) where
  | upper
  | lower
  | ring (row : Nat) (column : ZMod n)

/-- A triangle of a tube whose ends are closed by fans: a part of a fan, or half of a quad. -/
inductive Patch (n : Nat) where
  | upperWedge (column : ZMod n)
  | lowerWedge (column : ZMod n)
  | left (row : Nat) (column : ZMod n)
  | right (row : Nat) (column : ZMod n)

/-- The rows of a tube, of which there is at least one, and how many places each has. -/
structure Tube where
  columns : Nat
  first : Nat
  last : Nat
  three_le : 3 ≤ columns
  first_le : first ≤ last

namespace Tube

open Site Patch

variable (tube : Tube)

def corners : Patch tube.columns → Site tube.columns × Site tube.columns × Site tube.columns
  | upperWedge c => (upper, ring tube.first c, ring tube.first (c + 1))
  | lowerWedge c => (ring tube.last (c + 1), ring tube.last c, lower)
  | left r c => (ring r c, ring (r + 1) c, ring (r + 1) (c + 1))
  | right r c => (ring r c, ring (r + 1) (c + 1), ring r (c + 1))

def cornerList (p : Patch tube.columns) : List (Site tube.columns) :=
  [(tube.corners p).1, (tube.corners p).2.1, (tube.corners p).2.2]

def edges (p : Patch tube.columns) : List (Site tube.columns × Site tube.columns) :=
  cornerEdges (tube.corners p).1 (tube.corners p).2.1 (tube.corners p).2.2

/-- Whether the rows that a patch spans are there. -/
def Holds : Patch tube.columns → Prop
  | upperWedge _ => True
  | lowerWedge _ => True
  | left r _ => tube.first ≤ r ∧ r < tube.last
  | right r _ => tube.first ≤ r ∧ r < tube.last

def IsSide : Patch tube.columns → Prop
  | upperWedge _ => False
  | lowerWedge _ => False
  | left _ _ => True
  | right _ _ => True

def HasSite : Site tube.columns → Prop
  | upper => True
  | lower => True
  | ring r _ => tube.first ≤ r ∧ r ≤ tube.last

def IsRing : Site tube.columns → Prop
  | upper => False
  | lower => False
  | ring _ _ => True

/-- The patch that an edge runs around in this direction. -/
def owner : Site tube.columns × Site tube.columns → Patch tube.columns
  | (upper, ring _ c) => upperWedge c
  | (ring _ c, upper) => upperWedge (c - 1)
  | (lower, ring _ c) => lowerWedge (c - 1)
  | (ring _ c, lower) => lowerWedge c
  | (ring r c, ring s d) =>
    if s = r + 1 then if d = c then left r c else right r c
    else if r = s + 1 then if d = c then right s (c - 1) else left s d
    else if d = c + 1 then if r = tube.first then upperWedge c else left (r - 1) c
    else if r = tube.last then lowerWedge d else right r d
  | _ => upperWedge 0

theorem natCast_ne_zero {k : Nat} (hpos : 0 < k) (hlt : k < tube.columns) :
    (k : ZMod tube.columns) ≠ 0 := by
  intro h
  have := Nat.le_of_dvd hpos ((ZMod.natCast_eq_zero_iff k tube.columns).mp h)
  omega

theorem add_one_ne (c : ZMod tube.columns) : c + 1 ≠ c := by
  have := tube.three_le
  have h := tube.natCast_ne_zero (show 0 < 1 by decide) (by omega)
  rw [Nat.cast_one] at h
  exact add_ne_left.mpr h

theorem add_one_add_one_ne (c : ZMod tube.columns) : c + 1 + 1 ≠ c := by
  have := tube.three_le
  have h := tube.natCast_ne_zero (show 0 < 2 by decide) (by omega)
  rw [Nat.cast_two, ← one_add_one_eq_two] at h
  rw [add_assoc]
  exact add_ne_left.mpr h

/-- An edge runs around one patch only. -/
theorem owner_eq {p : Patch tube.columns} (hp : tube.Holds p) :
    ∀ e ∈ tube.edges p, tube.owner e = p := by
  have h1 := tube.add_one_ne
  have h2 : ∀ c : ZMod tube.columns, c ≠ c + 1 + 1 := fun c => (tube.add_one_add_one_ne c).symm
  cases p with
  | upperWedge c => simp [edges, corners, cornerEdges, owner]
  | lowerWedge c => simp [edges, corners, cornerEdges, owner, h2]
  | left r c =>
    obtain ⟨hfirst, hlast⟩ := hp
    have hr : ¬ r + 1 = tube.first := by omega
    have hs : ¬ r = r + 1 + 1 := by omega
    simp [edges, corners, cornerEdges, owner, hr, hs, (h1 c).symm]
  | right r c =>
    obtain ⟨hfirst, hlast⟩ := hp
    have hr : ¬ r = tube.last := by omega
    have hs : ¬ r = r + 1 + 1 := by omega
    simp [edges, corners, cornerEdges, owner, hr, hs, h1, h2]

theorem fst_ne_snd {p : Patch tube.columns} : ∀ e ∈ tube.edges p, e.1 ≠ e.2 := by
  have h1 := tube.add_one_ne
  cases p <;> simp [edges, corners, cornerEdges, h1, fun c => (h1 c).symm]

theorem nodup_edges (p : Patch tube.columns) : (tube.edges p).Nodup := by
  have h1 := tube.add_one_ne
  cases p <;> simp [edges, corners, cornerEdges, h1, fun c => (h1 c).symm]

/-- Each edge along a row runs around a patch below it. -/
theorem exists_eastward {r : Nat} (hfirst : tube.first ≤ r) (hlast : r ≤ tube.last)
    (c : ZMod tube.columns) :
    ∃ p, tube.Holds p ∧ (ring r c, ring r (c + 1)) ∈ tube.edges p := by
  rcases Nat.lt_or_eq_of_le hfirst with hlt | rfl
  · refine ⟨left (r - 1) c, ⟨by omega, by omega⟩, ?_⟩
    have hr : r - 1 + 1 = r := by omega
    simp [edges, corners, cornerEdges, hr]
  · exact ⟨upperWedge c, trivial, by simp [edges, corners, cornerEdges]⟩

theorem exists_westward {r : Nat} (hfirst : tube.first ≤ r) (hlast : r ≤ tube.last)
    (c : ZMod tube.columns) :
    ∃ p, tube.Holds p ∧ (ring r (c + 1), ring r c) ∈ tube.edges p := by
  rcases Nat.lt_or_eq_of_le hlast with hlt | rfl
  · exact ⟨right r c, ⟨hfirst, hlt⟩, by simp [edges, corners, cornerEdges]⟩
  · exact ⟨lowerWedge c, trivial, by simp [edges, corners, cornerEdges]⟩

/-- On the other side of each edge there is a patch too. -/
theorem exists_swap_mem {p : Patch tube.columns} (hp : tube.Holds p) :
    ∀ e ∈ tube.edges p, ∃ q, tube.Holds q ∧ e.swap ∈ tube.edges q := by
  have hle := tube.first_le
  simp only [edges, cornerEdges, List.forall_mem_cons, List.not_mem_nil, false_imp_iff,
    implies_true, and_true, Prod.swap_prod_mk]
  cases p with
  | upperWedge c =>
    refine ⟨⟨upperWedge (c - 1), trivial, ?_⟩, tube.exists_westward le_rfl hle c,
      ⟨upperWedge (c + 1), trivial, ?_⟩⟩
    · simp [corners]
    · simp [corners]
  | lowerWedge c =>
    refine ⟨tube.exists_eastward hle le_rfl c, ⟨lowerWedge (c - 1), trivial, ?_⟩,
      ⟨lowerWedge (c + 1), trivial, ?_⟩⟩
    · simp [corners]
    · simp [corners]
  | left r c =>
    obtain ⟨hfirst, hlast⟩ := hp
    refine ⟨⟨right r (c - 1), ⟨hfirst, hlast⟩, ?_⟩, tube.exists_westward (by omega) hlast c,
      ⟨right r c, ⟨hfirst, hlast⟩, ?_⟩⟩
    · simp [corners]
    · simp [corners]
  | right r c =>
    obtain ⟨hfirst, hlast⟩ := hp
    refine ⟨⟨left r c, ⟨hfirst, hlast⟩, ?_⟩, ⟨left r (c + 1), ⟨hfirst, hlast⟩, ?_⟩,
      tube.exists_eastward hfirst (by omega) c⟩
    · simp [corners]
    · simp [corners]

theorem eq_of_mem_edges {p q : Patch tube.columns} (hp : tube.Holds p) (hq : tube.Holds q)
    {e : Site tube.columns × Site tube.columns} (hep : e ∈ tube.edges p) (heq : e ∈ tube.edges q) :
    p = q :=
  (tube.owner_eq hp e hep).symm.trans (tube.owner_eq hq e heq)

theorem mem_cornerList_of_mem_edges {p : Patch tube.columns}
    {e : Site tube.columns × Site tube.columns} (he : e ∈ tube.edges p) :
    e.1 ∈ tube.cornerList p ∧ e.2 ∈ tube.cornerList p := by
  simp only [edges, cornerEdges, List.mem_cons, List.not_mem_nil, or_false] at he
  rcases he with rfl | rfl | rfl <;> simp [cornerList]

theorem hasSite_of_holds {p : Patch tube.columns} (hp : tube.Holds p) :
    ∀ s ∈ tube.cornerList p, tube.HasSite s := by
  have hle := tube.first_le
  cases p with
  | upperWedge c => simp [cornerList, corners, HasSite, hle]
  | lowerWedge c => simp [cornerList, corners, HasSite, hle]
  | left r c =>
    obtain ⟨hfirst, hlast⟩ := hp
    simp [cornerList, corners, HasSite]
    omega
  | right r c =>
    obtain ⟨hfirst, hlast⟩ := hp
    simp [cornerList, corners, HasSite]
    omega

theorem isRing_of_isSide {p : Patch tube.columns} (hside : tube.IsSide p) :
    ∀ s ∈ tube.cornerList p, tube.IsRing s := by
  cases p with
  | upperWedge c => exact hside.elim
  | lowerWedge c => exact hside.elim
  | left r c => simp [cornerList, corners, IsRing]
  | right r c => simp [cornerList, corners, IsRing]

theorem exists_mem_cornerList {s : Site tube.columns} (hs : tube.HasSite s) :
    ∃ p, tube.Holds p ∧ s ∈ tube.cornerList p := by
  cases s with
  | upper => exact ⟨upperWedge 0, trivial, by simp [cornerList, corners]⟩
  | lower => exact ⟨lowerWedge 0, trivial, by simp [cornerList, corners]⟩
  | ring r c =>
    obtain ⟨p, hp, he⟩ := tube.exists_eastward hs.1 hs.2 c
    exact ⟨p, hp, (tube.mem_cornerList_of_mem_edges he).1⟩

/-- An edge of the side has nothing beyond it on the side if it runs back along the first row or
forward along the last one. -/
theorem swap_not_mem_side_iff (hlt : tube.first < tube.last)
    (e : Site tube.columns × Site tube.columns) :
    ((∃ p, tube.Holds p ∧ tube.IsSide p ∧ e ∈ tube.edges p) ∧
        ∀ p, tube.Holds p → tube.IsSide p → e.swap ∉ tube.edges p) ↔
      ∃ c, e = (ring tube.first (c + 1), ring tube.first c) ∨
        e = (ring tube.last c, ring tube.last (c + 1)) := by
  constructor
  · rintro ⟨⟨p, hp, hside, he⟩, hopen⟩
    obtain ⟨q, hq, hswap⟩ := tube.exists_swap_mem hp e he
    obtain ⟨a, b⟩ := e
    obtain ⟨ha, hb⟩ := tube.mem_cornerList_of_mem_edges he
    have hra := tube.isRing_of_isSide hside a ha
    have hrb := tube.isRing_of_isSide hside b hb
    cases q with
    | upperWedge c =>
      simp only [edges, corners, cornerEdges, List.mem_cons, List.not_mem_nil, or_false,
        Prod.swap_prod_mk, Prod.mk.injEq] at hswap
      rcases hswap with ⟨rfl, rfl⟩ | ⟨rfl, rfl⟩ | ⟨rfl, rfl⟩
      · exact hrb.elim
      · exact ⟨c, Or.inl rfl⟩
      · exact hra.elim
    | lowerWedge c =>
      simp only [edges, corners, cornerEdges, List.mem_cons, List.not_mem_nil, or_false,
        Prod.swap_prod_mk, Prod.mk.injEq] at hswap
      rcases hswap with ⟨rfl, rfl⟩ | ⟨rfl, rfl⟩ | ⟨rfl, rfl⟩
      · exact ⟨c, Or.inr rfl⟩
      · exact hra.elim
      · exact hrb.elim
    | left r c => exact absurd hswap (hopen _ hq trivial)
    | right r c => exact absurd hswap (hopen _ hq trivial)
  · rintro ⟨c, rfl | rfl⟩
    · have hfan : (ring tube.first c, ring tube.first (c + 1)) ∈ tube.edges (upperWedge c) := by
        simp [edges, corners, cornerEdges]
      refine ⟨⟨right tube.first c, ⟨le_rfl, hlt⟩, trivial, by simp [edges, corners, cornerEdges]⟩,
        ?_⟩
      intro p hp hside he
      have hq : tube.Holds (upperWedge c) := trivial
      cases tube.eq_of_mem_edges hp hq he hfan
      exact hside
    · have hfan : (ring tube.last (c + 1), ring tube.last c) ∈ tube.edges (lowerWedge c) := by
        simp [edges, corners, cornerEdges]
      have hlast : tube.last - 1 + 1 = tube.last := by omega
      refine ⟨⟨left (tube.last - 1) c, ⟨by omega, by omega⟩, trivial,
        by simp [edges, corners, cornerEdges, hlast]⟩, ?_⟩
      intro p hp hside he
      have hq : tube.Holds (lowerWedge c) := trivial
      cases tube.eq_of_mem_edges hp hq he hfan
      exact hside

theorem nodup_flatMap_edges {ps : List (Patch tube.columns)} (hnodup : ps.Nodup)
    (hholds : ∀ p ∈ ps, tube.Holds p) : (ps.flatMap tube.edges).Nodup := by
  rw [List.nodup_flatMap]
  refine ⟨fun p _ => tube.nodup_edges p, ?_⟩
  apply hnodup.imp_of_mem
  intro p q hp hq hne e hep heq
  exact hne (tube.eq_of_mem_edges (hholds p hp) (hholds q hq) hep heq)

def columnList : List (ZMod tube.columns) :=
  (List.range tube.columns).map Nat.cast

def sidePatches : List (Patch tube.columns) :=
  (List.range' tube.first (tube.last - tube.first)).flatMap fun r =>
    tube.columnList.flatMap fun c => [left r c, right r c]

def upperWedges : List (Patch tube.columns) :=
  tube.columnList.map upperWedge

def lowerWedges : List (Patch tube.columns) :=
  tube.columnList.map lowerWedge

theorem mem_columnList (c : ZMod tube.columns) : c ∈ tube.columnList := by
  have := tube.three_le
  have : NeZero tube.columns := ⟨by omega⟩
  exact List.mem_map.mpr ⟨c.val, List.mem_range.mpr c.val_lt, ZMod.natCast_zmod_val c⟩

theorem nodup_columnList : tube.columnList.Nodup := by
  apply List.Nodup.map_on _ List.nodup_range
  intro a ha b hb heq
  have hval := congrArg ZMod.val heq
  rwa [ZMod.val_cast_of_lt (List.mem_range.mp ha), ZMod.val_cast_of_lt (List.mem_range.mp hb)]
    at hval

theorem loopEdges_columnList :
    loopEdges tube.columnList = tube.columnList.map fun c => (c, c + 1) := by
  have hrotate : tube.columnList.rotate 1 = tube.columnList.map (· + 1) := by
    apply List.ext_getElem
    · rw [List.length_rotate, List.length_map]
    · intro k hk hk'
      simp [columnList, List.getElem_rotate]
  have hzip := List.zip_map' (f := id) (g := (· + 1)) (l := tube.columnList)
  rw [List.map_id] at hzip
  rw [loopEdges, hrotate, hzip]
  rfl

theorem mem_sidePatches (p : Patch tube.columns) :
    p ∈ tube.sidePatches ↔ tube.Holds p ∧ tube.IsSide p := by
  have hmem := tube.mem_columnList
  have hle := tube.first_le
  cases p with
  | upperWedge c => simp [sidePatches, IsSide]
  | lowerWedge c => simp [sidePatches, IsSide]
  | left r c =>
    simp [sidePatches, IsSide, Holds, List.mem_range'_1, hmem]
    omega
  | right r c =>
    simp [sidePatches, IsSide, Holds, List.mem_range'_1, hmem]
    omega

theorem nodup_sidePatches : tube.sidePatches.Nodup := by
  rw [sidePatches, List.nodup_flatMap]
  constructor
  · intro r _
    rw [List.nodup_flatMap]
    refine ⟨fun c _ => by simp, ?_⟩
    apply tube.nodup_columnList.imp
    intro c d hne p hc hd
    simp only [List.mem_cons, List.not_mem_nil, or_false] at hc hd
    rcases hc with rfl | rfl <;> simp [hne] at hd
  · apply (List.nodup_range' 1).imp
    intro r s hne p hr hs
    obtain ⟨c, -, hc⟩ := List.mem_flatMap.mp hr
    obtain ⟨d, -, hd⟩ := List.mem_flatMap.mp hs
    simp only [List.mem_cons, List.not_mem_nil, or_false] at hc hd
    rcases hc with rfl | rfl <;> simp [hne] at hd

def closedPatches : List (Patch tube.columns) :=
  tube.upperWedges ++ tube.sidePatches ++ tube.lowerWedges

theorem mem_closedPatches (p : Patch tube.columns) : p ∈ tube.closedPatches ↔ tube.Holds p := by
  have hmem := tube.mem_columnList
  have hside := tube.mem_sidePatches p
  cases p <;> simp_all [closedPatches, upperWedges, lowerWedges, Holds, IsSide]

theorem nodup_closedPatches : tube.closedPatches.Nodup := by
  have hupper : tube.upperWedges.Nodup :=
    tube.nodup_columnList.map fun c d h => by cases h; rfl
  have hlower : tube.lowerWedges.Nodup :=
    tube.nodup_columnList.map fun c d h => by cases h; rfl
  refine (hupper.append tube.nodup_sidePatches ?_).append hlower ?_
  · intro p hp hs
    obtain ⟨c, -, rfl⟩ := List.mem_map.mp hp
    exact ((tube.mem_sidePatches _).mp hs).2
  · intro p hp hl
    obtain ⟨c, -, rfl⟩ := List.mem_map.mp hl
    rcases List.mem_append.mp hp with hu | hs
    · obtain ⟨d, -, hd⟩ := List.mem_map.mp hu
      cases hd
    · exact ((tube.mem_sidePatches _).mp hs).2

theorem length_sidePatches :
    tube.sidePatches.length = 2 * ((tube.last - tube.first) * tube.columns) := by
  have hrow (r : Nat) : (tube.columnList.flatMap fun c => [left r c, right r c]).length =
      tube.columns * 2 := by
    simp [List.length_flatMap, columnList, List.map_const', Function.comp_def]
  simp only [sidePatches, List.length_flatMap, hrow, List.map_const', List.length_range',
    List.sum_replicate_nat]
  ring

theorem length_closedPatches :
    tube.closedPatches.length = 2 * ((tube.last - tube.first + 1) * tube.columns) := by
  simp only [closedPatches, List.length_append, length_sidePatches, upperWedges, lowerWedges,
    List.length_map, columnList, List.length_range]
  ring

end Tube

end Facet
