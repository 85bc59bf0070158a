import Facet.Mesh
import Mathlib.Data.List.Rotate
import Mathlib.Data.Sym.Sym2
import Mathlib.Data.Finset.Card
import Mathlib.Algebra.BigOperators.Group.Finset.Basic
import Mathlib.Algebra.Order.BigOperators.Group.Finset

namespace Facet

/-- The edges of a triangle, each in the direction in which the corners run. -/
def cornerEdges {α : Type} (a b c : α) : List (α × α) :=
  [(a, b), (b, c), (c, a)]

def Triangle.edges (t : Triangle) : List (UInt32 × UInt32) :=
  cornerEdges t.a t.b t.c

def Mesh.directedEdges (m : Mesh) : List (UInt32 × UInt32) :=
  m.triangles.toList.flatMap Triangle.edges

/-- The directed edges whose reverse is no edge. -/
def Mesh.boundary (m : Mesh) : List (UInt32 × UInt32) :=
  m.directedEdges.filter fun e => e.swap ∉ m.directedEdges

/-- The edges that run through the vertices in order and from the last one back to the first. -/
def loopEdges {α : Type} (vs : List α) : List (α × α) :=
  vs.zip (vs.rotate 1)

/-- Each directed edge is there exactly once, and so is its reverse. -/
def Mesh.IsClosed (m : Mesh) : Prop :=
  ∀ e ∈ m.directedEdges, m.directedEdges.count e = 1 ∧ m.directedEdges.count e.swap = 1

def Mesh.undirectedEdges (m : Mesh) : Finset (Sym2 UInt32) :=
  (m.directedEdges.map fun e => s(e.1, e.2)).toFinset

/-- Vertices less edges plus triangles. -/
def Mesh.eulerCharacteristic (m : Mesh) : Int :=
  m.vertices.size - m.undirectedEdges.card + m.triangles.size

section Loops

variable {α : Type} {vs ws : List α}

theorem map_fst_loopEdges (vs : List α) : (loopEdges vs).map Prod.fst = vs :=
  List.map_fst_zip (by rw [List.length_rotate])

theorem length_loopEdges (vs : List α) : (loopEdges vs).length = vs.length := by
  rw [loopEdges, List.length_zip, List.length_rotate, Nat.min_self]

theorem loopEdges_map {β : Type} (f : α → β) (vs : List α) :
    loopEdges (vs.map f) = (loopEdges vs).map (Prod.map f f) := by
  rw [loopEdges, ← List.map_rotate, List.zip_map]
  rfl

theorem mem_of_mem_loopEdges {e : α × α} (he : e ∈ loopEdges vs) : e.1 ∈ vs ∧ e.2 ∈ vs := by
  obtain ⟨h₁, h₂⟩ := List.of_mem_zip (show (e.1, e.2) ∈ _ from he)
  exact ⟨h₁, List.mem_rotate.mp h₂⟩

/-- Two loops with no vertex in common, one of them run through backward, have no edge in common. -/
theorem nodup_swap_loopEdges_append (hnodup : (vs ++ ws).Nodup) :
    ((loopEdges vs).map Prod.swap ++ loopEdges ws).Nodup := by
  obtain ⟨hvs, hws, hdisjoint⟩ := List.nodup_append'.mp hnodup
  have hloop {us : List α} (hus : us.Nodup) : (loopEdges us).Nodup := by
    apply List.Nodup.of_map Prod.fst
    rwa [map_fst_loopEdges]
  refine ((hloop hvs).map Prod.swap_injective).append (hloop hws) ?_
  intro e he hf
  obtain ⟨f, hmem, rfl⟩ := List.mem_map.mp he
  exact hdisjoint (mem_of_mem_loopEdges hmem).2 (mem_of_mem_loopEdges hf).1

end Loops

section Counting

variable {α : Type} [DecidableEq α]

theorem filter_mk_eq {edges : Finset (α × α)} (hswap : ∀ e ∈ edges, e.swap ∈ edges) {e : α × α}
    (he : e ∈ edges) :
    edges.filter (fun x => s(x.1, x.2) = s(e.1, e.2)) = {e, e.swap} := by
  ext x
  rw [Finset.mem_filter, Finset.mem_insert, Finset.mem_singleton]
  constructor
  · rintro ⟨-, hx⟩
    exact (Sym2.mk_eq_mk_iff (p := x) (q := e)).mp hx
  · rintro (rfl | rfl)
    · exact ⟨he, rfl⟩
    · exact ⟨hswap e he, Sym2.eq_swap⟩

/-- Where every edge is there in both directions, there are two of them for each undirected one. -/
theorem card_of_swap_mem {edges : Finset (α × α)} (hswap : ∀ e ∈ edges, e.swap ∈ edges)
    (hne : ∀ e ∈ edges, e.1 ≠ e.2) :
    edges.card = 2 * (edges.image fun e => s(e.1, e.2)).card := by
  have hfiber : ∀ q ∈ edges.image (fun e => s(e.1, e.2)),
      (edges.filter fun x => s(x.1, x.2) = q).card = 2 := by
    intro q hq
    obtain ⟨e, he, rfl⟩ := Finset.mem_image.mp hq
    rw [filter_mk_eq hswap he, Finset.card_pair]
    intro heq
    exact hne e he (congrArg Prod.fst heq)
  rw [Finset.card_eq_sum_card_image (fun e => s(e.1, e.2)) edges, Finset.sum_congr rfl hfiber,
    Finset.sum_const, smul_eq_mul, Nat.mul_comm]

/-- The edges whose reverse is missing are counted once more to get two for each undirected edge. -/
theorem two_mul_card_undirected {edges : Finset (α × α)} (hne : ∀ e ∈ edges, e.1 ≠ e.2) :
    2 * (edges.image fun e => s(e.1, e.2)).card =
      edges.card + (edges.filter fun e => e.swap ∉ edges).card := by
  let back := (edges.filter fun e => e.swap ∉ edges).image Prod.swap
  have hback (e : α × α) : e ∈ back ↔ e.swap ∈ edges ∧ e ∉ edges := by
    constructor
    · intro he
      obtain ⟨x, hx, rfl⟩ := Finset.mem_image.mp he
      rw [Prod.swap_swap]
      exact Finset.mem_filter.mp hx
    · intro he
      exact Finset.mem_image.mpr ⟨e.swap, Finset.mem_filter.mpr (by rwa [Prod.swap_swap]),
        Prod.swap_swap e⟩
  have hdisjoint : Disjoint edges back :=
    Finset.disjoint_left.mpr fun e he hb => ((hback e).mp hb).2 he
  have hswap : ∀ e ∈ edges ∪ back, e.swap ∈ edges ∪ back := by
    intro e he
    rw [Finset.mem_union, hback, Prod.swap_swap]
    rcases Finset.mem_union.mp he with he | he
    · by_cases hs : e.swap ∈ edges
      · exact Or.inl hs
      · exact Or.inr ⟨he, hs⟩
    · exact Or.inl ((hback e).mp he).1
  have hne' : ∀ e ∈ edges ∪ back, e.1 ≠ e.2 := by
    intro e he
    rcases Finset.mem_union.mp he with he | he
    · exact hne e he
    · exact (hne e.swap ((hback e).mp he).1).symm
  have himage : (edges ∪ back).image (fun e => s(e.1, e.2)) = edges.image fun e => s(e.1, e.2) := by
    rw [Finset.image_union, Finset.union_eq_left]
    intro q hq
    obtain ⟨e, he, rfl⟩ := Finset.mem_image.mp hq
    exact Finset.mem_image.mpr ⟨e.swap, ((hback e).mp he).1, Sym2.eq_swap⟩
  rw [← himage, ← card_of_swap_mem hswap hne', Finset.card_union_of_disjoint hdisjoint,
    Finset.card_image_of_injective _ Prod.swap_injective]

end Counting

theorem Mesh.isClosed_of_swap_mem {m : Mesh} (hnodup : m.directedEdges.Nodup)
    (hswap : ∀ e ∈ m.directedEdges, e.swap ∈ m.directedEdges) : m.IsClosed := by
  intro e he
  exact ⟨List.count_eq_one_of_mem hnodup he, List.count_eq_one_of_mem hnodup (hswap e he)⟩

theorem Mesh.IsClosed.boundary_eq_nil {m : Mesh} (h : m.IsClosed) : m.boundary = [] := by
  rw [boundary, List.filter_eq_nil_iff]
  intro e he
  have hmem : e.swap ∈ m.directedEdges := List.count_pos_iff.mp (by rw [(h e he).2]; decide)
  simpa using hmem

theorem length_directedEdges (m : Mesh) : m.directedEdges.length = 3 * m.triangles.size := by
  rw [Mesh.directedEdges, List.length_flatMap, ← Array.length_toList]
  induction m.triangles.toList with
  | nil => rfl
  | cons t ts ih =>
    rw [List.map_cons, List.sum_cons, ih, List.length_cons]
    simp only [Triangle.edges, cornerEdges, List.length_cons, List.length_nil]
    omega

theorem two_mul_card_undirectedEdges {m : Mesh} (hnodup : m.directedEdges.Nodup)
    (hne : ∀ e ∈ m.directedEdges, e.1 ≠ e.2) :
    2 * m.undirectedEdges.card = 3 * m.triangles.size + m.boundary.length := by
  have himage : m.undirectedEdges = m.directedEdges.toFinset.image fun e => s(e.1, e.2) := by
    ext q
    simp [Mesh.undirectedEdges]
  have hboundary : m.directedEdges.toFinset.filter (fun e => e.swap ∉ m.directedEdges.toFinset) =
      m.boundary.toFinset := by
    ext e
    simp [Mesh.boundary]
  have hboundaryNodup : m.boundary.Nodup := hnodup.filter _
  rw [himage, two_mul_card_undirected fun e he => hne e (List.mem_toFinset.mp he), hboundary,
    List.toFinset_card_of_nodup hnodup, List.toFinset_card_of_nodup hboundaryNodup,
    length_directedEdges]

/-- The Euler characteristic told without the edges: they follow from the triangles and from the
boundary. -/
theorem two_mul_eulerCharacteristic {m : Mesh} (hnodup : m.directedEdges.Nodup)
    (hne : ∀ e ∈ m.directedEdges, e.1 ≠ e.2) :
    2 * m.eulerCharacteristic =
      2 * (m.vertices.size : Int) - m.triangles.size - m.boundary.length := by
  have hedges := two_mul_card_undirectedEdges hnodup hne
  rw [Mesh.eulerCharacteristic]
  omega

end Facet
