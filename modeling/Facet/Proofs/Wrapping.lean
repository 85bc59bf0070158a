import Facet.Proofs.TubeMesh

namespace Facet

/-- A mesh whose triangles are patches of a tube, no two of whose corners got the same number. -/
structure Wrapping (tube : Tube) (m : Mesh) where
  place : Site tube.columns → UInt32
  patches : List (Patch tube.columns)
  triangles_eq : m.triangles.toList = patches.map (tube.triangle place)
  nodup : patches.Nodup
  holds : ∀ p ∈ patches, tube.Holds p
  injOn : Set.InjOn place {s | ∃ p ∈ patches, s ∈ tube.cornerList p}

namespace Wrapping

open Site

variable {tube : Tube} {m : Mesh} (w : Wrapping tube m)

def edges : List (Site tube.columns × Site tube.columns) :=
  w.patches.flatMap tube.edges

theorem mem_edges {e : Site tube.columns × Site tube.columns} :
    e ∈ w.edges ↔ ∃ p ∈ w.patches, e ∈ tube.edges p :=
  List.mem_flatMap

theorem directedEdges_eq : m.directedEdges = w.edges.map (Prod.map w.place w.place) := by
  rw [Mesh.directedEdges, w.triangles_eq, edges, List.flatMap_map, List.map_flatMap]
  rfl

theorem size_triangles : m.triangles.size = w.patches.length := by
  rw [← Array.length_toList, w.triangles_eq, List.length_map]

theorem eq_of_place_eq {e f : Site tube.columns × Site tube.columns} (he : e ∈ w.edges)
    (hf : f ∈ w.edges) {a b : Site tube.columns} (ha : a = e.1 ∨ a = e.2) (hb : b = f.1 ∨ b = f.2)
    (h : w.place a = w.place b) : a = b := by
  obtain ⟨p, hp, hep⟩ := w.mem_edges.mp he
  obtain ⟨q, hq, hfq⟩ := w.mem_edges.mp hf
  obtain ⟨he₁, he₂⟩ := tube.mem_cornerList_of_mem_edges hep
  obtain ⟨hf₁, hf₂⟩ := tube.mem_cornerList_of_mem_edges hfq
  refine w.injOn ⟨p, hp, ?_⟩ ⟨q, hq, ?_⟩ h
  · rcases ha with rfl | rfl
    · exact he₁
    · exact he₂
  · rcases hb with rfl | rfl
    · exact hf₁
    · exact hf₂

include w in
theorem nodup_directedEdges : m.directedEdges.Nodup := by
  rw [w.directedEdges_eq]
  apply List.Nodup.map_on _ (tube.nodup_flatMap_edges w.nodup w.holds)
  intro e he f hf h
  exact Prod.ext (w.eq_of_place_eq he hf (Or.inl rfl) (Or.inl rfl) (congrArg Prod.fst h))
    (w.eq_of_place_eq he hf (Or.inr rfl) (Or.inr rfl) (congrArg Prod.snd h))

include w in
theorem fst_ne_snd : ∀ e ∈ m.directedEdges, e.1 ≠ e.2 := by
  rw [w.directedEdges_eq]
  intro e he h
  obtain ⟨f, hf, rfl⟩ := List.mem_map.mp he
  obtain ⟨p, -, hfp⟩ := w.mem_edges.mp hf
  exact tube.fst_ne_snd f hfp (w.eq_of_place_eq hf hf (Or.inl rfl) (Or.inr rfl) h)

theorem swap_mem_iff {e : Site tube.columns × Site tube.columns} (he : e ∈ w.edges) :
    (Prod.map w.place w.place e).swap ∈ m.directedEdges ↔ e.swap ∈ w.edges := by
  rw [w.directedEdges_eq, List.mem_map]
  constructor
  · rintro ⟨f, hf, h⟩
    have hswap : f = e.swap := Prod.ext
      (w.eq_of_place_eq hf he (Or.inl rfl) (Or.inr rfl) (congrArg Prod.fst h))
      (w.eq_of_place_eq hf he (Or.inr rfl) (Or.inl rfl) (congrArg Prod.snd h))
    rwa [← hswap]
  · intro hs
    exact ⟨e.swap, hs, rfl⟩

/-- With all patches of the tube the surface is closed. -/
theorem isClosed (hall : ∀ p, tube.Holds p → p ∈ w.patches) : m.IsClosed := by
  apply Mesh.isClosed_of_swap_mem w.nodup_directedEdges
  intro e he
  rw [w.directedEdges_eq] at he
  obtain ⟨f, hf, rfl⟩ := List.mem_map.mp he
  rw [w.swap_mem_iff hf, w.mem_edges]
  obtain ⟨p, hp, hfp⟩ := w.mem_edges.mp hf
  obtain ⟨q, hq, hswap⟩ := tube.exists_swap_mem (w.holds p hp) f hfp
  exact ⟨q, hall q hq, hswap⟩

/-- With the side alone it is open along the first row and along the last one. -/
theorem mem_boundary_iff (hside : ∀ p, p ∈ w.patches ↔ tube.Holds p ∧ tube.IsSide p)
    (hlt : tube.first < tube.last) (e : UInt32 × UInt32) :
    e ∈ m.boundary ↔ ∃ c,
      e = (w.place (ring tube.first (c + 1)), w.place (ring tube.first c)) ∨
        e = (w.place (ring tube.last c), w.place (ring tube.last (c + 1))) := by
  have hmem (f : Site tube.columns × Site tube.columns) :
      f ∈ w.edges ↔ ∃ p, tube.Holds p ∧ tube.IsSide p ∧ f ∈ tube.edges p := by
    simp only [w.mem_edges, hside, and_assoc]
  have hopen (f : Site tube.columns × Site tube.columns) :
      (f ∈ w.edges ∧ f.swap ∉ w.edges) ↔ ∃ c,
        f = (ring tube.first (c + 1), ring tube.first c) ∨
          f = (ring tube.last c, ring tube.last (c + 1)) := by
    rw [← tube.swap_not_mem_side_iff hlt f, hmem, hmem]
    simp only [not_exists, not_and]
  have hboundary : e ∈ m.boundary ↔
      ∃ f, (f ∈ w.edges ∧ f.swap ∉ w.edges) ∧ Prod.map w.place w.place f = e := by
    rw [Mesh.boundary, List.mem_filter, decide_eq_true_eq]
    constructor
    · rintro ⟨he, hswap⟩
      rw [w.directedEdges_eq] at he
      obtain ⟨f, hf, rfl⟩ := List.mem_map.mp he
      exact ⟨f, ⟨hf, (w.swap_mem_iff hf).not.mp hswap⟩, rfl⟩
    · rintro ⟨f, ⟨hf, hswap⟩, rfl⟩
      refine ⟨?_, (w.swap_mem_iff hf).not.mpr hswap⟩
      rw [w.directedEdges_eq]
      exact List.mem_map_of_mem hf
  rw [hboundary]
  constructor
  · rintro ⟨f, hf, rfl⟩
    obtain ⟨c, rfl | rfl⟩ := (hopen f).mp hf
    · exact ⟨c, Or.inl rfl⟩
    · exact ⟨c, Or.inr rfl⟩
  · rintro ⟨c, rfl | rfl⟩
    · exact ⟨_, (hopen _).mpr ⟨c, Or.inl rfl⟩, rfl⟩
    · exact ⟨_, (hopen _).mpr ⟨c, Or.inr rfl⟩, rfl⟩

end Wrapping

end Facet
