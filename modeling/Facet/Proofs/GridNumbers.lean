import Facet.Proofs.Wrapping

namespace Facet

section Checked

-- The operations of numbers in 32 bits, which fail where the machine's own would wrap around.

/-- The number in 32 bits, if it fits. -/
def fitted (n : Nat) : Option UInt32 :=
  if n < 2 ^ 32 then some (UInt32.ofNat n) else none

def addChecked (a b : UInt32) : Option UInt32 :=
  fitted (a.toNat + b.toNat)

def mulChecked (a b : UInt32) : Option UInt32 :=
  fitted (a.toNat * b.toNat)

def subChecked (a b : UInt32) : Option UInt32 :=
  if b ≤ a then some (a - b) else none

def modChecked (a b : UInt32) : Option UInt32 :=
  if b = 0 then none else some (a % b)

/-- The count in 64 bits, which stays at the largest of them if it does not fit. -/
def saturated (n : Nat) : Nat :=
  min n (2 ^ 64 - 1)

variable {a b : UInt32}

theorem fitted_eq {n : Nat} (h : n < 2 ^ 32) : fitted n = some (UInt32.ofNat n) :=
  if_pos h

/-- A sum that fits is the wrapped one, and its value is the sum of the values. -/
theorem addChecked_exact {m n : Nat} (ha : a.toNat = m) (hb : b.toNat = n)
    (h : m + n < 2 ^ 32) : addChecked a b = some (a + b) ∧ (a + b).toNat = m + n := by
  subst ha hb
  rw [addChecked, fitted_eq h, UInt32.ofNat_add, UInt32.ofNat_toNat, UInt32.ofNat_toNat,
    UInt32.toNat_add, Nat.mod_eq_of_lt h]
  exact ⟨rfl, rfl⟩

theorem mulChecked_exact {m n : Nat} (ha : a.toNat = m) (hb : b.toNat = n)
    (h : m * n < 2 ^ 32) : mulChecked a b = some (a * b) ∧ (a * b).toNat = m * n := by
  subst ha hb
  rw [mulChecked, fitted_eq h, UInt32.ofNat_mul, UInt32.ofNat_toNat, UInt32.ofNat_toNat,
    UInt32.toNat_mul, Nat.mod_eq_of_lt h]
  exact ⟨rfl, rfl⟩

theorem subChecked_one (h : 1 ≤ a.toNat) :
    subChecked a 1 = some (a - 1) ∧ (a - 1).toNat = a.toNat - 1 := by
  have hone : (1 : UInt32) ≤ a := UInt32.le_iff_toNat_le.mpr h
  rw [subChecked, if_pos hone]
  exact ⟨rfl, toNat_sub_one h⟩

theorem modChecked_eq (h : 0 < b.toNat) : modChecked a b = some (a % b) :=
  if_neg (UInt32.pos_iff_ne_zero.mp h)

theorem saturated_of_lt {n : Nat} (h : n < 2 ^ 64) : saturated n = n :=
  Nat.min_eq_left (Nat.le_sub_one_of_lt h)

end Checked

section Rows

theorem mem_indicesBelow {n i : UInt32} (h : i ∈ indicesBelow n) : i.toNat < n.toNat := by
  obtain ⟨k, hk, rfl⟩ := List.mem_map.mp h
  have hlt := List.mem_range.mp hk
  have hsize := n.toNat_lt
  rwa [UInt32.toNat_ofNat_of_lt' (show k < 2 ^ 32 by omega)]

theorem getElem?_indicesBelow {n : UInt32} {i : Nat} (h : i < n.toNat) :
    (indicesBelow n)[i]? = some (UInt32.ofNat i) := by
  rw [indicesBelow, List.getElem?_map, List.getElem?_range h]
  rfl

/-- Row after row, all of the same length. -/
theorem getElem?_flatMap {α β : Type} {f : α → List β} {n : Nat}
    (hlength : ∀ row, (f row).length = n) (rows : List α) (r : Nat) {c : Nat} (hc : c < n) :
    (rows.flatMap f)[r * n + c]? = rows[r]?.bind fun row => (f row)[c]? := by
  induction rows generalizing r with
  | nil => rfl
  | cons row rest ih =>
    rw [List.flatMap_cons]
    cases r with
    | zero =>
      rw [Nat.zero_mul, Nat.zero_add, List.getElem?_append_left (by rwa [hlength])]
      rfl
    | succ r =>
      have hoffset : (r + 1) * n + c = n + (r * n + c) := by
        rw [Nat.succ_mul]
        omega
      rw [List.getElem?_append_right (by rw [hlength]; omega), hlength, hoffset,
        Nat.add_sub_cancel_left, ih]
      rfl

theorem getElem?_flatMap_indicesBelow {α : Type} {f : UInt32 → UInt32 → α} {rows : List UInt32}
    {r : Nat} {row n : UInt32} (hrow : rows[r]? = some row) (column : UInt32) (hn : 0 < n.toNat) :
    (rows.flatMap fun row => (indicesBelow n).map (f row))[r * n.toNat + column.toNat % n.toNat]? =
      some (f row (column % n)) := by
  have hlt := Nat.mod_lt column.toNat hn
  rw [getElem?_flatMap (fun row => length_map_indicesBelow n (f row)) rows r hlt, hrow,
    Option.bind_some, List.getElem?_map, getElem?_indicesBelow hlt, ← UInt32.toNat_mod,
    UInt32.ofNat_toNat]
  rfl

theorem row_add_lt {r rows n c : Nat} (hr : r < rows) (hc : c < n) : r * n + c < rows * n := by
  calc
    r * n + c < (r + 1) * n := by
      rw [Nat.succ_mul]
      omega
    _ ≤ rows * n := Nat.mul_le_mul_right n hr

theorem mapM_eq_some {α β : Type} {f? : α → Option β} {f : α → β} {xs : List α}
    (h : ∀ x ∈ xs, f? x = some (f x)) : xs.mapM f? = some (xs.map f) := by
  induction xs with
  | nil => rfl
  | cons x rest ih =>
    obtain ⟨hx, hrest⟩ := List.forall_mem_cons.mp h
    rw [List.mapM_cons, hx, ih hrest]
    rfl

end Rows

section Quads

variable (index? : UInt32 → UInt32 → Option UInt32)

def quad? (row column : UInt32) : Option (List Triangle) := do
  let here ← index? row column
  let next ← index? row (← addChecked column 1)
  let below ← index? (← addChecked row 1) column
  let belowNext ← index? (← addChecked row 1) (← addChecked column 1)
  return [⟨here, below, belowNext⟩, ⟨here, belowNext, next⟩]

def quads? (rows : List UInt32) (n : UInt32) : Option (List Triangle) := do
  let quads ← rows.mapM fun row => (indicesBelow n).mapM (quad? index? row)
  return quads.flatten.flatten

def upperFan? (apex row n : UInt32) : Option (List Triangle) :=
  (indicesBelow n).mapM fun column => do
    return ⟨apex, ← index? row column, ← index? row (← addChecked column 1)⟩

def lowerFan? (apex row n : UInt32) : Option (List Triangle) :=
  (indicesBelow n).mapM fun column => do
    return ⟨← index? row (← addChecked column 1), ← index? row column, apex⟩

variable {index?} {index : UInt32 → UInt32 → UInt32}

theorem addChecked_column {n column : UInt32} (h : column ∈ indicesBelow n) :
    addChecked column 1 = some (column + 1) := by
  have hlt := mem_indicesBelow h
  have hsize := n.toNat_lt
  exact (addChecked_exact rfl UInt32.toNat_one (by omega)).1

theorem quads?_eq {rows : List UInt32} (n : UInt32)
    (hrows : ∀ row ∈ rows, row.toNat + 1 < 2 ^ 32 ∧ ∀ column,
      index? row column = some (index row column) ∧
        index? (row + 1) column = some (index (row + 1) column)) :
    quads? index? rows n =
      some (rows.flatMap fun row => (indicesBelow n).flatMap (quad index row)) := by
  have hquads : ∀ row ∈ rows, (indicesBelow n).mapM (quad? index? row) =
      some ((indicesBelow n).map (quad index row)) := by
    intro row hrow
    obtain ⟨hlt, hindex⟩ := hrows row hrow
    have hnext : addChecked row 1 = some (row + 1) :=
      (addChecked_exact rfl UInt32.toNat_one hlt).1
    refine mapM_eq_some fun column hcolumn => ?_
    simp only [quad?, addChecked_column hcolumn, hnext, (hindex _).1, (hindex _).2,
      Option.bind_eq_bind, Option.bind_some, Option.pure_def, quad]
  rw [quads?, mapM_eq_some hquads, Option.bind_eq_bind, Option.bind_some, List.flatten_flatten,
    List.map_map]
  rfl

theorem upperFan?_eq (apex n : UInt32) {row : UInt32}
    (hindex : ∀ column, index? row column = some (index row column)) :
    upperFan? index? apex row n = some ((indicesBelow n).map (upperFan index apex row)) :=
  mapM_eq_some fun column hcolumn => by
    simp only [addChecked_column hcolumn, hindex, Option.bind_eq_bind, Option.bind_some,
      Option.pure_def, upperFan]

theorem lowerFan?_eq (apex n : UInt32) {row : UInt32}
    (hindex : ∀ column, index? row column = some (index row column)) :
    lowerFan? index? apex row n = some ((indicesBelow n).map (lowerFan index apex row)) :=
  mapM_eq_some fun column hcolumn => by
    simp only [addChecked_column hcolumn, hindex, Option.bind_eq_bind, Option.bind_some,
      Option.pure_def, lowerFan]

end Quads

namespace Wrapping

variable {tube : Tube} {m : Mesh} (w : Wrapping tube m)

include w in
theorem nodup_toList {f : Triangle} (hf : f ∈ m.triangles) : f.toList.Nodup := by
  have hne : ∀ e ∈ f.edges, e.1 ≠ e.2 := fun e he =>
    w.fst_ne_snd e (List.mem_flatMap.mpr ⟨f, Array.mem_toList_iff.mpr hf, he⟩)
  simp only [Triangle.edges, cornerEdges, List.forall_mem_cons] at hne
  obtain ⟨hab, hbc, hca, -⟩ := hne
  simp [Triangle.toList, hab, hbc, Ne.symm hca]

theorem corners {n : Nat}
    (hplace : ∀ p ∈ w.patches, ∀ s ∈ tube.cornerList p, (w.place s).toNat < n) {f : Triangle}
    (hf : f ∈ m.triangles) : f.toList.Nodup ∧ ∀ i ∈ f.toList, i.toNat < n := by
  refine ⟨w.nodup_toList hf, ?_⟩
  rw [← Array.mem_toList_iff, w.triangles_eq] at hf
  obtain ⟨p, hp, rfl⟩ := List.mem_map.mp hf
  intro i hi
  obtain ⟨s, hs, rfl⟩ := List.mem_map.mp (show i ∈ (tube.cornerList p).map w.place from hi)
  exact hplace p hp s hs

end Wrapping

end Facet
