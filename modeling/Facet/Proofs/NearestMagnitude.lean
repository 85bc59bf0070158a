import Facet.Binary64
import Mathlib

namespace Facet

theorem significand_eq (bits : Nat) :
    significand bits = if bits < 2 ^ 52 then bits else 2 ^ 52 + bits % 2 ^ 52 :=
  rfl

theorem significand_pos {bits : Nat} (h : 0 < bits) : 0 < significand bits := by
  rw [significand_eq]
  split <;> omega

/-- Only what is not doubled may lack digits. -/
theorem two_pow_le_significand {bits : Nat} (h : doublings bits ≠ 0) :
    2 ^ 52 ≤ significand bits := by
  rw [doublings, Nat.shiftRight_eq_div_pow] at h
  rw [significand_eq, if_neg (by omega)]
  omega

theorem units_eq (bits : Nat) : units bits = significand bits * 2 ^ doublings bits :=
  Nat.shiftLeft_eq ..

theorem units_zero : units 0 = 0 := by
  decide

theorem floorBits_eq (u : Nat) :
    floorBits u = (u.log2 - 52) * 2 ^ 52 + u / 2 ^ (u.log2 - 52) := by
  rw [floorBits, Nat.shiftLeft_eq, Nat.shiftRight_eq_div_pow]

theorem doublings_eq_log2 {bits : Nat} (h : 0 < bits) :
    doublings bits = (units bits).log2 - 52 := by
  have hsig : bits < 2 ^ 52 ∨ significand bits = 2 ^ 52 + bits % 2 ^ 52 := by
    rw [significand_eq]
    split
    next h => exact Or.inl h
    next => exact Or.inr rfl
  rcases hsig with hsmall | hsig
  · have hd : doublings bits = 0 := by unfold doublings; omega
    have hs : significand bits = bits := if_pos hsmall
    have hlog := (Nat.log2_lt (by omega)).mpr hsmall
    simp only [units_eq, hd, hs, Nat.pow_zero, Nat.mul_one]
    omega
  · have hpos := Nat.two_pow_pos (doublings bits)
    have hne : units bits ≠ 0 := by
      rw [units_eq]
      exact Nat.mul_ne_zero (by omega) (by omega)
    have hlog : (units bits).log2 = 52 + doublings bits := by
      rw [Nat.log2_eq_iff hne]
      have hlt : bits % 2 ^ 52 < 2 ^ 52 := Nat.mod_lt _ (by decide)
      rw [units_eq, hsig, Nat.pow_add, show 52 + doublings bits + 1 = 53 + doublings bits by omega,
        Nat.pow_add]
      constructor
      · exact Nat.mul_le_mul_right _ (by omega)
      · exact Nat.mul_lt_mul_of_pos_right (by omega) hpos
    omega

/-- A magnitude is the largest that is at most its own value. -/
theorem floorBits_units (bits : Nat) : floorBits (units bits) = bits := by
  rcases Nat.eq_zero_or_pos bits with rfl | hpos
  · rfl
  · rw [floorBits_eq, ← doublings_eq_log2 hpos, units_eq, Nat.mul_div_cancel _ (Nat.two_pow_pos _)]
    rw [doublings, significand_eq]
    split <;> omega

theorem units_lt_succ (bits : Nat) : units bits < units (bits + 1) := by
  by_cases hsame : doublings (bits + 1) = doublings bits
  · rw [units_eq, units_eq, hsame]
    apply Nat.mul_lt_mul_of_pos_right _ (Nat.two_pow_pos _)
    unfold doublings at hsame
    rw [significand_eq, significand_eq]
    split <;> split <;> omega
  · have hnext : doublings (bits + 1) = doublings bits + 1 := by
      unfold doublings at *
      omega
    have hlow : significand bits < 2 ^ 53 := by
      rw [significand_eq]
      split <;> omega
    have hhigh : 2 ^ 52 ≤ significand (bits + 1) := by
      unfold doublings at hnext
      rw [significand_eq]
      split <;> omega
    have hpos := Nat.two_pow_pos (doublings bits)
    calc
      units bits = significand bits * 2 ^ doublings bits := units_eq bits
      _ < 2 ^ 53 * 2 ^ doublings bits := Nat.mul_lt_mul_of_pos_right hlow hpos
      _ = 2 ^ 52 * 2 ^ doublings (bits + 1) := by rw [hnext, Nat.pow_succ]; omega
      _ ≤ significand (bits + 1) * 2 ^ doublings (bits + 1) := Nat.mul_le_mul_right _ hhigh
      _ = units (bits + 1) := (units_eq _).symm

theorem strictMono_units : StrictMono units :=
  strictMono_nat_of_lt_succ units_lt_succ

/-- A fraction rounds the same in any form. -/
theorem nearestBits_scaled {k : Nat} (hk : 0 < k) (num den : Nat) :
    nearestBits (num * k) (den * k) = nearestBits num den := by
  have hmiddle (a : Nat) : (2 * (num * k) < a * (den * k) ↔ 2 * num < a * den) ∧
      (a * (den * k) < 2 * (num * k) ↔ a * den < 2 * num) := by
    rw [← Nat.mul_assoc, ← Nat.mul_assoc]
    exact ⟨Nat.mul_lt_mul_right hk, Nat.mul_lt_mul_right hk⟩
  simp only [nearestBits, Nat.mul_div_mul_right num den hk, hmiddle]

theorem nearestBits_units {bits den : Nat} (hb : bits ≤ infinityBits) (hden : 0 < den) :
    nearestBits (units bits * den) den = bits := by
  have hlow : floorBits (units bits * den / den) = bits := by
    rw [Nat.mul_div_cancel _ hden, floorBits_units]
  have hbelow : 2 * (units bits * den) < (units bits + units (bits + 1)) * den := by
    have := Nat.mul_lt_mul_of_pos_right (units_lt_succ bits) hden
    rw [Nat.add_mul]
    omega
  simp only [nearestBits, hlow, if_pos hbelow]
  omega

/-- Less than half of the least magnitude rounds to zero. -/
theorem nearestBits_of_small {num den : Nat} (h : 2 * num < den) : nearestBits num den = 0 := by
  have hlow : floorBits (num / den) = 0 := by
    rw [Nat.div_eq_of_lt (by omega)]
    rfl
  have hmiddle : (units 0 + units (0 + 1)) * den = den := by
    rw [show units 0 + units (0 + 1) = 1 by decide, Nat.one_mul]
  simp only [nearestBits, hlow, hmiddle, if_pos h]
  omega

theorem infinityBits_eq : infinityBits = 2047 * 2 ^ 52 := by
  decide

theorem units_infinityBits : units infinityBits = 2 ^ (52 + 2046) := by
  have hsig : significand infinityBits = 2 ^ 52 := by decide
  have hdoublings : doublings infinityBits = 2046 := by decide
  rw [units_eq, hsig, hdoublings, Nat.pow_add]

theorem infinityBits_le_floorBits {u : Nat} (h : units infinityBits ≤ u) :
    infinityBits ≤ floorBits u := by
  obtain ⟨e, he⟩ : ∃ e, e = 52 + 2046 := ⟨_, rfl⟩
  rw [units_infinityBits, ← he] at h
  have hu : u ≠ 0 := by
    have := Nat.two_pow_pos e
    omega
  have hlog : e ≤ u.log2 := (Nat.le_log2 hu).mpr h
  have hlead : 2 ^ 52 ≤ u / 2 ^ (u.log2 - 52) := by
    rw [Nat.le_div_iff_mul_le (Nat.two_pow_pos _), ← Nat.pow_add,
      show 52 + (u.log2 - 52) = u.log2 by omega]
    exact Nat.log2_self_le hu
  rw [infinityBits_eq, floorBits_eq]
  omega

/-- What is not below infinity's place in the order of magnitudes rounds to infinity. -/
theorem nearestBits_of_large {num den : Nat} (hden : 0 < den) (h : units infinityBits * den ≤ num) :
    nearestBits num den = infinityBits := by
  have hlow := infinityBits_le_floorBits ((Nat.le_div_iff_mul_le hden).mpr h)
  simp only [nearestBits]
  split
  next => omega
  next => split <;> omega

end Facet
