/-
# Fixed-width words as naturals

Machine integers are naturals (or integers, where a value is signed) that are
brought back into their width by an explicit reduction.  Nothing is assumed
about overflow: a result that needs an operation not to wrap proves it.
-/

import Mathlib.Data.Nat.ModEq
import Mathlib.Tactic.Ring

namespace MmtProbe.Math

/-- The value of a natural stored in an unsigned 32-bit variable. -/
def u32 (n : Nat) : Nat := n % 2 ^ 32

/-- An unsigned 32-bit value returned through a signed 32-bit type. -/
def int32 (n : Nat) : Int := if n < 2 ^ 31 then n else (n : Int) - 2 ^ 32

theorem u32_of_lt {n : Nat} (h : n < 2 ^ 32) : u32 n = n := Nat.mod_eq_of_lt h

/-- A number is cut to 16 bits in two steps, or in one. -/
theorem toUInt16_ofInt (n : Int) : (UInt32.ofInt n).toUInt16 = UInt16.ofInt n := by
  apply UInt16.toNat_inj.mp
  rw [UInt32.toNat_toUInt16, UInt32.ofInt, UInt16.ofInt, UInt32.toNat_ofNat', UInt16.toNat_ofNat']
  omega

/-- A default replaces only zero. -/
theorem ite_zero_eq_self_iff {α : Type} [Zero α] [DecidableEq α] (x : α) {default : α}
    (filled : default ≠ 0) : (if x = 0 then default else x) = x ↔ x ≠ 0 := by
  constructor
  · rintro hself hzero
    rw [if_pos hzero, hzero] at hself
    exact filled hself
  · intro hne
    exact if_neg hne

/-! ## Counters modulo the size of a circular buffer

A position in a circular buffer of `size` slots is a running count reduced
modulo `size`.  Two counts less than one turn apart are told apart by their
positions, and this is what lets a buffer compare positions instead of counts.
-/

variable {size : Nat}

/-- Two counts less than one turn apart have the same position only when they
are equal. -/
theorem eq_of_mod_eq_of_lt {first second : Nat} (ordered : first ≤ second)
    (turn : second < first + size) (same : first % size = second % size) :
    first = second := by
  have hdvd : size ∣ second - first := (Nat.modEq_iff_dvd' ordered).mp same
  have hzero : second - first = 0 := Nat.eq_zero_of_dvd_of_lt hdvd (by omega)
  omega

/-- Distinct counts less than one turn apart have distinct positions. -/
theorem mod_ne_of_lt {first second : Nat} (ordered : first < second)
    (turn : second < first + size) : second % size ≠ first % size := fun same =>
  absurd (eq_of_mod_eq_of_lt ordered.le turn same.symm) ordered.ne

/-- As long as the end of the buffer is not passed, positions advance like
counts. -/
theorem mod_add_eq_of_lt {count steps : Nat} (inside : count % size + steps < size) :
    (count + steps) % size = count % size + steps := by
  rw [← Nat.mod_add_mod, Nat.mod_eq_of_lt inside]

/-- A later count whose position is larger is reached without passing the end. -/
theorem sub_of_mod_lt {first second : Nat} (ordered : first ≤ second)
    (turn : second < first + size) (larger : first % size < second % size) :
    second % size - first % size = second - first := by
  have hpos : 0 < size := by omega
  have hlt : second % size < size := Nat.mod_lt _ hpos
  have hpoint : (first + (second % size - first % size)) % size = second % size := by
    rw [mod_add_eq_of_lt (by omega)]
    omega
  by_cases hle : first + (second % size - first % size) ≤ second
  · have := eq_of_mod_eq_of_lt hle (by omega) hpoint
    omega
  · have := eq_of_mod_eq_of_lt (not_le.mp hle).le (by omega) hpoint.symm
    omega

/-- A later count whose position is not larger lies beyond the end of the
buffer, so every slot up to the end belongs to the interval between them. -/
theorem le_of_mod_le {first second : Nat} (ordered : first < second)
    (turn : second < first + size) (smaller : ¬ first % size < second % size) :
    first + (size - first % size) ≤ second := by
  by_contra hcon
  have hpos : 0 < size := by omega
  have hlt : first % size < size := Nat.mod_lt _ hpos
  have hmod : second % size = first % size + (second - first) := by
    have hsum : first + (second - first) = second := by omega
    rw [← mod_add_eq_of_lt (by omega : first % size + (second - first) < size), hsum]
  omega

/-- A number that is not negative and fits stays itself when it becomes unsigned. -/
theorem toNat_ofInt {value : Int} (nonneg : 0 ≤ value) (fits : value < 2 ^ 64) :
    (UInt64.ofInt value).toNat = value.toNat := by
  rw [UInt64.ofInt, UInt64.toNat_ofNat']
  omega

end MmtProbe.Math
