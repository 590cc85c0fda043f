/-
# Families of parties of which one moves

A system of `n` parties keeps the state of each of them in a function on `Fin n`, and
a step of one party replaces one value of the function.  What is counted over all
parties changes by what that party counts.

What the parties hand out carries a key, and is counted for each key on its own.
-/

import Mathlib.Algebra.BigOperators.Fin
import Mathlib.Algebra.Order.BigOperators.Group.List
import Mathlib.Algebra.Order.Ring.Nat
import Mathlib.Data.List.FinRange

namespace MmtProbe.Math

universe u v

/-- Replacing one summand. -/
theorem sum_update {n : Nat} {α : Type u} (f : α → Nat) (g : Fin n → α) (i : Fin n) (x : α) :
    ∑ j, f (Function.update g i x j) + f (g i) = ∑ j, f (g j) + f x := by
  have hrest : ∑ j ∈ Finset.univ.erase i, f (Function.update g i x j)
      = ∑ j ∈ Finset.univ.erase i, f (g j) := by
    apply Finset.sum_congr rfl
    intro j hj
    rw [Function.update_of_ne (Finset.ne_of_mem_erase hj)]
  rw [← Finset.add_sum_erase Finset.univ _ (Finset.mem_univ i), hrest, Function.update_self,
    ← Finset.add_sum_erase Finset.univ (fun j => f (g j)) (Finset.mem_univ i)]
  omega

/-- One party counts some more. -/
theorem sum_update_add {n : Nat} {α : Type u} (f : α → Nat) (g : Fin n → α) (i : Fin n) {x : α}
    {more : Nat} (grows : f x = f (g i) + more) :
    ∑ j, f (Function.update g i x j) = ∑ j, f (g j) + more := by
  have hsum := sum_update f g i x
  omega

/-! ## Totals by key -/

section Totals

variable {α : Type u} {κ : Type v} [DecidableEq κ] {key : α → κ} {count : α → Nat}

/-- What the items with one key count together. -/
def totalAt (key : α → κ) (count : α → Nat) (k : κ) (items : List α) : Nat :=
  ((items.filter fun item => key item = k).map count).sum

theorem totalAt_append (k : κ) (items more : List α) :
    totalAt key count k (items ++ more) = totalAt key count k items + totalAt key count k more := by
  unfold totalAt
  rw [List.filter_append, List.map_append, List.sum_append]

theorem totalAt_singleton (k : κ) (item : α) :
    totalAt key count k [item] = if key item = k then count item else 0 := by
  unfold totalAt
  by_cases hkey : key item = k <;> simp [hkey]

theorem totalAt_eq_zero {k : κ} {items : List α} (absent : ∀ item ∈ items, key item ≠ k) :
    totalAt key count k items = 0 := by
  have hfilter : (items.filter fun item => key item = k) = [] := by
    apply List.filter_eq_nil_iff.mpr
    simpa using absent
  rw [totalAt, hfilter]
  rfl

theorem totalAt_eq_sum {k : κ} {items : List α} (same : ∀ item ∈ items, key item = k) :
    totalAt key count k items = (items.map count).sum := by
  have hfilter : (items.filter fun item => key item = k) = items := by
    apply List.filter_eq_self.mpr
    simpa using same
  rw [totalAt, hfilter]

theorem le_totalAt (key : α → κ) (count : α → Nat) {items : List α} {item : α}
    (inside : item ∈ items) : count item ≤ totalAt key count (key item) items := by
  apply List.le_sum_of_mem
  apply List.mem_map_of_mem
  exact List.mem_filter.mpr ⟨inside, decide_eq_true rfl⟩

/-- One item for each index of a family that meets a condition. -/
theorem totalAt_finRange {n : Nat} (f : Fin n → α) (chosen : Fin n → Bool) (key : α → Fin n)
    (indexed : ∀ i, key (f i) = i) (i : Fin n) :
    totalAt key count i (((List.finRange n).filter chosen).map f) =
      if chosen i then count (f i) else 0 := by
  have hone : ((List.finRange n).filter fun j => j == i) = [i] := by
    rw [List.filter_beq, List.count_eq_one_of_mem (List.nodup_finRange n) (List.mem_finRange i)]
    rfl
  have hfilter : (((List.finRange n).filter chosen).map f).filter (fun item => key item = i) =
      (((List.finRange n).filter fun j => j == i).filter chosen).map f := by
    rw [List.filter_map, List.filter_filter, List.filter_filter]
    congr 2
    funext j
    simp only [Function.comp_apply, indexed, Bool.and_comm]
    rfl
  rw [totalAt, hfilter, hone]
  cases hchosen : chosen i <;> simp [hchosen]

end Totals

end MmtProbe.Math
