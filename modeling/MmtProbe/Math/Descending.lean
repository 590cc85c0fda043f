/-
# Lists in descending order of a key

A list is kept in strictly descending order of a key.  An element enters it between
the larger and the smaller ones, or takes the place of the element with its key, and
leaves it together with a stretch of its neighbours.  None of these disturbs the
order, and a key stands for at most one element.
-/

import Mathlib.Algebra.Order.Ring.Int
import Mathlib.Data.List.Perm.Subperm
import Mathlib.Order.Nat

namespace MmtProbe.Math

universe u v

variable {α : Type u} {κ : Type v} [LinearOrder κ] {key : α → κ}
variable {front back list : List α} {x y : α}

/-- Each key is larger than all the keys behind it. -/
def Descending (key : α → κ) (list : List α) : Prop :=
  list.Pairwise fun p q => key q < key p

theorem descending_nil : Descending key [] := List.Pairwise.nil

theorem Descending.sublist {part : List α} (sorted : Descending key list)
    (inside : part.Sublist list) : Descending key part :=
  List.Pairwise.sublist inside sorted

/-- A stretch is cut out. -/
theorem Descending.cut {stretch : List α} (sorted : Descending key (front ++ stretch ++ back)) :
    Descending key (front ++ back) := by
  apply sorted.sublist
  rw [List.append_assoc]
  exact (List.sublist_append_right stretch back).append_left front

/-- An element enters between the larger and the smaller ones. -/
theorem Descending.splice (sorted : Descending key (front ++ back))
    (larger : ∀ p ∈ front, key x < key p) (smaller : ∀ p ∈ back, key p < key x) :
    Descending key (front ++ x :: back) := by
  rcases List.pairwise_append.mp sorted with ⟨hfront, hback, hcross⟩
  apply List.pairwise_append.mpr
  refine ⟨hfront, List.pairwise_cons.mpr ⟨smaller, hback⟩, ?_⟩
  intro p hp q hq
  rcases List.mem_cons.mp hq with rfl | hq
  · exact larger p hp
  · exact hcross p hp q hq

/-- The neighbours of an element. -/
theorem Descending.around (sorted : Descending key (front ++ x :: back)) :
    Descending key (front ++ back) ∧ (∀ p ∈ front, key x < key p) ∧ ∀ p ∈ back, key p < key x := by
  rcases List.pairwise_append.mp sorted with ⟨hfront, hback, hcross⟩
  rcases List.pairwise_cons.mp hback with ⟨hsmaller, hback⟩
  refine ⟨List.pairwise_append.mpr ⟨hfront, hback, ?_⟩, ?_, hsmaller⟩
  · intro p hp q hq
    exact hcross p hp q (List.mem_cons_of_mem x hq)
  · intro p hp
    exact hcross p hp x (List.mem_cons_self ..)

/-- An element takes the place of another one with the same key. -/
theorem Descending.replace (sorted : Descending key (front ++ x :: back)) (same : key y = key x) :
    Descending key (front ++ y :: back) := by
  rcases sorted.around with ⟨hrest, hlarger, hsmaller⟩
  rw [← same] at hlarger hsmaller
  exact hrest.splice hlarger hsmaller

/-- No other element has the key of an element. -/
theorem Descending.ne_of_mem (sorted : Descending key (front ++ x :: back)) (p : α)
    (inside : p ∈ front ++ back) : key p ≠ key x := by
  rcases sorted.around with ⟨_, hlarger, hsmaller⟩
  rcases List.mem_append.mp inside with hp | hp
  · exact (hlarger p hp).ne'
  · exact (hsmaller p hp).ne

theorem Descending.nodup (sorted : Descending key list) : (list.map key).Nodup := by
  rw [List.Nodup, List.pairwise_map]
  exact sorted.imp fun hlt => hlt.ne'

/-- There are no more distinct numbers than there are numbers. -/
theorem length_le_of_nodup {numbers : List Nat} {bound : Nat} (distinct : numbers.Nodup)
    (below : ∀ n ∈ numbers, n < bound) : numbers.length ≤ bound := by
  have hinside : numbers ⊆ List.range bound := by
    intro n hn
    exact List.mem_range.mpr (below n hn)
  have hle : numbers.length ≤ (List.range bound).length := (distinct.subperm hinside).length_le
  rwa [List.length_range] at hle

theorem Descending.length_le {number : α → Nat} {bound : Nat} (sorted : Descending number list)
    (below : ∀ p ∈ list, number p < bound) : list.length ≤ bound := by
  rw [← List.length_map (f := number)]
  apply length_le_of_nodup sorted.nodup
  intro n hn
  rcases List.mem_map.mp hn with ⟨p, hp, rfl⟩
  exact below p hp

end MmtProbe.Math
