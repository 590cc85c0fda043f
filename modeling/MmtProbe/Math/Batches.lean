/-
# Elements that are handed on in batches

Elements are collected one after the other, and are handed on together: when there are as
many as a limit says, or when somebody asks for it.  Nothing is handed on when nothing was
collected.  Whatever is asked for and when, the batches and what is still pending are the
elements in their order.
-/

import Mathlib.Data.List.Basic
import Mathlib.Tactic.SplitIfs

namespace MmtProbe.Math

/-- The batches that were handed on, and the elements that were collected since. -/
structure Batches (α : Type) where
  emitted : List (List α)
  pending : List α
deriving DecidableEq, Repr

namespace Batches

variable {α : Type}

/-- Nothing was collected yet. -/
def empty : Batches α := ⟨[], []⟩

/-- Hand on what is pending. -/
def emit (batches : Batches α) : Batches α :=
  match batches.pending with
  | [] => batches
  | pending => ⟨batches.emitted ++ [pending], []⟩

/-- Collect an element, and hand on what is pending when there is enough of it. -/
def add (limit : Nat) (batches : Batches α) (element : α) : Batches α :=
  let batches := { batches with pending := batches.pending ++ [element] }
  if limit ≤ batches.pending.length then batches.emit else batches

/-- All elements, in their order. -/
def all (batches : Batches α) : List α := batches.emitted.flatten ++ batches.pending

theorem emit_of_ne {batches : Batches α} (given : batches.pending ≠ []) :
    batches.emit = ⟨batches.emitted ++ [batches.pending], []⟩ := by
  rw [emit]
  split
  next hnone => exact absurd hnone given
  next => rfl

theorem emit_of_eq {batches : Batches α} (none : batches.pending = []) :
    batches.emit = batches := by
  rw [emit, none]

@[simp]
theorem pending_emit (batches : Batches α) : batches.emit.pending = [] := by
  by_cases hnone : batches.pending = []
  · rw [emit_of_eq hnone, hnone]
  · rw [emit_of_ne hnone]

@[simp]
theorem all_emit (batches : Batches α) : batches.emit.all = batches.all := by
  by_cases hnone : batches.pending = []
  · rw [emit_of_eq hnone]
  · rw [emit_of_ne hnone, all, all]
    simp

@[simp]
theorem all_add (limit : Nat) (batches : Batches α) (element : α) :
    (batches.add limit element).all = batches.all ++ [element] := by
  have hall : ({ batches with pending := batches.pending ++ [element] } : Batches α).all =
      batches.all ++ [element] := by
    rw [all, all, List.append_assoc]
  rw [add]
  dsimp only
  split_ifs
  · rw [all_emit, hall]
  · exact hall

end Batches

end MmtProbe.Math
