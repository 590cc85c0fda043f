/-
# Tables with a perfect hash

A table whose entries are looked up by a word, up to some equivalence: words with the same
fold count as one.  When the hash does not tell such words apart, and each entry of the table
is in the slot of its own hash, then the one slot that a lookup compares with has the entry
that a search of the whole table finds.
-/

import Mathlib.Data.List.Basic

namespace MmtProbe.Math

universe u v w

variable {α : Type u} {β : Type v} {γ : Type w}

/-- The slots of a table, the hash that chooses one, and the entries that are in them. -/
structure PerfectHash (fold : α → γ) (hash : α → Nat) (word : β → α) (slots : Nat → Option β)
    (entries : List β) : Prop where
  respects : ∀ first second, fold first = fold second → hash first = hash second
  placed : ∀ entry ∈ entries, slots (hash (word entry)) = some entry
  only : ∀ key entry, slots key = some entry → entry ∈ entries

/-- One slot is enough. -/
theorem PerfectHash.filter_slot_eq_find? [BEq γ] [LawfulBEq γ] {fold : α → γ} {hash : α → Nat}
    {word : β → α} {slots : Nat → Option β} {entries : List β}
    (perfect : PerfectHash fold hash word slots entries) (given : α) :
    (slots (hash given)).filter (fun entry => fold (word entry) == fold given) =
      entries.find? fun entry => fold (word entry) == fold given := by
  cases hfound : entries.find? fun entry => fold (word entry) == fold given with
  | some entry =>
      have hlisted : entry ∈ entries := List.mem_of_find?_eq_some hfound
      have hsame : (fold (word entry) == fold given) = true :=
        List.find?_some (p := fun entry => fold (word entry) == fold given) hfound
      rw [← perfect.respects _ _ (beq_iff_eq.mp hsame), perfect.placed entry hlisted,
        Option.filter_some, if_pos hsame]
  | none =>
      rw [List.find?_eq_none] at hfound
      rw [Option.filter_eq_none_iff]
      intro entry hslot
      exact hfound entry (perfect.only _ entry hslot)

end MmtProbe.Math
