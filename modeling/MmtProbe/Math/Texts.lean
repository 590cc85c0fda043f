/-
# Searching texts, and texts in order

`strstr` looks for the first occurrence of a pattern.  A test for a suffix that is made
with it refuses a text that holds the pattern twice; `strstr_eq_some_iff` says exactly what
it accepts.

Texts are compared byte by byte, as `strcmp` does.  Numbers that are printed with a fixed
number of digits are then in the order of their values, and in a sorted list the elements
before the last few are those with many others behind them.
-/

import MmtProbe.Math.Decimal
import Mathlib.Data.List.Infix
import Mathlib.Data.List.Sort

namespace MmtProbe.Math

/-! ## Searching -/

/-- `strstr`: the text from the first occurrence of a pattern on. -/
def strstr (pattern : List UInt8) : List UInt8 → Option (List UInt8)
  | [] => if pattern.isEmpty then some [] else none
  | byte :: text =>
      if pattern.isPrefixOf (byte :: text) then some (byte :: text) else strstr pattern text

variable {pattern front text : List UInt8}

/-- What is found begins with the pattern. -/
theorem prefix_of_strstr {found : List UInt8} (search : strstr pattern text = some found) :
    pattern <+: found := by
  induction text with
  | nil =>
      unfold strstr at search
      split_ifs at search with hempty
      rw [List.isEmpty_iff.mp hempty]
      exact List.nil_prefix
  | cons byte text ih =>
      unfold strstr at search
      split_ifs at search with hstarts
      · cases search
        exact List.isPrefixOf_iff_prefix.mp hstarts
      · exact ih search

/-- The first occurrence stands at the end exactly when the text ends with the pattern and
has it nowhere else. -/
theorem strstr_eq_some_iff (nonempty : pattern ≠ []) (text : List UInt8) :
    strstr pattern text = some pattern ↔
      ∃ front, text = front ++ pattern ∧ ¬ pattern <:+: front ++ pattern.dropLast := by
  have hlength : pattern.dropLast.length < pattern.length := by
    have hpos := List.length_pos_iff.mpr nonempty
    rw [List.length_dropLast]
    omega
  have hshort : ∀ front : List UInt8, front = [] → ¬ pattern <:+: front ++ pattern.dropLast := by
    rintro front rfl hoccurs
    exact absurd hoccurs.length_le (by rw [List.nil_append]; omega)
  induction text with
  | nil =>
      unfold strstr
      rw [if_neg (by simpa using nonempty)]
      constructor
      · intro h
        cases h
      · rintro ⟨front, hsplit, _⟩
        exact absurd (List.append_eq_nil_iff.mp hsplit.symm).2 nonempty
  | cons byte text ih =>
      unfold strstr
      by_cases hstarts : pattern <+: byte :: text
      · rw [if_pos (List.isPrefixOf_iff_prefix.mpr hstarts), Option.some.injEq]
        constructor
        · intro heq
          exact ⟨[], heq, hshort [] rfl⟩
        · rintro ⟨front, hsplit, honly⟩
          cases front with
          | nil => exact hsplit
          | cons first front =>
              -- the pattern stands at the beginning too, before its last byte at the end
              have hcut : (first :: front) ++ pattern.dropLast <+: byte :: text := by
                rw [hsplit]
                exact (List.prefix_append_right_inj _).mpr (List.dropLast_prefix pattern)
              have hle : pattern.length ≤ ((first :: front) ++ pattern.dropLast).length := by
                simp only [List.length_append, List.length_cons, List.length_dropLast]
                omega
              exact absurd (List.prefix_of_prefix_length_le hstarts hcut hle).isInfix honly
      · rw [if_neg (by simpa using hstarts)]
        refine ih.trans ?_
        constructor
        · rintro ⟨front, hsplit, honly⟩
          refine ⟨byte :: front, by rw [hsplit, List.cons_append], ?_⟩
          intro hoccurs
          rcases List.infix_cons_iff.mp hoccurs with hfirst | hlater
          · apply hstarts
            rw [hsplit]
            apply hfirst.trans
            exact (List.prefix_append_right_inj (byte :: front)).mpr (List.dropLast_prefix pattern)
          · exact honly hlater
        · rintro ⟨front, hsplit, honly⟩
          cases front with
          | nil => exact absurd (by rw [hsplit, List.nil_append]) hstarts
          | cons first front =>
              rcases List.cons.inj hsplit with ⟨_, hrest⟩
              refine ⟨front, hrest, ?_⟩
              intro hoccurs
              exact honly (hoccurs.trans (List.suffix_cons _ _).isInfix)

/-- A pattern does not reach over a byte that it does not hold. -/
theorem infix_append_cons_iff {byte : UInt8} (absent : byte ∉ pattern) (nonempty : pattern ≠ [])
    (front back : List UInt8) :
    pattern <:+: front ++ byte :: back ↔ pattern <:+: front ∨ pattern <:+: back := by
  constructor
  · intro hoccurs
    induction front with
    | nil =>
        rcases List.infix_cons_iff.mp hoccurs with hstarts | hback
        · cases pattern with
          | nil => exact absurd rfl nonempty
          | cons first pattern =>
              rcases List.cons_prefix_cons.mp hstarts with ⟨rfl, _⟩
              exact absurd (List.mem_cons_self ..) absent
        · exact .inr hback
    | cons first front ih =>
        rcases List.infix_cons_iff.mp hoccurs with hstarts | hlater
        · by_cases hle : pattern.length ≤ (first :: front).length
          · have hfront : (first :: front) <+: first :: (front ++ byte :: back) :=
              List.prefix_append (first :: front) (byte :: back)
            exact .inl (List.prefix_of_prefix_length_le hstarts hfront hle).isInfix
          · -- otherwise the byte is one of the pattern
            have hmid : (first :: front) ++ [byte] <+: first :: (front ++ byte :: back) := by
              have hsplit : first :: (front ++ byte :: back) =
                  ((first :: front) ++ [byte]) ++ back := by simp
              rw [hsplit]
              exact List.prefix_append _ _
            have hinside := List.prefix_of_prefix_length_le hmid hstarts (by
              rw [List.length_append, List.length_singleton]
              omega)
            exact absurd (hinside.subset (by simp)) absent
        · rcases ih hlater with hfront | hback
          · exact .inl (hfront.trans (List.suffix_cons _ _).isInfix)
          · exact .inr hback
  · rintro (hfront | hback)
    · exact hfront.trans (List.prefix_append _ _).isInfix
    · exact hback.trans ((List.suffix_cons _ _).trans (List.suffix_append _ _)).isInfix

/-- Nor does it reach into a text that does not hold its last byte. -/
theorem infix_append_iff {last : UInt8} (back : List UInt8) (absent : last ∉ back)
    (front : List UInt8) :
    pattern ++ [last] <:+: front ++ back ↔ pattern ++ [last] <:+: front := by
  induction back using List.reverseRecOn with
  | nil => rw [List.append_nil]
  | append_singleton back byte ih =>
      rw [List.mem_append, not_or, List.mem_singleton] at absent
      rw [← List.append_assoc, List.infix_concat_iff, ih absent.1, or_iff_right]
      intro hsuffix
      rcases hsuffix with ⟨start, hends⟩
      rw [← List.append_assoc] at hends
      exact absent.2 (List.cons.inj (List.append_inj_right' hends rfl)).1

/-! ## Order -/

/-- Texts that differ in their first parts, which are equally long. -/
theorem append_lt_append {x y : List UInt8} (same : x.length = y.length) (lt : x < y)
    (u v : List UInt8) : x ++ u < y ++ v := by
  induction x generalizing y with
  | nil =>
      rw [List.length_nil] at same
      rw [List.length_eq_zero_iff.mp same.symm] at lt
      exact absurd lt (List.lt_irrefl [])
  | cons a x ih =>
      cases y with
      | nil => cases same
      | cons b y =>
          rw [List.cons_append, List.cons_append, List.cons_lt_cons_iff]
          rcases List.cons_lt_cons_iff.mp lt with hlt | ⟨heq, hlt⟩
          · exact .inl hlt
          · exact .inr ⟨heq, ih (Nat.succ.inj same) hlt⟩

/-- Numbers with a fixed number of digits are in the order of their values. -/
theorem fixed_lt_fixed {width m n : Nat} (lt : m < n) (fits : n < 10 ^ width) :
    fixed width m < fixed width n := by
  induction width generalizing m n with
  | zero =>
      rw [Nat.pow_zero] at fits
      omega
  | succ width ih =>
      rw [fixed, fixed]
      have hdiv : n / 10 < 10 ^ width := by
        rw [Nat.div_lt_iff_lt_mul (by decide), ← Nat.pow_succ]
        exact fits
      by_cases htens : m / 10 = n / 10
      · rw [htens]
        apply List.append_left_lt
        rw [List.cons_lt_cons_iff]
        apply Or.inl
        rw [UInt8.lt_iff_toNat_lt, toNat_digit, toNat_digit]
        omega
      · exact append_lt_append (by rw [length_fixed, length_fixed]) (ih (by omega) hdiv) _ _

/-- In a sorted list, the elements before the last `n` ones have `n` others behind them. -/
theorem mem_take_length_sub_iff {α : Type} {r : α → α → Prop} [DecidableRel r]
    (irreflexive : ∀ x, ¬ r x x) (asymmetric : ∀ x y, r x y → ¬ r y x) {list : List α}
    (sorted : list.Pairwise r) {x : α} (listed : x ∈ list) (n : Nat) :
    x ∈ list.take (list.length - n) ↔ n ≤ (list.filter fun y => decide (r x y)).length := by
  induction list with
  | nil => cases listed
  | cons first list ih =>
      rw [List.pairwise_cons] at sorted
      have hcount := List.length_filter_le (fun y => decide (r x y)) list
      rcases List.mem_cons.mp listed with rfl | hlater
      · have hall : list.filter (fun y => decide (r x y)) = list :=
          List.filter_eq_self.mpr fun y hy => decide_eq_true (sorted.1 y hy)
        rw [List.filter_cons_of_neg (by simpa using irreflexive x), hall, List.length_cons]
        by_cases hle : n ≤ list.length
        · rw [Nat.succ_sub hle, List.take_succ_cons]
          exact iff_of_true (List.mem_cons_self ..) hle
        · rw [Nat.sub_eq_zero_of_le (by omega), List.take_zero]
          exact iff_of_false List.not_mem_nil hle
      · have hfirst := sorted.1 x hlater
        have hne : x ≠ first := by
          rintro rfl
          exact irreflexive x hfirst
        rw [List.filter_cons_of_neg (by simpa using asymmetric first x hfirst), List.length_cons]
        by_cases hle : n ≤ list.length
        · rw [Nat.succ_sub hle, List.take_succ_cons, List.mem_cons, or_iff_right hne]
          exact ih sorted.2 hlater
        · rw [Nat.sub_eq_zero_of_le (by omega), List.take_zero]
          exact iff_of_false List.not_mem_nil (by omega)

end MmtProbe.Math
