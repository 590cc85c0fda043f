/-
# One number of the string builder

`append_number` finds the number of digits by comparisons with the powers of ten, and
then writes the digits from the last one on, two at a time.  Both have to agree for every
value, since the place of the first digit is nowhere checked.

The block of memory only has to hold the digits, or the room when this is less: the
characters behind them are neither written nor needed.
-/

import MmtProbe.Lib.StringBuilderText

namespace MmtProbe.Lib

open MmtProbe.Math

variable {memory : List UInt8} {dst dstSize : Nat}

/-- More room than there are digits is not used. -/
theorem appendNumber_of_digitCount_le (val : UInt64) (enough : digitCount val.toNat ≤ dstSize) :
    appendNumber memory dst dstSize val = appendNumber memory dst (digitCount val.toNat) val := by
  have hpos := digitCount_pos val.toNat
  by_cases hten : val.toNat < 10
  · rw [appendNumber, appendNumber, if_pos ⟨hten, by omega⟩, if_pos ⟨hten, by omega⟩]
  · have hsize := numberSize_eq (show 10 ≤ val.toNat by omega) val.toNat_lt
    have hfirst : ¬(val.toNat < 10 ∧ dstSize > 0) := fun h => hten h.1
    have hsecond : ¬(val.toNat < 10 ∧ digitCount val.toNat > 0) := fun h => hten h.1
    simp only [appendNumber, if_neg hfirst, if_neg hsecond, hsize, Nat.lt_irrefl, gt_iff_lt,
      if_neg (Nat.not_lt.mpr enough), if_false]

/-- A number is written as its shortest decimal text when there is room for it, and not at
all otherwise.  The bytes in front of the text and behind it stay as they are. -/
theorem appendNumber_shortest (memory : List UInt8) (dst dstSize : Nat) (val : UInt64)
    (fits : dst + min dstSize (digitCount val.toNat) ≤ memory.length)
    (small : memory.length < 2 ^ 64) :
    ∃ text, ShortestDecimal text val.toNat ∧
      appendNumber memory dst dstSize val =
        .ok (if text.length ≤ dstSize then
            (text.length, memory.take dst ++ (text ++ memory.drop (dst + text.length)))
          else (0, memory)) := by
  refine ⟨decimal val.toNat, shortestDecimal_decimal val.toNat, ?_⟩
  rw [length_decimal]
  by_cases henough : digitCount val.toNat ≤ dstSize
  · have htext : numberText (digitCount val.toNat) val.toNat = decimal val.toNat :=
      if_pos (Nat.le_refl _)
    rw [appendNumber_of_digitCount_le val henough, appendNumber_eq (by omega) small, htext,
      if_pos henough, splice, length_decimal]
  · have htext : numberText dstSize val.toNat = [] := if_neg henough
    rw [appendNumber_eq (by omega) small, htext, if_neg henough, splice_nil, List.length_nil]

/-- The largest value in a block that ends with its last digit. -/
theorem appendNumber_shortest_max :
    ∃ text, ShortestDecimal text 18446744073709551615 ∧
      appendNumber (List.replicate 21 120) 1 100 18446744073709551615 =
        .ok (if text.length ≤ 100 then
            (text.length, (List.replicate 21 120).take 1 ++
              (text ++ (List.replicate 21 120).drop (1 + text.length)))
          else (0, List.replicate 21 120)) := by
  have hcount : digitCount (UInt64.toNat 18446744073709551615) = 20 :=
    digitCount_eq (by decide) (by decide)
  exact appendNumber_shortest (List.replicate 21 120) 1 100 18446744073709551615
    (by rw [hcount, List.length_replicate]; decide) (by rw [List.length_replicate]; decide)

end MmtProbe.Lib
