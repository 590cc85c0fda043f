/-
# Copying a header line into a report

`dpi_copy_string_value` copies the value of a header line, which is a pointer and a
length, into a buffer of a report, and replaces characters that a JSON text cannot hold.
Here every byte is read and written in checked memory.

Two things go wrong.  The loop counts the terminating NUL but reads its source with the
same index, so a line that is shorter than the target is read one byte too far.  And of
the control characters only those with a short escape are replaced.
-/

import MmtProbe.Dpi.SessionStat
import MmtProbe.Math.Buffer
import Mathlib.Data.List.Forall2

namespace MmtProbe.Dpi

open MmtProbe.Math

/-! ## The function -/

/-- `mmt_header_line_t`: `ptr` is the memory that can be read from the pointer on. -/
structure HeaderLine where
  ptr : List UInt8
  len : Nat
deriving DecidableEq, Repr

/-- The line stands at the end of the memory. -/
def HeaderLine.exact (line : List UInt8) : HeaderLine := ⟨line, line.length⟩

/-- The bytes `i`, `i + 1` and so on are copied. -/
def copyStringLoop (ptr : List UInt8) (target : List UInt8) (i : Nat) :
    Nat → Except Fault (List UInt8)
  | 0 => .ok target
  | left + 1 => do
      let ch ← load ptr i
      let target ← store target i (jsonByte ch)
      copyStringLoop ptr target (i + 1) left

/-- `dpi_copy_string_value`; `target_size` is the size of the target. -/
def dpiCopyStringValue (target : List UInt8) (val : Option HeaderLine) :
    Except Fault (List UInt8 × Bool) :=
  match val with
  | none => do
      let target ← store target 0 0
      return (target, false)
  | some line =>
      if line.len = 0 then do
        let target ← store target 0 0
        return (target, false)
      else do
        let targetSize := if line.len + 1 < target.length then line.len + 1 else target.length
        let target ← copyStringLoop line.ptr target 0 targetSize
        let target ← store target (targetSize - 1) 0
        return (target, true)

/-! ## What a JSON string can hold -/

/-- A byte that needs no escape in a JSON string. -/
def JsonSafe (byte : UInt8) : Prop := byte ≠ 34 ∧ byte ≠ 92 ∧ 32 ≤ byte

/-- A safe byte is kept, another one is replaced by a safe one. -/
def Replaces (byte copy : UInt8) : Prop := JsonSafe copy ∧ (JsonSafe byte → copy = byte)

/-- The target holds a string that is the beginning of the line, as far as it fits, with
every unsafe byte replaced. -/
def CopiesSafely (target line : List UInt8) (val : Option HeaderLine) : Prop :=
  ∃ text rest returned,
    dpiCopyStringValue target val = .ok (text ++ 0 :: rest, returned) ∧
      (text ++ 0 :: rest).length = target.length ∧
      text.length = min line.length (target.length - 1) ∧
      List.Forall₂ Replaces (line.take (target.length - 1)) text ∧
      ∀ byte ∈ text, JsonSafe byte

/-- The control characters that have a short escape. -/
def shortEscapes : List UInt8 := [8, 9, 10, 12, 13]

/-- The replaced characters are safe, and all others stay. -/
theorem replaces_jsonByte_iff (byte : UInt8) :
    Replaces byte (jsonByte byte) ↔ (byte < 32 → byte ∈ shortEscapes) := by
  unfold Replaces jsonByte
  split_ifs with hdot hquote
  · have hunsafe : ¬ JsonSafe byte := by
      unfold JsonSafe
      revert hdot
      simp only [List.mem_cons, List.not_mem_nil, or_false]
      rintro (rfl | rfl | rfl | rfl | rfl | rfl) <;> decide
    refine ⟨fun _ hlt => ?_, fun _ =>
      ⟨by unfold JsonSafe; decide, fun hsafe => absurd hsafe hunsafe⟩⟩
    revert hdot hlt
    simp only [List.mem_cons, List.not_mem_nil, or_false]
    rintro (rfl | rfl | rfl | rfl | rfl | rfl) <;> decide
  · subst hquote
    unfold JsonSafe
    decide
  · have hbackslash : byte ≠ 92 := by
      rintro rfl
      exact hdot (by decide)
    have hescape : byte ∉ shortEscapes := by
      intro hlisted
      apply hdot
      simp only [shortEscapes, List.mem_cons, List.not_mem_nil, or_false] at hlisted ⊢
      tauto
    constructor
    · intro hreplaces hlt
      exact absurd hlt (UInt8.not_lt.mpr hreplaces.1.2.2)
    · intro hshort
      refine ⟨⟨hquote, hbackslash, UInt8.not_lt.mp fun hlt => hescape (hshort hlt)⟩, fun _ => rfl⟩

/-! ## The loop -/

variable {ptr target : List UInt8} {i left : Nat}

/-- What the loop has copied before the byte `i` is followed by what it copies. -/
theorem copyStringLoop_eq_ok (target : List UInt8) (readable : i + left ≤ ptr.length)
    (room : i + left ≤ target.length) :
    copyStringLoop ptr (splice target 0 ((ptr.take i).map jsonByte)) i left =
      .ok (splice target 0 ((ptr.take (i + left)).map jsonByte)) := by
  induction left generalizing i with
  | zero => rfl
  | succ left ih =>
      have hinside : i < ptr.length := by omega
      have hload : load ptr i = .ok ptr[i] := by
        rw [load, List.getElem?_eq_getElem hinside]
      have hlength : ((ptr.take i).map jsonByte).length = i := by
        rw [List.length_map, List.length_take]
        omega
      have hstore : store (splice target 0 ((ptr.take i).map jsonByte)) i (jsonByte ptr[i]) =
          .ok (splice target 0 ((ptr.take (i + 1)).map jsonByte)) := by
        have hnext := @store_splice_zero target ((ptr.take i).map jsonByte) (by omega)
          (jsonByte ptr[i])
        rw [hlength] at hnext
        rw [hnext, List.take_succ_eq_append_getElem hinside, List.map_append, List.map_singleton]
      rw [copyStringLoop, hload, bind_ok, hstore, bind_ok, ih (by omega) (by omega)]
      congr 4
      omega

/-- The loop stops at the end of what can be read. -/
theorem copyStringLoop_eq_error (target : List UInt8) (start : i ≤ ptr.length)
    (beyond : ptr.length < i + left) (room : i + left ≤ target.length) :
    copyStringLoop ptr target i left = .error (.load ptr.length) := by
  induction left generalizing i target with
  | zero => omega
  | succ left ih =>
      rw [copyStringLoop]
      by_cases hinside : i < ptr.length
      · have hload : load ptr i = .ok ptr[i] := by
          rw [load, List.getElem?_eq_getElem hinside]
        have hstore : store target i (jsonByte ptr[i]) = .ok (target.set i (jsonByte ptr[i])) := by
          rw [store, if_pos (by omega)]
        rw [hload, bind_ok, hstore, bind_ok]
        exact ih _ (by omega) (by omega) (by rw [List.length_set]; omega)
      · have hend : i = ptr.length := by omega
        have hload : load ptr i = .error (.load ptr.length) := by
          rw [load, List.getElem?_eq_none (by omega), hend]
        rw [hload]
        rfl

/-! ## The copy -/

/-- The number of bytes that are copied before the NUL. -/
def copiedLength (target : List UInt8) (len : Nat) : Nat := min len (target.length - 1)

/-- The size that the loop counts to. -/
theorem targetSize_eq (target : List UInt8) (len : Nat) (room : 1 ≤ target.length) :
    (if len + 1 < target.length then len + 1 else target.length) = copiedLength target len + 1 := by
  unfold copiedLength
  split_ifs <;> omega

/-- When one more byte than the copied ones can be read, the copy is closed by a NUL. -/
theorem dpiCopyStringValue_eq_ok {target : List UInt8} {line : HeaderLine}
    (room : 1 ≤ target.length) (filled : line.len ≠ 0)
    (readable : copiedLength target line.len < line.ptr.length) :
    dpiCopyStringValue target (some line) =
      .ok (splice target 0 ((line.ptr.take (copiedLength target line.len)).map jsonByte ++ [0]),
        true) := by
  obtain ⟨count, hcount⟩ : ∃ count, copiedLength target line.len = count := ⟨_, rfl⟩
  have hroom : count + 1 ≤ target.length := by
    unfold copiedLength at hcount
    omega
  rw [hcount] at readable
  have hlength : ((line.ptr.take count).map jsonByte).length = count := by
    rw [List.length_map, List.length_take]
    omega
  have hloop := @copyStringLoop_eq_ok line.ptr 0 (count + 1) target (by omega) (by omega)
  rw [List.take_zero, List.map_nil, splice_nil, Nat.zero_add,
    List.take_succ_eq_append_getElem readable, List.map_append, List.map_singleton] at hloop
  have hclose := @store_splice_inside target 0 ((line.ptr.take count).map jsonByte) []
    (by rw [hlength, List.length_nil]; omega) (jsonByte line.ptr[count]) 0
  rw [hlength, Nat.zero_add] at hclose
  rw [dpiCopyStringValue, if_neg filled]
  simp only [targetSize_eq target line.len room, hcount]
  rw [hloop, bind_ok, Nat.add_sub_cancel, hclose]
  rfl

/-- A line that ends with the memory and before the target is read one byte too far. -/
theorem dpiCopyStringValue_eq_error {target line : List UInt8} (filled : line ≠ [])
    (short : line.length < target.length) :
    dpiCopyStringValue target (some (.exact line)) = .error (.load line.length) := by
  have hcount : copiedLength target line.length = line.length := by
    unfold copiedLength
    omega
  have hne : line.length ≠ 0 := fun hzero => filled (List.length_eq_zero_iff.mp hzero)
  have hloop := @copyStringLoop_eq_error line 0 (line.length + 1) target (by omega) (by omega)
    (by omega)
  rw [dpiCopyStringValue, HeaderLine.exact, if_neg hne]
  simp only [targetSize_eq target line.length (by omega), hcount]
  rw [hloop]
  rfl

/-- What the report reads later is the text of `copyStringValue`. -/
theorem loadString_dpiCopyStringValue {target : List UInt8} {line : HeaderLine}
    (room : 1 ≤ target.length) (filled : line.len ≠ 0)
    (readable : copiedLength target line.len < line.ptr.length) :
    ∃ copy, dpiCopyStringValue target (some line) = .ok (copy, true) ∧
      loadString copy 0 = .ok (copyStringValue target.length (some (line.ptr.take line.len))) := by
  refine ⟨_, dpiCopyStringValue_eq_ok room filled readable, ?_⟩
  rw [loadString_splice_cstring]
  · rw [copyStringValue, List.take_take, Nat.min_comm]
    rfl
  · rw [List.length_map, List.length_take]
    unfold copiedLength at readable ⊢
    omega

/-! ## When the copy is safe -/

/-- A missing or empty line leaves the empty string. -/
theorem copiesSafely_nil {target : List UInt8} (room : 1 ≤ target.length)
    {val : Option HeaderLine} (empty : val = none ∨ val = some (.exact [])) :
    CopiesSafely target [] val := by
  have hstore : store target 0 0 = .ok (0 :: target.drop 1) := by
    rw [store_eq_splice room, splice_zero]
    rfl
  have hrun : dpiCopyStringValue target val = .ok ([] ++ 0 :: target.drop 1, false) := by
    rcases empty with rfl | rfl
    · rw [dpiCopyStringValue, hstore]
      rfl
    · have hzero : (HeaderLine.exact []).len = 0 := rfl
      rw [dpiCopyStringValue, if_pos hzero, hstore]
      rfl
  refine ⟨[], target.drop 1, false, hrun, ?_, by simp, by simp, List.forall_mem_nil _⟩
  simp only [List.nil_append, List.length_cons, List.length_drop]
  omega

/-- The copy of a line that fills the target. -/
theorem copiesSafely_iff_of_le {target line : List UInt8} (room : 1 ≤ target.length)
    (long : target.length ≤ line.length) :
    CopiesSafely target line (some (.exact line)) ↔
      ∀ byte ∈ line.take (target.length - 1), byte < 32 → byte ∈ shortEscapes := by
  have hcount : copiedLength target line.length = target.length - 1 := by
    unfold copiedLength
    omega
  have hlength : ((line.take (target.length - 1)).map jsonByte).length = target.length - 1 := by
    rw [List.length_map, List.length_take]
    omega
  have hrun : dpiCopyStringValue target (some (.exact line)) =
      .ok ((line.take (target.length - 1)).map jsonByte ++ 0 :: [], true) := by
    have hok := @dpiCopyStringValue_eq_ok target (.exact line) room
      (by change line.length ≠ 0; omega)
      (by change copiedLength target line.length < line.length; omega)
    change _ = Except.ok (splice target 0 ((line.take (copiedLength target line.length)).map
      jsonByte ++ [0]), true) at hok
    rw [hok, hcount, splice_zero, List.length_append, hlength, List.length_singleton,
      Nat.sub_add_cancel room, List.drop_length, List.append_nil]
  have hforall : List.Forall₂ Replaces (line.take (target.length - 1))
      ((line.take (target.length - 1)).map jsonByte) ↔
        ∀ byte ∈ line.take (target.length - 1), byte < 32 → byte ∈ shortEscapes := by
    rw [List.forall₂_map_right_iff, List.forall₂_same]
    exact forall₂_congr fun byte _ => replaces_jsonByte_iff byte
  constructor
  · rintro ⟨text, rest, returned, hcopy, -, htext, hreplaces, -⟩
    rw [hrun] at hcopy
    have hsame := congrArg Prod.fst (Except.ok.inj hcopy)
    have htexts := (List.append_inj hsame (by rw [hlength, htext]; omega)).1
    rw [← htexts] at hreplaces
    exact hforall.mp hreplaces
  · intro hall
    refine ⟨_, _, _, hrun, ?_, ?_, hforall.mpr hall, ?_⟩
    · rw [List.length_append, hlength, List.length_singleton]
      omega
    · rw [hlength]
      omega
    · intro byte hbyte
      rcases List.mem_map.mp hbyte with ⟨source, hsource, rfl⟩
      exact ((replaces_jsonByte_iff source).mpr (hall source hsource)).1

/-- The bytes to copy: a missing line has none. -/
def copiedLine (val : Option (List UInt8)) : List UInt8 := val.getD []

/-- A line at the end of the memory is copied safely exactly when it is missing or empty,
or fills the target and its copied control characters have a short escape. -/
theorem copiesSafely_iff (target : List UInt8) (room : 1 ≤ target.length)
    (val : Option (List UInt8)) :
    CopiesSafely target (copiedLine val) (val.map .exact) ↔
      copiedLine val = [] ∨ target.length ≤ (copiedLine val).length ∧
        ∀ byte ∈ (copiedLine val).take (target.length - 1), byte < 32 → byte ∈ shortEscapes := by
  cases val with
  | none => exact ⟨fun _ => .inl rfl, fun _ => copiesSafely_nil room (.inl rfl)⟩
  | some line =>
      change CopiesSafely target line (some (.exact line)) ↔ line = [] ∨ _
      by_cases hempty : line = []
      · subst hempty
        exact ⟨fun _ => .inl rfl, fun _ => copiesSafely_nil room (.inr rfl)⟩
      · rw [or_iff_right hempty]
        by_cases hlong : target.length ≤ line.length
        · rw [copiesSafely_iff_of_le room hlong]
          exact (and_iff_right hlong).symm
        · refine iff_of_false ?_ fun hright => hlong hright.1
          rintro ⟨text, rest, returned, hcopy, -⟩
          rw [dpiCopyStringValue_eq_error hempty (by omega)] at hcopy
          cases hcopy

/-- A host name that fills its target, with a line feed in it. -/
theorem copiesSafely_iff_long :
    CopiesSafely (List.replicate 4 255) [97, 10, 34, 100, 101]
      (some (.exact [97, 10, 34, 100, 101])) :=
  (copiesSafely_iff (List.replicate 4 255) (by decide) (some [97, 10, 34, 100, 101])).mpr
    (.inr ⟨by decide, List.forall_mem_cons.mpr ⟨by decide, List.forall_mem_cons.mpr ⟨by decide,
      List.forall_mem_singleton.mpr (by decide)⟩⟩⟩)

/-- A host name in the 64 bytes of `hostname` is read one byte too far, and an escape
character in a long one stays as it is. -/
theorem not_copiesSafely :
    dpiCopyStringValue (List.replicate 64 0) (some (.exact [97, 46, 102, 114])) =
        .error (.load 4) ∧
      ¬ CopiesSafely (List.replicate 64 0) [97, 46, 102, 114] (some (.exact [97, 46, 102, 114])) ∧
      dpiCopyStringValue (List.replicate 3 0) (some (.exact [97, 27, 98])) =
        .ok ([97, 27, 0], true) := by
  have hfault : dpiCopyStringValue (List.replicate 64 0) (some (.exact [97, 46, 102, 114])) =
      .error (.load 4) := by decide +kernel
  refine ⟨hfault, ?_, by decide +kernel⟩
  rintro ⟨text, rest, returned, hcopy, -⟩
  rw [hfault] at hcopy
  cases hcopy

end MmtProbe.Dpi
