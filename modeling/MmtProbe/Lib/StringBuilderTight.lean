/-
# The string builder keeps to its buffer and writes what it is asked for

The block of memory has exactly the size that the macros are given, so that a write
behind it is a fault.  The bytes before the start position and those behind the NUL
stay as they are, and when sixteen bytes are left over the text is the one
`printf` would give.

The room is an `int` in the macros, and a time is asserted to have at most twelve
digits before its point: a buffer of more than two gigabytes and a time before the
epoch are excluded by these two.
-/

import MmtProbe.Lib.StringBuilderText

namespace MmtProbe.Lib

open MmtProbe.Math MmtProbe.Dpi

/-! ## The intended text -/

/-- The textual form of an element; a time is printed as by `"%u.%06u"`. -/
def Field.form : Field → List UInt8
  | time t => decimal t.tvSec.toNat ++ 46 ::
      (if t.tvUsec < 10 ^ 6 then fixed 6 t.tvUsec.toNat else decimal t.tvUsec.toNat)
  | field => field.full

/-- The textual forms of the elements, joined by the separator. -/
def intended (separator : Option CString) (fields : List Field) : List UInt8 :=
  (separatorBytes separator).intercalate (fields.map Field.form)

/-- The seconds of every time are in the range that is printed. -/
def Seconds (fields : List Field) : Prop :=
  ∀ t, Field.time t ∈ fields → 0 ≤ t.tvSec ∧ t.tvSec < 10 ^ 12

/-- The microseconds of every time are less than a second. -/
def Microseconds (fields : List Field) : Prop :=
  ∀ t, Field.time t ∈ fields → 0 ≤ t.tvUsec ∧ t.tvUsec < 10 ^ 6

/-- Only the bytes from `valid` on were written, and they end with a NUL inside the
buffer. -/
structure Tight (valid : Nat) (dst : List UInt8) (result : Nat × List UInt8) : Prop where
  same_size : result.2.length = dst.length
  starts : valid ≤ result.1
  ends : result.1 ≤ dst.length - 1
  closed : result.2[result.1]? = some 0
  frame : ∀ i, i < valid ∨ result.1 < i → result.2[i]? = dst[i]?

/-- With sixteen characters left over, the text is the intended one. -/
def Exact (separator : Option CString) (fields : List Field) (valid : Nat) (dst : List UInt8)
    (result : Nat × List UInt8) : Prop :=
  (intended separator fields).length + 16 ≤ dst.length - 1 - valid →
    result.2.take result.1 = dst.take valid ++ intended separator fields

/-! ## Elements with a time in range -/

theorem Field.timely_of_seconds {fields : List Field} (times : Seconds fields) {field : Field}
    (listed : field ∈ fields) : field.Timely := by
  cases field with
  | time t =>
      rcases times t listed with ⟨hnonneg, hlt⟩
      have hvalue : (UInt64.ofInt t.tvSec).toNat = t.tvSec.toNat :=
        toNat_ofInt hnonneg (by omega)
      rw [Timely, hvalue, digitCount_le_iff (by decide)]
      omega
  | _ => trivial

theorem Field.full_eq_form {fields : List Field} (times : Seconds fields)
    (normal : Microseconds fields) {field : Field} (listed : field ∈ fields) :
    field.full = field.form := by
  cases field with
  | time t =>
      rcases times t listed with ⟨hsec, hsecond⟩
      rcases normal t listed with ⟨husec, hmicro⟩
      rw [full, form, microText, toNat_ofInt hsec (by omega), toNat_ofInt husec (by omega),
        if_pos hmicro, if_pos (by omega)]
  | _ => rfl

theorem joined_eq_intended {separator : Option CString} {fields : List Field}
    (same : ∀ field ∈ fields, field.full = field.form) :
    joined (separatorBytes separator) fields = intended separator fields := by
  induction fields with
  | nil => rfl
  | cons field fields ih =>
      have hfield := same field List.mem_cons_self
      cases fields with
      | nil => simpa [joined, intended] using hfield
      | cons next fields =>
          have hrest := ih fun f listed => same f (List.mem_cons_of_mem _ listed)
          rw [joined_cons_cons, hrest, hfield]
          simp [intended, List.intercalate]

/-! ## The whole text -/

variable {dst : List UInt8} {valid : Nat}

theorem tight_of_splice {added : List UInt8} (inside : valid < dst.length)
    (fits : (dst.take valid ++ added).length ≤ dst.length - 1) :
    Tight valid dst ((dst.take valid ++ added).length,
      splice dst 0 (dst.take valid ++ added ++ [0])) := by
  have htake : (dst.take valid).length = valid := by
    rw [List.length_take]
    omega
  have hlength : (dst.take valid ++ added).length = valid + added.length := by
    rw [List.length_append, htake]
  have hsplit : splice dst 0 (dst.take valid ++ added ++ [0]) =
      (dst.take valid ++ added) ++ (0 :: dst.drop (valid + added.length + 1)) := by
    simp [splice, htake, Nat.add_assoc]
  refine ⟨length_splice ?_, by omega, fits, ?_, ?_⟩
  · rw [List.length_append, List.length_singleton]
    omega
  · rw [hsplit, List.getElem?_append_right (Nat.le_refl _), Nat.sub_self]
    rfl
  · intro i houtside
    rw [hlength] at houtside
    rw [hsplit]
    rcases houtside with hbefore | hbehind
    · rw [List.append_assoc, List.getElem?_append_left (by omega), List.getElem?_take_of_lt hbefore]
    · have hback : i - (valid + added.length) = i - (valid + added.length + 1) + 1 := by omega
      rw [List.getElem?_append_right (by omega), hlength, hback, List.getElem?_cons_succ,
        List.getElem?_drop]
      congr 1
      omega

theorem take_splice_zero (text : List UInt8) :
    (splice dst 0 (text ++ [0])).take text.length = text := by
  rw [splice, List.take_zero, List.nil_append, List.append_assoc, List.take_left]

/-- The builder macros return, write only from `valid` on inside their buffer, and write
the intended text when sixteen characters are left over. -/
theorem build_tight_exact (separator : Option CString) (fields : List Field)
    (inside : valid < dst.length) (fits : dst.length ≤ 2 ^ 31) (times : Seconds fields) :
    ∃ result, build separator valid dst dst.length fields = .ok result ∧
      Tight valid dst result ∧
      (Microseconds fields → Exact separator fields valid dst result) := by
  have htimely : ∀ field ∈ fields, field.Timely := fun field listed =>
    Field.timely_of_seconds times listed
  have htake : (dst.take valid).length = valid := by
    rw [List.length_take]
    omega
  rcases exists_buildText (n := dst.length - 1) (separatorBytes separator) htimely
    (dst.take valid) with ⟨added, hadded⟩
  have hle := length_buildText_le (by omega) hadded
  have hbuild := build_eq separator fields inside (Nat.le_refl dst.length) fits (by omega)
  rw [hadded] at hbuild
  refine ⟨_, hbuild, tight_of_splice inside hle, ?_⟩
  intro normal enough
  have hjoined : joined (separatorBytes separator) fields = intended separator fields :=
    joined_eq_intended fun field listed => Field.full_eq_form times normal listed
  have hwhole : buildText (dst.length - 1) (separatorBytes separator) fields (dst.take valid) =
      some (dst.take valid ++ joined (separatorBytes separator) fields) :=
    buildText_eq_joined htimely (fun field _ => field.need_le) (by rw [hjoined, htake]; omega)
  rw [hadded, hjoined] at hwhole
  rw [Option.some.inj hwhole]
  exact take_splice_zero _

/-- A text with a separator that fills its buffer up to the sixteen characters. -/
theorem build_tight_exact_time :
    ∃ result, stringBuilderWithSeparator 1 (List.replicate 40 120) 40 (.ofText ",")
        [.int 7, .time ⟨12, 34⟩, .char 59] = .ok result ∧
      Tight 1 (List.replicate 40 120) result ∧
      result.2.take result.1 = bytesOf "x7,12.000034,;" := by
  have hlength : (List.replicate 40 (120 : UInt8)).length = 40 := List.length_replicate
  have htimes : ∀ t, Field.time t ∈ [.int 7, .time ⟨12, 34⟩, .char 59] → t = ⟨12, 34⟩ := by simp
  have hintended : intended (some (.ofText ",")) [.int 7, .time ⟨12, 34⟩, .char 59] =
      bytesOf "7,12.000034,;" := by decide +kernel
  rcases @build_tight_exact (List.replicate 40 120) 1 (some (.ofText ","))
    [.int 7, .time ⟨12, 34⟩, .char 59] (by rw [hlength]; decide) (by rw [hlength]; decide)
    (fun t listed => by rw [htimes t listed]; decide) with ⟨result, hresult, htight, hexact⟩
  rw [hlength] at hresult
  refine ⟨result, hresult, htight, ?_⟩
  rw [hexact (fun t listed => by rw [htimes t listed]; decide)
    (by rw [hlength, hintended]; decide), hintended]
  decide

/-- In a buffer of more than two gigabytes the `int` is negative, and nothing is written
but the NUL. -/
theorem not_exact_of_large {dst : List UInt8} (large : dst.length = 2 ^ 31 + 1) :
    ∃ result, build none 0 dst (2 ^ 31 + 1) [.int 1] = .ok result ∧
      ¬Exact none [.int 1] 0 dst result := by
  have hend : builderEnd (2 ^ 31 + 1) = -2 ^ 31 := by decide
  have hskip : builder (-2 ^ 31) (.int 1) (0, dst) = .ok (0, dst) :=
    if_neg (show ¬(-2 ^ 31 > ((0 : Nat) : Int)) by decide)
  have hstore : store dst 0 0 = .ok (splice dst 0 [0]) := store_eq_splice (by omega) 0
  have hone : intended none [.int 1] = [49] := by decide +kernel
  refine ⟨(0, splice dst 0 [0]), ?_, ?_⟩
  · simp only [build, hend, builderApply, hskip, bind_ok, hstore, mapError_ok]
    rfl
  · intro hexact
    have htext := hexact (by rw [large, hone]; decide)
    simp [hone] at htext

/-- Seconds before the epoch end the process, a whole second of microseconds is printed as
none, and a buffer of more than two gigabytes stays empty. -/
theorem build_not_tight_exact :
    build none 0 (List.replicate 64 0) 64 [.time ⟨-1, 0⟩] = .error .abort ∧
    (∃ result, build none 0 (List.replicate 64 0) 64 [.time ⟨1, 10 ^ 6⟩] = .ok result ∧
      ¬Exact none [.time ⟨1, 10 ^ 6⟩] 0 (List.replicate 64 0) result) ∧
    ∃ result, build none 0 (List.replicate (2 ^ 31 + 1) 0) (2 ^ 31 + 1) [.int 1] = .ok result ∧
      ¬Exact none [.int 1] 0 (List.replicate (2 ^ 31 + 1) 0) result := by
  refine ⟨by decide +kernel, ⟨(8, splice (List.replicate 64 0) 0 (bytesOf "1.000000" ++ [0])),
    by decide +kernel, ?_⟩, not_exact_of_large List.length_replicate⟩
  intro hexact
  have htext := hexact (by rw [List.length_replicate]; decide +kernel)
  revert htext
  decide +kernel

end MmtProbe.Lib
