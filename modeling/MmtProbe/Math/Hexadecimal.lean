/-
# Hexadecimal numbers in memory

`strtol` in base 16 reads a number at an address: white space, a sign, a prefix
`0x` and digits.  It returns the number and the address behind the last digit.
It knows no length, so what it reads depends on where it meets a character that
it does not understand.

The lemmas say what it does with a plain sequence of digits that is followed by
something else, with one that the memory ends with, and with whatever stands in
front of a NUL.
-/

import MmtProbe.Math.Bytes
import MmtProbe.Math.Decimal

namespace MmtProbe.Math

/-- The value of a hexadecimal digit, which may be a small letter. -/
def hexDigitValue (byte : UInt8) : Option Nat :=
  if isDigit byte then some (byte.toNat - 48)
  else if 65 ≤ byte ∧ byte ≤ 70 then some (byte.toNat - 55)
  else if 97 ≤ byte ∧ byte ≤ 102 then some (byte.toNat - 87)
  else none

/-- `isxdigit` -/
def isHex (byte : UInt8) : Bool := (hexDigitValue byte).isSome

/-- The number that a sequence of digits stands for. -/
def hexNumber (bytes : List UInt8) : Nat :=
  bytes.foldl (fun value byte => 16 * value + (hexDigitValue byte).getD 0) 0

/-- The letter of the prefix `0x`. -/
def isPrefixLetter (byte : UInt8) : Bool := byte == 120 || byte == 88

/-- The address of the first digit, behind a prefix. The prefix counts only when a digit
follows it; otherwise its `0` is the number. -/
def skipHexPrefix (memory : List UInt8) (address : Nat) : Except Fault Nat := do
  let first ← load memory address
  if first = 48 then do
    let second ← load memory (address + 1)
    if isPrefixLetter second then do
      let third ← load memory (address + 2)
      return if isHex third then address + 2 else address
    else return address
  else return address

/-- A number in the range of `long`. -/
def clampLong (value : Int) : Int := max (-2 ^ 63) (min (2 ^ 63 - 1) value)

/-- `strtol` in base 16: the number, and the address of the first character behind it. Where
there is no number, the address is the one that was given. -/
def strtolHex (memory : List UInt8) (start : Nat) : Except Fault (Int × Nat) := do
  let address ← scan (fun byte => !isSpace byte) memory start
  let sign ← load memory address
  let digits ← skipHexPrefix memory (if sign = 45 ∨ sign = 43 then address + 1 else address)
  let stop ← scan (fun byte => !isHex byte) memory digits
  let value := hexNumber ((memory.drop digits).take (stop - digits))
  return if stop = digits then (0, start)
    else (clampLong (if sign = 45 then -value else value), stop)

/-! ## The classes of characters -/

/-- A digit is not read as anything else. -/
theorem plain_of_isHex : ∀ {byte : UInt8}, isHex byte = true →
    isSpace byte = false ∧ byte ≠ 45 ∧ byte ≠ 43 ∧ isPrefixLetter byte = false := by
  have hall : ∀ n < 256, isHex (UInt8.ofNat n) = true →
      isSpace (UInt8.ofNat n) = false ∧ UInt8.ofNat n ≠ 45 ∧ UInt8.ofNat n ≠ 43 ∧
        isPrefixLetter (UInt8.ofNat n) = false := by decide +kernel
  intro byte hhex
  have hbyte := hall byte.toNat byte.toNat_lt
  rw [UInt8.ofNat_toNat] at hbyte
  exact hbyte hhex

/-! ## Sequences of digits -/

section Digits

variable {before text after : List UInt8} {byte : UInt8}

/-- The first digit is the first character that is looked at. -/
theorem scan_isSpace_digits (before after : List UInt8) (given : text ≠ [])
    (digits : ∀ b ∈ text, isHex b = true) :
    scan (fun b => !isSpace b) (before ++ (text ++ after)) before.length =
      .ok before.length := by
  obtain ⟨first, others, rfl⟩ := List.exists_cons_of_ne_nil given
  have hfirst := (plain_of_isHex (digits first List.mem_cons_self)).1
  have hscan : scan (fun b => !isSpace b) (before ++ ([] ++ first :: (others ++ after)))
      before.length = .ok (before.length + 0) :=
    scan_append (fun b hb => absurd hb List.not_mem_nil) (by simp [hfirst])
  exact hscan

/-- Digits have no prefix, when something follows them that is not the letter of one. -/
theorem skipHexPrefix_digits (before after : List UInt8) (given : text ≠ [])
    (digits : ∀ b ∈ text, isHex b = true) (stops : isPrefixLetter byte = false) :
    skipHexPrefix (before ++ (text ++ byte :: after)) before.length = .ok before.length := by
  obtain ⟨first, others, rfl⟩ := List.exists_cons_of_ne_nil given
  have hfirst : load (before ++ (first :: others ++ byte :: after)) before.length = .ok first :=
    load_append _ _ _
  obtain ⟨second, hsecond, hletter⟩ : ∃ second,
      load (before ++ (first :: others ++ byte :: after)) (before.length + 1) = .ok second ∧
        isPrefixLetter second = false := by
    cases others with
    | nil => exact ⟨byte, by simpa using load_append_append before [first] after byte, stops⟩
    | cons second others =>
        refine ⟨second, ?_, (plain_of_isHex (digits second (by simp))).2.2.2⟩
        simpa using load_append_append before [first] (others ++ byte :: after) second
  rw [skipHexPrefix, hfirst, bind_ok]
  by_cases hzero : first = 48
  · rw [if_pos hzero, hsecond, bind_ok, hletter]
    rfl
  · rw [if_neg hzero]
    rfl

/-- Digits that are followed by something else are read as their number. -/
theorem strtolHex_digits (given : text ≠ []) (digits : ∀ b ∈ text, isHex b = true)
    (stops : isHex byte = false) (noPrefix : isPrefixLetter byte = false) :
    strtolHex (before ++ (text ++ byte :: after)) before.length =
      .ok (clampLong (hexNumber text), before.length + text.length) := by
  have hscan := scan_isSpace_digits before (byte :: after) given digits
  have hprefix := skipHexPrefix_digits before after given digits noPrefix
  obtain ⟨sign, hsign, hminus, hplus⟩ : ∃ sign,
      load (before ++ (text ++ byte :: after)) before.length = .ok sign ∧ sign ≠ 45 ∧
        sign ≠ 43 := by
    obtain ⟨first, others, rfl⟩ := List.exists_cons_of_ne_nil given
    have hfirst := plain_of_isHex (digits first List.mem_cons_self)
    exact ⟨first, load_append _ _ _, hfirst.2.1, hfirst.2.2.1⟩
  have hstop : scan (fun b => !isHex b) (before ++ (text ++ byte :: after)) before.length =
      .ok (before.length + text.length) :=
    scan_append (fun b hb => by simp [digits b hb]) (by simp [stops])
  have hlength : text.length ≠ 0 := fun h => given (List.length_eq_zero_iff.mp h)
  rw [strtolHex, hscan, bind_ok, hsign, bind_ok, if_neg (by simp [hminus, hplus]), hprefix,
    bind_ok, hstop, bind_ok]
  simp [hlength, hminus, pure, Except.pure]

/-- Digits that the memory ends with are not read to their end. -/
theorem strtolHex_digits_end (given : text ≠ []) (digits : ∀ b ∈ text, isHex b = true) :
    strtolHex (before ++ text) before.length = .error (.load (before.length + text.length)) := by
  have hscan := scan_isSpace_digits before [] given digits
  rw [List.append_nil] at hscan
  have hstop : scan (fun b => !isHex b) (before ++ text) before.length =
      .error (.load (before.length + text.length)) :=
    scan_append_end fun b hb => by simp [digits b hb]
  obtain ⟨first, others, rfl⟩ := List.exists_cons_of_ne_nil given
  have hfirst := plain_of_isHex (digits first List.mem_cons_self)
  have hload : load (before ++ first :: others) before.length = .ok first := load_append _ _ _
  rw [strtolHex, hscan, bind_ok, hload, bind_ok, if_neg (by simp [hfirst.2.1, hfirst.2.2.1]),
    skipHexPrefix, hload, bind_ok]
  by_cases hzero : first = 48
  · cases others with
    | nil => simp [hzero, load, bind, Except.bind]
    | cons second others =>
        have hsecond : load (before ++ first :: second :: others) (before.length + 1) =
            .ok second := by
          simpa using load_append_append before [first] others second
        have hletter := (plain_of_isHex (digits second (by simp))).2.2.2
        rw [if_pos hzero, hsecond, bind_ok, hletter, if_neg Bool.false_ne_true]
        simp [hstop, pure, Except.pure, bind, Except.bind]
  · rw [if_neg hzero]
    simp [hstop, pure, Except.pure, bind, Except.bind]

end Digits

/-! ## Texts that end with a NUL -/

section Terminated

variable {memory : List UInt8} {address last : Nat}

/-- A prefix is skipped in front of a NUL. -/
theorem exists_skipHexPrefix (ahead : address ≤ last) (terminated : memory[last]? = some 0) :
    ∃ digits, skipHexPrefix memory address = .ok digits ∧ address ≤ digits ∧ digits ≤ last := by
  obtain ⟨first, hfirst, hfirstAt⟩ := exists_load ahead terminated
  rw [skipHexPrefix, hfirst, bind_ok]
  by_cases hzero : first = 48
  · rw [if_pos hzero]
    have hsecondAhead : address + 1 ≤ last :=
      lt_of_ne_nul ahead terminated hfirstAt (by rw [hzero]; decide)
    obtain ⟨second, hsecond, hsecondAt⟩ := exists_load hsecondAhead terminated
    rw [hsecond, bind_ok]
    by_cases hletter : isPrefixLetter second = true
    · rw [if_pos hletter]
      have hthirdAhead : address + 2 ≤ last := by
        refine lt_of_ne_nul hsecondAhead terminated hsecondAt ?_
        rintro rfl
        exact absurd hletter (by decide)
      obtain ⟨third, hthird, -⟩ := exists_load hthirdAhead terminated
      rw [hthird, bind_ok]
      by_cases hdigit : isHex third = true
      · exact ⟨address + 2, by rw [if_pos hdigit]; rfl, by omega, hthirdAhead⟩
      · exact ⟨address, by rw [if_neg hdigit]; rfl, Nat.le_refl _, ahead⟩
    · rw [if_neg hletter]
      exact ⟨address, rfl, Nat.le_refl _, ahead⟩
  · rw [if_neg hzero]
    exact ⟨address, rfl, Nat.le_refl _, ahead⟩

/-- In front of a NUL a number is read without going beyond it, and only a number that is
there is not zero. -/
theorem exists_strtolHex (ahead : address ≤ last) (terminated : memory[last]? = some 0) :
    ∃ value stop, strtolHex memory address = .ok (value, stop) ∧ address ≤ stop ∧ stop ≤ last ∧
      (value ≠ 0 → address < stop) := by
  obtain ⟨place, hplace, hlow, hhigh⟩ := exists_scan (fun b => !isSpace b) ahead terminated
    (by decide)
  obtain ⟨sign, hsign, hsignAt⟩ := exists_load hhigh terminated
  obtain ⟨first, hfirst, hfirstLow, hfirstHigh⟩ : ∃ first,
      (if sign = 45 ∨ sign = 43 then place + 1 else place) = first ∧ place ≤ first ∧
        first ≤ last := by
    by_cases hmark : sign = 45 ∨ sign = 43
    · refine ⟨place + 1, if_pos hmark, Nat.le_succ _, lt_of_ne_nul hhigh terminated hsignAt ?_⟩
      rintro rfl
      exact absurd hmark (by decide)
    · exact ⟨place, if_neg hmark, Nat.le_refl _, hhigh⟩
  obtain ⟨digits, hdigits, hdigitsLow, hdigitsHigh⟩ := exists_skipHexPrefix hfirstHigh terminated
  obtain ⟨stop, hstop, hstopLow, hstopHigh⟩ :=
    exists_scan (fun b => !isHex b) hdigitsHigh terminated (by decide)
  rw [strtolHex, hplace, bind_ok, hsign, bind_ok, hfirst, hdigits, bind_ok, hstop, bind_ok]
  dsimp only
  by_cases hnone : stop = digits
  · exact ⟨0, address, by rw [if_pos hnone]; rfl, Nat.le_refl _, ahead, fun h => absurd rfl h⟩
  · refine ⟨_, stop, by rw [if_neg hnone]; rfl, by omega, hstopHigh, fun _ => ?_⟩
    omega

end Terminated

/-! ## Bytes in two digits

A byte is printed as two lower-case digits, and two digits of any case stand for a byte.
Comparing a text with the printed one is more than comparing what they stand for.
-/

/-- A printed digit. -/
def lowerHexDigit (n : Nat) : UInt8 := UInt8.ofNat (if n < 10 then 48 + n else 87 + n)

/-- A byte that is printed with `%.2x`. -/
def lowerHexByte (byte : UInt8) : List UInt8 :=
  [lowerHexDigit (byte.toNat / 16), lowerHexDigit (byte.toNat % 16)]

/-- The byte that two digits stand for. -/
def hexPairValue (pair : UInt8 × UInt8) : Option UInt8 :=
  (hexDigitValue pair.1).bind fun high =>
    (hexDigitValue pair.2).map fun low => UInt8.ofNat (16 * high + low)

/-- An upper-case letter. -/
def isUpper (byte : UInt8) : Bool := 65 ≤ byte && byte ≤ 90

theorem eq_lowerHexDigit_iff {n : Nat} (small : n < 16) (byte : UInt8) :
    byte = lowerHexDigit n ↔ hexDigitValue byte = some n ∧ isUpper byte = false := by
  have hall : ∀ code < 256, ∀ n < 16, UInt8.ofNat code = lowerHexDigit n ↔
      hexDigitValue (UInt8.ofNat code) = some n ∧ isUpper (UInt8.ofNat code) = false := by
    decide +kernel
  have hbyte := hall byte.toNat byte.toNat_lt n small
  rwa [UInt8.ofNat_toNat] at hbyte

theorem hexDigitValue_lt {byte : UInt8} {n : Nat} (digit : hexDigitValue byte = some n) :
    n < 16 := by
  have hall : ∀ code < 256, ∀ n ∈ hexDigitValue (UInt8.ofNat code), n < 16 := by decide +kernel
  have hbyte := hall byte.toNat byte.toNat_lt n
  rw [UInt8.ofNat_toNat] at hbyte
  exact hbyte digit

/-- Two characters are the printed byte when they stand for it and are not upper-case. -/
theorem pair_eq_lowerHexByte_iff (pair : UInt8 × UInt8) (byte : UInt8) :
    [pair.1, pair.2] = lowerHexByte byte ↔
      hexPairValue pair = some byte ∧ isUpper pair.1 = false ∧ isUpper pair.2 = false := by
  have hlt : byte.toNat < 256 := byte.toNat_lt
  have hvalue : hexPairValue pair = some byte ↔
      hexDigitValue pair.1 = some (byte.toNat / 16) ∧
        hexDigitValue pair.2 = some (byte.toNat % 16) := by
    unfold hexPairValue
    rw [Option.bind_eq_some_iff]
    constructor
    · rintro ⟨high, hhigh, hpair⟩
      rcases Option.map_eq_some_iff.mp hpair with ⟨low, hlow, rfl⟩
      have hhighLt := hexDigitValue_lt hhigh
      have hlowLt := hexDigitValue_lt hlow
      rw [UInt8.toNat_ofNat_of_lt' (by change _ < 256; omega), hhigh, hlow]
      exact ⟨congrArg some (by omega), congrArg some (by omega)⟩
    · rintro ⟨hhigh, hlow⟩
      refine ⟨_, hhigh, ?_⟩
      rw [hlow, Option.map_some, Nat.div_add_mod, UInt8.ofNat_toNat]
  rw [hvalue, lowerHexByte, List.cons_eq_cons, List.cons_eq_cons,
    eq_lowerHexDigit_iff (by omega), eq_lowerHexDigit_iff (by omega)]
  tauto

end MmtProbe.Math
