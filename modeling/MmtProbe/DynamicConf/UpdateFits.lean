/-
# Every update command fits into a message of the bus

A parameter is packed into four bytes, its value and a NUL, and stands in the text
with its name, the separator and the end of its line.  No name is shorter than seven
characters, so packing never makes a line longer: what was received in a buffer of
the size of a `command_t` is packed into one.

The server tells its client about two of the codes of `mmt_bus_publish` only; that a
message is too long is not one of them.
-/

import MmtProbe.DynamicConf.UpdateCommand
import MmtProbe.DynamicConf.Bus

namespace MmtProbe.DynamicConf

open MmtProbe.Math

/-! ## The answer of the bus -/

/-- `mmt_bus_code_t` -/
inductive BusCode where
  | success
  | lockError
  | overMsgSize
  | noInit
  | oldMsgNoConsume
deriving DecidableEq, Repr

/-- What `mmt_bus_publish` returns to a publisher that does not wait: `bus` is `none`
before `mmt_bus_create`, and `locked` says whether the mutex was taken. -/
def publishCode (bus : Option Bus) (locked : Bool) (messageSize : Nat) : BusCode :=
  match bus with
  | none => .noInit
  | some bus =>
      if messageSize > busMaxMessageSize then .overMsgSize
      else if ¬locked then .lockError
      else if bus.replyCode ≠ replyDoNothing then .success
      else .oldMsgNoConsume

/-- The field `parameter_length` of a `command_t`, from what the parser returned. -/
def parameterLength (ret : Nat) : UInt16 := UInt16.ofNat ret

theorem publishCode_ne_overMsgSize {messageSize : Nat} (fits : messageSize ≤ busMaxMessageSize)
    (bus : Option Bus) (locked : Bool) : publishCode bus locked messageSize ≠ .overMsgSize := by
  cases bus with
  | none => nofun
  | some bus =>
      rw [publishCode, if_neg (Nat.not_lt.mpr fits)]
      split_ifs <;> nofun

/-! ## The counter of 16 bits -/

variable {build : Build} {line : List UInt8} {lines : List (List UInt8)}

/-- What a scan that stops has found. -/
theorem exists_of_scan {stop : UInt8 → Bool} {memory : List UInt8} {address ended : Nat}
    (stopped : scan stop memory address = .ok ended) :
    ∃ body byte after, memory.drop address = body ++ byte :: after ∧
      (∀ b ∈ body, stop b = false) ∧ stop byte = true ∧ ended = address + body.length := by
  rw [scan] at stopped
  generalize memory.drop address = bytes at stopped
  induction bytes generalizing address with
  | nil => cases stopped
  | cons byte bytes ih =>
      rw [scanBytes] at stopped
      by_cases hbyte : stop byte = true
      · rw [if_pos hbyte] at stopped
        cases stopped
        exact ⟨[], byte, bytes, rfl, by simp, hbyte, rfl⟩
      · rw [if_neg hbyte] at stopped
        rcases ih stopped with ⟨body, last, after, rfl, hbody, hlast, rfl⟩
        refine ⟨byte :: body, last, after, rfl, ?_, hlast, ?_⟩
        · rw [List.forall_mem_cons]
          exact ⟨by simpa using hbyte, hbody⟩
        · rw [List.length_cons]
          omega

/-- In a block that is not larger than the receive buffer, the characters of a value and
their NUL are counted without a wrap. -/
theorem countValue_exact {memory : List UInt8} {valStr ended : Nat}
    (short : memory.length ≤ bufferSize)
    (stopped : scan (· == newLine) memory valStr = .ok ended) :
    ended - valStr + 1 < 2 ^ 16 ∧
      countValue memory valStr (memory.length + 1) 0 = .ok (UInt16.ofNat (ended - valStr)) := by
  rcases exists_of_scan stopped with ⟨value, byte, after, hdrop, hvalue, hbyte, rfl⟩
  have hsingle : newLine ∉ value := fun listed => by simpa using hvalue newLine listed
  have hnewLine : byte = newLine := by simpa using hbyte
  have hlength := congrArg List.length hdrop
  rw [List.length_drop, List.length_append, List.length_cons] at hlength
  have hbefore : (memory.take valStr).length = valStr := by
    rw [List.length_take]
    omega
  have hmemory : memory = memory.take valStr ++ ([] ++ (value ++ newLine :: after)) := by
    rw [List.nil_append, ← hnewLine, ← hdrop, List.take_append_drop]
  have hnarrow : value.length + 1 < 2 ^ 16 := by
    simp only [bufferSize, cmdParamMaxLength] at short
    omega
  have hcount := countValue_eq (memory.take valStr) [] after hsingle
    (show ([] : List UInt8).length + value.length < 2 ^ 16 by simp; omega)
    (show value.length < memory.length + 1 by omega)
  rw [← hmemory, hbefore] at hcount
  rw [Nat.add_sub_cancel_left]
  exact ⟨hnarrow, by simpa using hcount⟩

/-! ## The packed parameters -/

theorem parseLine_ne_hugeValue : parseLine build line ≠ .error .hugeValue := by
  rw [parseLine]
  cases line.dropWhile (· != equalSign) with
  | nil => simp
  | cons separator value =>
      cases confGetIdentityFromString build (cstring (identPart line)) with
      | none => simp
      | some identity =>
          simp only []
          split_ifs
          · simp
          · simp
          · cases confValidateDataValue identity (cstring value) with
            | some reason => simp
            | none => simp

theorem parseLines_ne_hugeValue : parseLines build lines ≠ .error .hugeValue := by
  induction lines with
  | nil => nofun
  | cons line lines ih =>
      have hline : parseLine build line ≠ .error .hugeValue := parseLine_ne_hugeValue
      rw [parseLines]
      cases hparse : parseLine build line with
      | error reason =>
          rw [hparse] at hline
          simpa using hline
      | ok param =>
          by_cases hend : atEnd lines = true
          · simp [hend]
          · simp only [hend]
            cases hrest : parseLines build lines with
            | error reason =>
                rw [hrest] at ih
                simpa [Except.map] using ih
            | ok params => simp [Except.map]

/-- What the parser returns when it stays inside the received bytes. -/
theorem parseUpdate_result {text : List UInt8} {result : Except UpdateError (List UInt8)}
    (short : text.length + 7 ≤ bufferSize) (inside : parseUpdate build text = .ok result) :
    result ≠ .error .hugeValue ∧
      ∀ parameter, result = .ok parameter → parameter.length ≤ cmdParamMaxLength := by
  rcases text_cases text with hbare | rfl | ⟨skipped, body, rfl, hlast⟩ | rfl |
    ⟨skipped, line, lines, rfl, hsingle⟩
  · rw [parseUpdate_bare short hbare] at inside
    cases inside
    exact ⟨nofun, nofun⟩
  · rw [parseUpdate_braces] at inside
    cases inside
    exact ⟨nofun, nofun⟩
  · simp only [List.length_cons, List.length_append, List.length_nil] at short
    rw [parseUpdate_surrounded (by omega), if_neg hlast] at inside
    cases inside
    exact ⟨nofun, nofun⟩
  · rw [parseUpdate_empty] at inside
    cases inside
  · simp only [List.length_cons, List.length_append, List.length_nil] at short
    rw [parseUpdate_lines hsingle (by omega)] at inside
    cases hparse : parseLines build (line :: lines) with
    | error reason =>
        have hreason : reason ≠ .hugeValue := fun h => parseLines_ne_hugeValue (h ▸ hparse)
        rw [hparse] at inside
        cases inside
        exact ⟨by simpa [Except.map] using hreason, nofun⟩
    | ok params =>
        have hle := length_flatMap_pack_le (parseLines_eq_ok_iff.mp hparse)
        have htaken := length_unlines_taken_le line lines
        rw [hparse] at inside
        cases inside
        refine ⟨nofun, ?_⟩
        intro parameter hparameter
        cases hparameter
        simp only [bufferSize] at short
        exact Nat.le_trans hle (by omega)

/-- An update command that was received completely, and on which the parser reads no other
bytes, is never refused for its size: no length of 16 bits wraps, and the message is one
the bus takes. -/
theorem update_fits_bus (build : Build) (received : List UInt8)
    (fits : received.length ≤ bufferSize) (isUpdate : isCmd (terminate received) "update" = true)
    {result : Except UpdateError (List UInt8)}
    (inside : parseUpdateParameters build (terminate received) 6
      ((terminate received).length - 6) cmdParamMaxLength = .ok result) :
    result ≠ .error .hugeValue ∧
      -- the bytes are changed in place, so that every state of the loop has this length
      (∀ memory valStr ended, memory.length = received.length →
        scan (· == newLine) memory valStr = .ok ended →
          ended - valStr + 1 < 2 ^ 16 ∧
            countValue memory valStr (memory.length + 1) 0 = .ok (UInt16.ofNat (ended - valStr))) ∧
      ∀ parameter, result = .ok parameter →
        (parameterLength parameter.length).toNat = parameter.length ∧
          4 + parameter.length ≤ busMaxMessageSize ∧
          ∀ bus locked, publishCode bus locked (4 + (parameterLength parameter.length).toNat) ≠
            .overMsgSize := by
  have hfilled : 1 ≤ received.length := by
    cases received with
    | nil => cases isUpdate
    | cons byte received => simp
  have hterminate := terminate_eq hfilled isUpdate
  have hlength : (terminate received).length = received.length := List.length_set
  have htext : (updateText received).length + 7 = received.length := by
    rw [← hlength, hterminate, List.length_append, length_update, List.length_append,
      List.length_singleton]
    omega
  have hparse : parseUpdate build (updateText received) = .ok result := by
    rw [hterminate, List.length_append, length_update, Nat.add_sub_cancel_left,
      List.length_append] at inside
    rw [parseUpdate, length_update]
    exact inside
  rcases parseUpdate_result (by omega) hparse with ⟨hreason, hparameter⟩
  refine ⟨hreason, ?_, ?_⟩
  · intro memory valStr ended hmemory hstopped
    exact countValue_exact (by omega) hstopped
  · intro parameter hresult
    have hle := hparameter parameter hresult
    have hcounted : (parameterLength parameter.length).toNat = parameter.length := by
      apply UInt16.toNat_ofNat_of_lt'
      simp only [cmdParamMaxLength] at hle
      exact Nat.lt_of_le_of_lt hle (by decide)
    have hmessage : 4 + parameter.length ≤ busMaxMessageSize := by
      simp only [busMaxMessageSize, bufferSize]
      omega
    refine ⟨hcounted, hmessage, ?_⟩
    intro bus locked
    rw [hcounted]
    exact publishCode_ne_overMsgSize hmessage bus locked

/-- The command `update{`, with a number and a text behind it. -/
def twoLines : List UInt8 :=
  bytesOf "update\x7b\nprobe-id=1\nfile-output.output-file=data.csv\n\x7d\x00"

theorem update_fits_bus_twoLines :
    ∃ parameter, parseUpdateParameters (fun _ => false) (terminate twoLines) 6 48
        cmdParamMaxLength = .ok (.ok parameter) ∧
      (parameterLength parameter.length).toNat = parameter.length ∧
      4 + parameter.length ≤ busMaxMessageSize := by
  have hinside : parseUpdateParameters (fun _ => false) (terminate twoLines) 6 48
      cmdParamMaxLength = .ok (.ok ([1, 0, 2, 0, 49, 0] ++
        [18, 0, 9, 0, 100, 97, 116, 97, 46, 99, 115, 118, 0])) := by decide +kernel
  have hfits := update_fits_bus (fun _ => false) twoLines (by decide) (by decide) hinside
  exact ⟨_, hinside, (hfits.2.2 _ rfl).1, (hfits.2.2 _ rfl).2.1⟩

end MmtProbe.DynamicConf
