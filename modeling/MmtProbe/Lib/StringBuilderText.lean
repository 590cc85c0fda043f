/-
# What the string builder writes

Every element has a text that depends on the room it is given: a number that does
not fit is left out, a string is cut, and a time loses its microseconds.  The
result about `Field.append` says that this text, and nothing else, is written; the
result about `build` puts the texts of several elements together.  Both need only
that the room lies inside the buffer.
-/

import MmtProbe.Lib.StringBuilder
import Mathlib.Tactic.SplitIfs

namespace MmtProbe.Lib

open MmtProbe.Math MmtProbe.Dpi

/-! ## The text of an element -/

/-- A number is written completely or not at all. -/
def numberText (room val : Nat) : List UInt8 := if digitCount val ≤ room then decimal val else []

/-- A string between quotes, cut when it does not fit. -/
def quotedText (room : Nat) (src : List UInt8) : List UInt8 :=
  if room < 2 then [] else 34 :: (src.take (room - 2) ++ [34])

/-- The four numbers of an IPv4 address. -/
def ipText (ip : UInt32) : List UInt8 :=
  decimal (ipByte ip 0).toNat ++ [46] ++ decimal (ipByte ip 1).toNat ++ [46] ++
    decimal (ipByte ip 2).toNat ++ [46] ++ decimal (ipByte ip 3).toNat

/-- The six digits behind the point of a time. -/
def microText (usec : UInt64) : List UInt8 :=
  if usec.toNat < 10 ^ 6 then fixed 6 usec.toNat else fixed 6 0

/-- A time; `none` stands for the assertion on the number of digits of the seconds. -/
def timeText (room : Nat) (t : Timeval) : Option (List UInt8) :=
  if room < 12 then some []
  else
    let seconds := numberText room (UInt64.ofInt t.tvSec).toNat
    if seconds.length > 12 then none
    else if room < seconds.length + 7 then some seconds
    else some (seconds ++ 46 :: microText (UInt64.ofInt t.tvUsec))

/-- The seconds of a time as the unsigned number they are printed as. -/
def seconds (ts : Timeval) : Nat := (UInt64.ofInt ts.tvSec).toNat

/-- The assertion of `append_timeval` stops the process: more than twelve digits, in a
room that holds them. -/
def TimeStops (room : Nat) (ts : Timeval) : Prop :=
  12 ≤ room ∧ 12 < digitCount (seconds ts) ∧ digitCount (seconds ts) ≤ room

instance (room : Nat) (ts : Timeval) : Decidable (TimeStops room ts) :=
  inferInstanceAs (Decidable (_ ∧ _ ∧ _))

/-- The characters of a number that is given some room. -/
def numberLength (room n : Nat) : Nat := if digitCount n ≤ room then digitCount n else 0

/-- What an element writes into a room. -/
def Field.text (room : Nat) : Field → Option (List UInt8)
  | arr src => some (src.bytes.take room)
  | str src => some (quotedText room src.bytes)
  | int val => some (numberText room val.toNat)
  | char c => some (if room = 0 then [] else [c])
  | time t => timeText room t
  | hex val => some (if room < 2 then [] else hexText val)
  | mac t => some (if room < 19 then [] else 34 :: (macDigits t ++ [34]))
  | ipv4 ip => some (if room < 16 then [] else ipText ip)

theorem length_numberText (room n : Nat) :
    (numberText room n).length = numberLength room n := by
  rw [numberText, numberLength]
  split_ifs <;> simp

theorem length_numberText_le (room val : Nat) : (numberText room val).length ≤ room := by
  rw [numberText]
  split_ifs with hfew
  · simpa using hfew
  · simp

@[simp]
theorem length_microText (usec : UInt64) : (microText usec).length = 6 := by
  rw [microText]
  split_ifs <;> exact length_fixed _ _

theorem notMem_microText {byte : UInt8} (notDigit : isDigit byte = false) (usec : UInt64) :
    byte ∉ microText usec := by
  rw [microText]
  split_ifs <;> exact notMem_fixed notDigit _ _

theorem timeText_eq_none_iff {room : Nat} {ts : Timeval} :
    timeText room ts = none ↔ TimeStops room ts := by
  have hlength := length_numberText room (UInt64.ofInt ts.tvSec).toNat
  simp only [timeText, TimeStops, seconds, hlength, numberLength]
  split_ifs <;> simp <;> omega

theorem length_timeText_le {room : Nat} {t : Timeval} {text : List UInt8}
    (written : timeText room t = some text) : text.length ≤ room := by
  have hle := length_numberText_le room (UInt64.ofInt t.tvSec).toNat
  simp only [timeText] at written
  split_ifs at written with hroom hlong htight
  · cases written
    simp
  · cases written
    exact hle
  · cases written
    rw [List.length_append, List.length_cons, length_microText]
    omega

/-! ## One element -/

variable {memory : List UInt8} {dst room : Nat}

theorem appendChar_eq (fits : dst + room ≤ memory.length) (c : UInt8) :
    let text := if room = 0 then [] else [c]
    appendChar memory dst room c = .ok (text.length, splice memory dst text) := by
  by_cases hroom : room = 0
  · simp [appendChar, hroom]
  · simp only [appendChar, if_neg hroom, store_eq_splice (show dst < memory.length by omega),
      bind_ok]
    rfl

theorem appendStringWithoutQuote_eq (fits : dst + room ≤ memory.length) (src : CString) :
    appendStringWithoutQuote memory dst room src =
      .ok ((src.bytes.take room).length, splice memory dst (src.bytes.take room)) := by
  by_cases hroom : room = 0
  · simp [appendStringWithoutQuote, hroom]
  · have hsize : (if src.bytes.length > room then room else src.bytes.length) =
        (src.bytes.take room).length := by
      rw [List.length_take]
      split_ifs <;> omega
    have htake : src.bytes.take (src.bytes.take room).length = src.bytes.take room := by
      rw [List.length_take, List.take_eq_take_iff]
      omega
    have hfits : dst + (src.bytes.take room).length ≤ memory.length := by
      rw [List.length_take]
      omega
    simp only [appendStringWithoutQuote, if_neg hroom, hsize, htake,
      storeBytes_eq_splice hfits, bind_ok]
    rfl

theorem appendString_eq (fits : dst + room ≤ memory.length) (src : CString) :
    appendString memory dst room src =
      .ok ((quotedText room src.bytes).length, splice memory dst (quotedText room src.bytes)) := by
  by_cases hsmall : room < 2
  · simp [appendString, quotedText, hsmall]
  · have hopen : store memory dst 34 = .ok (splice memory dst [34]) :=
      store_eq_splice (by omega) _
    by_cases htwo : room = 2
    · subst htwo
      have hclose : store (splice memory dst [34]) (dst + 1) 34 =
          .ok (splice memory dst [34, 34]) :=
        store_splice [34] fits 34
      simp only [appendString, if_neg hsmall, if_true, hopen, bind_ok, hclose]
      rfl
    · have hsize : (if src.bytes.length > room - 2 then room - 2 else src.bytes.length) =
          (src.bytes.take (room - 2)).length := by
        rw [List.length_take]
        split_ifs <;> omega
      have htake : src.bytes.take (src.bytes.take (room - 2)).length =
          src.bytes.take (room - 2) := by
        rw [List.length_take, List.take_eq_take_iff]
        omega
      have hle : (src.bytes.take (room - 2)).length ≤ room - 2 := List.length_take_le _ _
      simp only [appendString, if_neg hsmall, if_neg htwo, hsize, htake, hopen, bind_ok]
      have hquoted : quotedText room src.bytes = 34 :: (src.bytes.take (room - 2) ++ [34]) :=
        if_neg hsmall
      rw [hquoted]
      generalize src.bytes.take (room - 2) = body at hle ⊢
      have hbody : (if body.length ≠ 0 then storeBytes (splice memory dst [34]) (dst + 1) body
          else .ok (splice memory dst [34])) = .ok (splice memory dst (34 :: body)) := by
        have hlength : (splice memory dst [34]).length = memory.length :=
          length_splice (by rw [List.length_singleton]; omega)
        have hwrite : storeBytes (splice memory dst [34]) (dst + 1) body =
            .ok (splice memory dst (34 :: body)) := by
          rw [storeBytes_eq_splice (by omega)]
          exact congrArg _ (splice_splice (x := [34]) (by rw [List.length_singleton]; omega))
        by_cases hempty : body.length ≠ 0
        · rw [if_pos hempty, hwrite]
        · have hnil : body = [] := List.length_eq_zero_iff.mp (by omega)
          rw [hnil, if_neg (by simp)]
      have hclose : store (splice memory dst (34 :: body)) (dst + (body.length + 1)) 34 =
          .ok (splice memory dst (34 :: (body ++ [34]))) :=
        store_splice (34 :: body) (by rw [List.length_cons]; omega) 34
      rw [hbody, bind_ok, hclose]
      simp [bind, Except.bind, pure, Except.pure]

theorem load_hexDigits : ∀ n < 16, load (bytesOf "0123456789ABCDEF") n = .ok (hexDigit n) := by
  decide +kernel

theorem appendHex_eq (enough : 2 ≤ room) (fits : dst + room ≤ memory.length) (val : UInt8) :
    appendHex memory dst room val = .ok (2, splice memory dst (hexText val)) := by
  have hhigh : val.toNat / 2 ^ 4 < 16 := by
    have := val.toNat_lt
    omega
  have hlow : val.toNat % 2 ^ 4 < 16 := Nat.mod_lt _ (by decide)
  have hsecond : store (splice memory dst [hexDigit (val.toNat / 2 ^ 4)]) (dst + 1)
      (hexDigit (val.toNat % 2 ^ 4)) = .ok (splice memory dst (hexText val)) :=
    store_splice [hexDigit (val.toNat / 2 ^ 4)] (by rw [List.length_singleton]; omega) _
  simp only [appendHex, if_neg (show ¬room < 2 by omega), load_hexDigits _ hhigh,
    load_hexDigits _ hlow, store_eq_splice (show dst < memory.length by omega), bind_ok, hsecond]
  rfl

theorem appendMacByte_eq {text : List UInt8} (fits : dst + (text.length + 3) ≤ memory.length)
    (val next : UInt8) :
    appendMacByte dst val next (text.length, splice memory dst text) =
      .ok ((text ++ hexText val ++ [next]).length,
        splice memory dst (text ++ hexText val ++ [next])) := by
  have hlength : (splice memory dst text).length = memory.length := length_splice (by omega)
  have hhex : appendHex (splice memory dst text) (dst + text.length) 2 val =
      .ok (2, splice memory dst (text ++ hexText val)) := by
    rw [appendHex_eq (Nat.le_refl 2) (by omega), splice_splice]
    simp only [hexText, List.length_cons, List.length_nil]
    omega
  have hsum : (text ++ hexText val).length = text.length + 2 := by simp [hexText]
  have hnext : store (splice memory dst (text ++ hexText val)) (dst + (text.length + 2)) next =
      .ok (splice memory dst (text ++ hexText val ++ [next])) := by
    rw [← hsum]
    exact store_splice _ (by omega) next
  simp only [appendMacByte, hhex, bind_ok, hnext]
  simp [pure, Except.pure, hexText]

theorem appendMac_eq (fits : dst + room ≤ memory.length) (t : Vector UInt8 6) :
    let text := if room < 19 then [] else 34 :: (macDigits t ++ [34])
    appendMac memory dst room t = .ok (text.length, splice memory dst text) := by
  by_cases hroom : room < 19
  · simp [appendMac, hroom]
  · have hopen : store memory dst 34 = .ok (splice memory dst [34]) :=
      store_eq_splice (by omega) _
    -- each byte is written behind the text so far, whose length is known
    have hbyte : ∀ (text : List UInt8) (val next : UInt8), text.length ≤ 16 →
        appendMacByte dst val next (text.length, splice memory dst text) =
          .ok ((text ++ hexText val ++ [next]).length,
            splice memory dst (text ++ hexText val ++ [next])) := fun text val next short =>
      appendMacByte_eq (by omega) val next
    simp only [appendMac, if_neg hroom, hopen, bind_ok]
    rw [show (1, splice memory dst [34]) = ([(34 : UInt8)].length, splice memory dst [34]) from rfl,
      hbyte _ _ _ (by simp), bind_ok, hbyte _ _ _ (by simp [hexText]), bind_ok,
      hbyte _ _ _ (by simp [hexText]), bind_ok, hbyte _ _ _ (by simp [hexText]), bind_ok,
      hbyte _ _ _ (by simp [hexText]), bind_ok, hbyte _ _ _ (by simp [hexText])]
    simp [macDigits]

/-! ## Numbers -/

theorem numberSize_bounds {val : Nat} (large : 10 ≤ val) (fits : val < 2 ^ 64) :
    10 ^ (numberSize val - 1) ≤ val ∧ val < 10 ^ numberSize val := by
  unfold numberSize
  -- the motive keeps the two places of the size together
  repeat'
    apply iteInduction (motive := fun size => 10 ^ (size - 1) ≤ val ∧ val < 10 ^ size) <;> intro _
  all_goals
    simp only [Nat.reduceSub, Nat.reducePow]
    omega

theorem numberSize_eq {val : Nat} (large : 10 ≤ val) (fits : val < 2 ^ 64) :
    numberSize val = digitCount val := by
  have hbounds := numberSize_bounds large fits
  have hsize : 2 ≤ numberSize val := by
    by_contra hsmall
    have hpow : 10 ^ numberSize val ≤ 10 ^ 1 := Nat.pow_le_pow_right (by decide) (by omega)
    omega
  have hpred : numberSize val - 1 + 1 = numberSize val := by omega
  rw [digitCount_eq hbounds.1 (by rw [hpred]; exact hbounds.2), hpred]

theorem loadBytes_digitPairs :
    ∀ pos < 100, loadBytes digitPairs (2 * pos) 2 = .ok (fixed 2 pos) := by
  decide +kernel

/-- The first loop leaves less than one hundred, and writes the digits of the rest. -/
theorem appendPairs_eq {rounds val : Nat} (enough : digitCount val ≤ 2 * rounds) (pos : 0 < val)
    (fits : dst + digitCount val ≤ memory.length) (small : memory.length < 2 ^ 64) :
    ∃ rest tail, appendPairs rounds memory (dst + (digitCount val - 1)) val =
        .ok (splice memory (dst + digitCount rest) tail, dst + (digitCount rest - 1), rest) ∧
      0 < rest ∧ rest < 100 ∧ decimal val = decimal rest ++ tail := by
  induction rounds generalizing val memory with
  | zero =>
      have := digitCount_pos val
      omega
  | succ rounds ih =>
      by_cases hlarge : val ≥ 100
      · have hcount : digitCount val = digitCount (val / 100) + 2 := digitCount_div_hundred hlarge
        have hpos := digitCount_pos (val / 100)
        have hpair : (fixed 2 (val % 100)).length = 2 := length_fixed _ _
        have haddress : sizeSub (dst + (digitCount val - 1)) 1 = dst + digitCount (val / 100) := by
          rw [sizeSub_of_le (by omega) (by omega)]
          omega
        have hnext : sizeSub (dst + (digitCount val - 1)) 2 =
            dst + (digitCount (val / 100) - 1) := by
          rw [sizeSub_of_le (by omega) (by omega)]
          omega
        have hfits : dst + digitCount (val / 100) + (fixed 2 (val % 100)).length ≤
            memory.length := by
          omega
        have hlength := length_splice hfits
        rcases @ih (splice memory (dst + digitCount (val / 100)) (fixed 2 (val % 100))) (val / 100)
          (by omega) (by omega) (by omega) (by omega) with ⟨rest, tail, hrun, hrest, hless, htext⟩
        have hsum : digitCount (val / 100) = digitCount rest + tail.length := by
          simpa using congrArg List.length htext
        refine ⟨rest, tail ++ fixed 2 (val % 100), ?_, hrest, hless, ?_⟩
        · simp only [appendPairs, if_pos hlarge, bind_ok, haddress, hnext,
            loadBytes_digitPairs _ (Nat.mod_lt val (by decide : 0 < 100)),
            storeBytes_eq_splice hfits, hrun]
          rw [hsum, ← Nat.add_assoc, splice_splice_before (by omega)]
        · rw [decimal_div_hundred hlarge, htext, List.append_assoc]
      · exact ⟨val, [], by rw [appendPairs, if_neg hlarge, splice_nil], pos, by omega, by simp⟩

/-- The second loop writes all digits of what is left. -/
theorem appendDigits_eq {rounds val : Nat} (enough : digitCount val < rounds) (pos : 0 < val)
    (fits : dst + digitCount val ≤ memory.length) (small : memory.length < 2 ^ 64) :
    appendDigits rounds memory (dst + (digitCount val - 1)) val =
      .ok (splice memory dst (decimal val)) := by
  induction rounds generalizing val memory with
  | zero => omega
  | succ rounds ih =>
      have hcountpos := digitCount_pos val
      have hdigit : UInt8.ofNat (48 + val % 10) = digit val := rfl
      rw [appendDigits, if_pos pos, hdigit]
      by_cases hlarge : 10 ≤ val
      · have hcount : digitCount val = digitCount (val / 10) + 1 := digitCount_div_ten hlarge
        have hpos := digitCount_pos (val / 10)
        have haddress : dst + (digitCount val - 1) = dst + digitCount (val / 10) := by omega
        have hnext : sizeSub (dst + digitCount (val / 10)) 1 =
            dst + (digitCount (val / 10) - 1) := by
          rw [sizeSub_of_le (by omega) (by omega)]
          omega
        have hlength : (splice memory (dst + digitCount (val / 10)) [digit val]).length =
            memory.length := length_splice (by rw [List.length_singleton]; omega)
        rw [haddress, store_eq_splice (by omega), bind_ok, hnext,
          ih (by omega) (by omega) (by omega) (by omega), decimal_div_ten hlarge,
          ← length_decimal (val / 10), splice_splice_before]
        rw [length_decimal, List.length_singleton]
        omega
      · have hone : digitCount val = 1 := digitCount_of_lt_ten (by omega)
        have hzero : val / 10 = 0 := by omega
        rw [hone, Nat.sub_self, Nat.add_zero, store_eq_splice (by omega), bind_ok, hzero,
          decimal_of_lt_ten (by omega)]
        cases rounds with
        | zero => omega
        | succ rounds => rw [appendDigits, if_neg (by omega)]

theorem appendNumber_eq (fits : dst + room ≤ memory.length) (small : memory.length < 2 ^ 64)
    (val : UInt64) :
    appendNumber memory dst room val =
      .ok ((numberText room val.toNat).length, splice memory dst (numberText room val.toNat)) := by
  have hval : val.toNat < 2 ^ 64 := val.toNat_lt
  by_cases hten : val.toNat < 10
  · have hone := digitCount_of_lt_ten hten
    by_cases hroom : room = 0
    · have hsize : numberSize val.toNat = 2 := by
        rw [numberSize, if_neg (by omega), if_neg (by omega)]
      simp [appendNumber, numberText, hroom, hsize, hone]
    · have htext : numberText room val.toNat = [digit val.toNat] := by
        rw [numberText, if_pos (by omega), decimal_of_lt_ten hten]
      have hdigit : UInt8.ofNat (48 + val.toNat) = digit val.toNat := by
        rw [digit, Nat.mod_eq_of_lt hten]
      rw [appendNumber, if_pos ⟨hten, by omega⟩, hdigit, store_eq_splice (by omega), bind_ok, htext]
      rfl
  · have hsize := numberSize_eq (by omega) hval
    rw [appendNumber, if_neg (fun h => hten h.1)]
    simp only [hsize]
    by_cases hroom : digitCount val.toNat > room
    · simp [hroom, numberText, Nat.not_le.mpr hroom]
    · have htwenty : digitCount val.toNat ≤ 20 := by
        rw [digitCount_le_iff (by decide)]
        omega
      have htext : numberText room val.toNat = decimal val.toNat := if_pos (by omega)
      rcases @appendPairs_eq memory dst 20 val.toNat (by omega) (by omega) (by omega) small with
        ⟨rest, tail, hrun, hrest, hless, hdecimal⟩
      have hsum : digitCount val.toNat = digitCount rest + tail.length := by
        simpa using congrArg List.length hdecimal
      have hcount : digitCount rest ≤ 2 := by
        rw [digitCount_le_iff (by decide)]
        exact hless
      have hlength : (splice memory (dst + digitCount rest) tail).length = memory.length :=
        length_splice (by omega)
      rw [if_neg hroom, hrun, bind_ok]
      simp only []
      rw [appendDigits_eq (by omega) hrest (by omega) (by omega), bind_ok, htext, hdecimal,
        ← length_decimal rest, splice_splice_before (by rw [length_decimal]; omega), ← hdecimal,
        length_decimal]
      rfl

/-! ## Addresses and times -/

theorem digitCount_byte_le (val : UInt8) : digitCount val.toNat ≤ 3 := by
  rw [digitCount_le_iff (by decide)]
  have := val.toNat_lt
  omega

theorem appendIpByte_eq {text : List UInt8} (enough : text.length + 3 ≤ room)
    (fits : dst + room ≤ memory.length) (small : memory.length < 2 ^ 64) (val : UInt8) :
    appendIpByte dst room val (text.length, splice memory dst text) =
      .ok ((text ++ decimal val.toNat).length, splice memory dst (text ++ decimal val.toNat)) := by
  have hthree := digitCount_byte_le val
  have hlength : (splice memory dst text).length = memory.length := length_splice (by omega)
  have htext : numberText (room - text.length) val.toUInt64.toNat = decimal val.toNat := by
    rw [UInt8.toNat_toUInt64, numberText, if_pos (by omega)]
  simp only [appendIpByte,
    sizeSub_of_le (show room < 2 ^ 64 by omega) (show text.length ≤ room by omega)]
  rw [appendNumber_eq (by omega) (by omega), htext, bind_ok]
  simp only []
  rw [splice_splice (by rw [length_decimal]; omega), List.length_append]
  rfl

theorem appendIpDot_eq {text : List UInt8} (fits : dst + (text.length + 1) ≤ memory.length) :
    appendIpDot dst (text.length, splice memory dst text) =
      .ok ((text ++ [46]).length, splice memory dst (text ++ [46])) := by
  simp only [appendIpDot, store_splice text fits, bind_ok, List.length_append,
    List.length_singleton]
  rfl

theorem appendIpv4_eq (fits : dst + room ≤ memory.length) (small : memory.length < 2 ^ 64)
    (ip : UInt32) :
    let text := if room < 16 then [] else ipText ip
    appendIpv4 memory dst room ip = .ok (text.length, splice memory dst text) := by
  by_cases hroom : room < 16
  · simp [appendIpv4, hroom]
  · have hzero := digitCount_byte_le (ipByte ip 0)
    have hone := digitCount_byte_le (ipByte ip 1)
    have htwo := digitCount_byte_le (ipByte ip 2)
    have hnumber : ∀ (text : List UInt8) (val : UInt8), text.length ≤ 12 →
        appendIpByte dst room val (text.length, splice memory dst text) =
          .ok ((text ++ decimal val.toNat).length,
            splice memory dst (text ++ decimal val.toNat)) := fun text val short =>
      appendIpByte_eq (by omega) fits small val
    have hdot : ∀ text : List UInt8, text.length ≤ 12 →
        appendIpDot dst (text.length, splice memory dst text) =
          .ok ((text ++ [46]).length, splice memory dst (text ++ [46])) := fun text short =>
      appendIpDot_eq (by omega)
    have hstart : (0, memory) = (([] : List UInt8).length, splice memory dst []) := by simp
    simp only [appendIpv4, if_neg hroom]
    rw [hstart, hnumber _ _ (by simp), bind_ok, hdot _ (by simp; omega), bind_ok,
      hnumber _ _ (by simp; omega), bind_ok, hdot _ (by simp; omega), bind_ok,
      hnumber _ _ (by simp; omega), bind_ok, hdot _ (by simp; omega), bind_ok,
      hnumber _ _ (by simp; omega)]
    simp [ipText]

/-- The copying loop, after `k` of its rounds. -/
theorem copyDigits_eq {digits : List UInt8} (short : digits.length ≤ 6)
    (fits : dst + 6 ≤ memory.length) {k : Nat} (inside : k ≤ digits.length) :
    (List.range k).foldlM
      (fun (memory : List UInt8) i => do
        let c ← load (splice (List.replicate 6 0) 0 digits) i
        store memory (dst + (i + (6 - digits.length))) c)
      (splice memory dst (List.replicate 6 48)) =
    .ok (splice memory dst (List.replicate (6 - digits.length) 48 ++ digits.take k ++
      List.replicate (digits.length - k) 48)) := by
  induction k with
  | zero =>
      have hsum : 6 - digits.length + digits.length = 6 := by omega
      simp only [List.range_zero, List.foldlM_nil, List.take_zero, List.append_nil, Nat.sub_zero,
        List.replicate_append_replicate, hsum]
      rfl
  | succ k ih =>
      have hread : load (splice (List.replicate 6 0) 0 digits) k = .ok digits[k] := by
        have hfits : 0 + digits.length ≤ (List.replicate 6 (0 : UInt8)).length := by
          simpa using short
        simpa using load_splice hfits (List.getElem?_eq_getElem (show k < digits.length by omega))
      have htail : List.replicate (digits.length - k) (48 : UInt8) =
          48 :: List.replicate (digits.length - (k + 1)) 48 := by
        rw [← List.replicate_succ]
        congr 1
        omega
      have hfront : (List.replicate (6 - digits.length) (48 : UInt8) ++ digits.take k).length =
          k + (6 - digits.length) := by
        rw [List.length_append, List.length_replicate, List.length_take]
        omega
      have htake : digits.take (k + 1) = digits.take k ++ [digits[k]] :=
        List.take_succ_eq_append_getElem (by omega)
      rw [List.range_succ, List.foldlM_append, ih (by omega), bind_ok, htail]
      simp only [List.foldlM_cons, List.foldlM_nil, hread, bind_ok]
      rw [← hfront, store_splice_inside _ _ (by simp; omega), bind_ok, htake]
      simp only [List.append_assoc, List.singleton_append, pure, Except.pure]

theorem appendMicroseconds_eq (fits : dst + 6 ≤ memory.length) (usec : UInt64) :
    appendMicroseconds memory dst usec = .ok (splice memory dst (microText usec)) := by
  have hnumber : appendNumber (List.replicate 6 0) 0 6 usec = _ :=
    appendNumber_eq (by simp) (by simp) usec
  have hshort := length_numberText_le 6 usec.toNat
  have hmicro : microText usec = List.replicate (6 - (numberText 6 usec.toNat).length) 48 ++
      numberText 6 usec.toNat := by
    rw [microText, numberText]
    by_cases hfew : digitCount usec.toNat ≤ 6
    · have hsum : 6 = 6 - digitCount usec.toNat + digitCount usec.toNat := by omega
      rw [if_pos hfew, if_pos ((digitCount_le_iff (by decide)).mp hfew), length_decimal, hsum,
        fixed_of_lt (lt_pow_digitCount _), ← hsum]
      rfl
    · rw [if_neg hfew, if_neg fun h => hfew ((digitCount_le_iff (by decide)).mpr h), fixed_zero,
        List.length_nil, List.append_nil]
  have hcopy := copyDigits_eq hshort fits (Nat.le_refl (numberText 6 usec.toNat).length)
  rw [appendMicroseconds, hnumber, bind_ok]
  simp only []
  rw [storeBytes_eq_splice (by simpa using fits), bind_ok, hcopy, hmicro]
  simp

theorem appendTimeval_eq (fits : dst + room ≤ memory.length) (small : memory.length < 2 ^ 64)
    (t : Timeval) :
    appendTimeval memory dst room t =
      match timeText room t with
      | none => .error .abort
      | some text => .ok (text.length, splice memory dst text) := by
  by_cases hroom : room < 12
  · simp [appendTimeval, timeText, hroom]
  · have hsec := appendNumber_eq fits small (UInt64.ofInt t.tvSec)
    simp only [appendTimeval, timeText, if_neg hroom, hsec, Except.mapError, bind_ok]
    have hle := length_numberText_le room (UInt64.ofInt t.tvSec).toNat
    generalize numberText room (UInt64.ofInt t.tvSec).toNat = seconds at hle ⊢
    by_cases hlong : seconds.length > 12
    · simp only [if_pos hlong]
    · simp only [if_neg hlong]
      by_cases htight : room < seconds.length + 7
      · simp only [if_pos htight]
      · have hpoint : store (splice memory dst seconds) (dst + seconds.length) 46 =
            .ok (splice memory dst (seconds ++ [46])) := store_splice seconds (by omega) 46
        have hlength : (splice memory dst (seconds ++ [46])).length = memory.length :=
          length_splice (by simp; omega)
        have hsix : (microText (UInt64.ofInt t.tvUsec)).length = 6 := length_microText _
        have hfront : (seconds ++ [46]).length = seconds.length + 1 := by simp
        simp only [if_neg htight, hpoint, bind_ok]
        rw [appendMicroseconds_eq (by omega), bind_ok, Nat.add_assoc dst, ← hfront,
          splice_splice (by omega)]
        simp [pure, Except.pure, hsix]

/-- An element writes its text, or its assertion stops the process. -/
theorem Field.append_eq (field : Field) (fits : dst + room ≤ memory.length)
    (small : memory.length < 2 ^ 64) :
    field.append memory dst room =
      match field.text room with
      | none => .error .abort
      | some text => .ok (text.length, splice memory dst text) := by
  cases field with
  | arr src => simp only [append, text, appendStringWithoutQuote_eq fits, Except.mapError]
  | str src => simp only [append, text, appendString_eq fits, Except.mapError]
  | int val => simp only [append, text, appendNumber_eq fits small, Except.mapError]
  | char c => simp only [append, text, appendChar_eq fits, Except.mapError]
  | time t => exact appendTimeval_eq fits small t
  | hex val =>
      by_cases hroom : room < 2
      · simp [append, text, appendHex, hroom, Except.mapError]
      · simp only [append, text, appendHex_eq (Nat.not_lt.mp hroom) fits, Except.mapError,
          if_neg hroom]
        rfl
  | mac t => simp only [append, text, appendMac_eq fits, Except.mapError]
  | ipv4 ip => simp only [append, text, appendIpv4_eq fits small, Except.mapError]

/-- An element keeps to its room. -/
theorem Field.length_text_le {field : Field} {text : List UInt8}
    (written : field.text room = some text) : text.length ≤ room := by
  cases field with
  | arr src =>
      cases written
      exact List.length_take_le _ _
  | str src =>
      cases written
      rw [quotedText]
      split_ifs with hroom
      · simp
      · have := List.length_take_le (room - 2) src.bytes
        rw [List.length_cons, List.length_append, List.length_singleton]
        omega
  | int val =>
      cases written
      exact length_numberText_le _ _
  | char c =>
      cases written
      split_ifs with hroom
      · simp
      · rw [List.length_singleton]
        omega
  | time t => exact length_timeText_le written
  | hex val =>
      cases written
      split_ifs with hroom
      · simp
      · have hlength : (hexText val).length = 2 := rfl
        omega
  | mac t =>
      cases written
      split_ifs with hroom
      · simp
      · simpa [macDigits, hexText] using hroom
  | ipv4 ip =>
      cases written
      have hzero := digitCount_byte_le (ipByte ip 0)
      have hone := digitCount_byte_le (ipByte ip 1)
      have htwo := digitCount_byte_le (ipByte ip 2)
      have hthree := digitCount_byte_le (ipByte ip 3)
      split_ifs with hroom
      · simp
      · simp only [ipText, List.length_append, length_decimal, List.length_singleton]
        omega

/-! ## Several elements -/

/-- What is there after an element, when a text of `n` characters fits. -/
def withField (n : Nat) (field : Field) (sofar : List UInt8) : Option (List UInt8) :=
  if sofar.length < n then (field.text (n - sofar.length)).map (sofar ++ ·) else some sofar

/-- What is there after a separator, cut when it does not fit. -/
def withSeparator (n : Nat) (separator sofar : List UInt8) : List UInt8 :=
  sofar ++ separator.take (n - sofar.length)

/-- What is there after all elements. -/
def buildText (n : Nat) (separator : List UInt8) :
    List Field → List UInt8 → Option (List UInt8)
  | [], sofar => some sofar
  | [field], sofar => withField n field sofar
  | field :: fields, sofar =>
      (withField n field sofar).bind fun sofar =>
        buildText n separator fields (withSeparator n separator sofar)

theorem buildText_cons_cons (n : Nat) (separator : List UInt8) (field next : Field)
    (fields : List Field) (sofar : List UInt8) :
    buildText n separator (field :: next :: fields) sofar =
      (withField n field sofar).bind fun sofar =>
        buildText n separator (next :: fields) (withSeparator n separator sofar) := rfl

/-- The characters of a separator; there are none without one. -/
def separatorBytes (separator : Option CString) : List UInt8 :=
  match separator with
  | none => []
  | some separator => separator.bytes

theorem builderEnd_of_le {dstSize : Nat} (some_room : 0 < dstSize) (fits : dstSize ≤ 2 ^ 31) :
    builderEnd dstSize = ((dstSize - 1 : Nat) : Int) := by
  rw [builderEnd, Int.bmod_eq_of_le (by omega) (by omega)]
  omega

theorem builderRoom_of_le {n i : Nat} (inside : i ≤ n) (fits : n < 2 ^ 31) :
    builderRoom n i = n - i := by
  rw [builderRoom, Int.emod_eq_of_lt (by omega) (by omega)]
  omega

variable {n : Nat} {sofar : List UInt8}

theorem length_withField_le {field : Field} {text : List UInt8} (inside : sofar.length ≤ n)
    (written : withField n field sofar = some text) : text.length ≤ n := by
  rw [withField] at written
  split_ifs at written with hroom
  · rcases Option.map_eq_some_iff.mp written with ⟨added, hadded, rfl⟩
    have hle := Field.length_text_le hadded
    rw [List.length_append]
    omega
  · cases written
    exact inside

theorem length_withSeparator_le (separator : List UInt8) (inside : sofar.length ≤ n) :
    (withSeparator n separator sofar).length ≤ n := by
  have hle := List.length_take_le (n - sofar.length) separator
  rw [withSeparator, List.length_append]
  omega

/-- The text never grows beyond the `n` characters that fit. -/
theorem length_buildText_le {separator text : List UInt8} {fields : List Field}
    (inside : sofar.length ≤ n) (written : buildText n separator fields sofar = some text) :
    text.length ≤ n := by
  induction fields generalizing sofar with
  | nil =>
      cases written
      exact inside
  | cons field fields ih =>
      cases fields with
      | nil => exact length_withField_le inside written
      | cons next fields =>
          rcases Option.bind_eq_some_iff.mp written with ⟨after, hafter, hrest⟩
          exact ih (length_withSeparator_le _ (length_withField_le inside hafter)) hrest

/-- A second text behind the one that was written at the start of a block. -/
theorem splice_splice_zero {text : List UInt8} (fits : sofar.length + text.length ≤ memory.length) :
    splice (splice memory 0 sofar) sofar.length text = splice memory 0 (sofar ++ text) := by
  have h : splice (splice memory 0 sofar) (0 + sofar.length) text =
      splice memory 0 (sofar ++ text) := splice_splice (by omega)
  rwa [Nat.zero_add] at h

/-- How a run of the builder corresponds to a text. -/
def Writes (memory : List UInt8) (run : Except Stop (Nat × List UInt8))
    (text : Option (List UInt8)) : Prop :=
  run = match text with
    | none => .error .abort
    | some text => .ok (text.length, splice memory 0 text)

section Builder

variable (inside : sofar.length ≤ n) (fits : n < memory.length) (small : n < 2 ^ 31)
  (narrow : memory.length < 2 ^ 64)

include inside fits small narrow

theorem builder_writes (field : Field) :
    Writes memory (builder n field (sofar.length, splice memory 0 sofar))
      (withField n field sofar) := by
  unfold Writes
  by_cases hroom : sofar.length < n
  · have hlength : (splice memory 0 sofar).length = memory.length := length_splice (by omega)
    have happend := @Field.append_eq (splice memory 0 sofar) sofar.length (n - sofar.length) field
      (by omega) (by omega)
    rw [builder, if_pos (by omega), builderRoom_of_le inside small, happend, withField,
      if_pos hroom]
    cases htext : field.text (n - sofar.length) with
    | none => rfl
    | some text =>
        have hle := Field.length_text_le htext
        simp only [bind_ok,
          splice_splice_zero (show sofar.length + text.length ≤ memory.length by omega),
          Option.map_some, List.length_append]
        rfl
  · rw [builder, if_neg (by omega), withField, if_neg hroom]

omit narrow in
theorem builderSeparator_eq (separator : Option CString) :
    builderSeparator n separator (sofar.length, splice memory 0 sofar) =
      let text := withSeparator n (separatorBytes separator) sofar
      .ok (text.length, splice memory 0 text) := by
  cases separator with
  | none => simp [builderSeparator, withSeparator, separatorBytes]
  | some separator =>
      have hlength : (splice memory 0 sofar).length = memory.length := length_splice (by omega)
      have hle := List.length_take_le (n - sofar.length) separator.bytes
      simp only [builderSeparator, builderRoom_of_le inside small, withSeparator, separatorBytes]
      rw [appendStringWithoutQuote_eq (by omega)]
      simp only [Except.mapError, bind_ok, splice_splice_zero
        (show sofar.length + (separator.bytes.take (n - sofar.length)).length ≤
          memory.length by omega),
        List.length_append]
      rfl

/-- The elements and the separators between them write the text that belongs to them. -/
theorem builderApply_writes (separator : Option CString) (fields : List Field) :
    Writes memory (builderApply n separator fields (sofar.length, splice memory 0 sofar))
      (buildText n (separatorBytes separator) fields sofar) := by
  induction fields generalizing sofar with
  | nil => rfl
  | cons field fields ih =>
      have hfield := builder_writes inside fits small narrow field
      cases fields with
      | nil => exact hfield
      | cons next fields =>
          rw [builderApply, buildText_cons_cons, hfield]
          · cases hafter : withField n field sofar with
            | none => rfl
            | some after =>
                have hle := length_withField_le inside hafter
                have hsep := builderSeparator_eq hle fits small separator
                simp only [bind_ok, hsep]
                exact ih (length_withSeparator_le _ hle)
          · simp

end Builder

/-- What the builder macros leave in the buffer: the text behind the first `valid`
characters, and a NUL. -/
theorem build_eq (separator : Option CString) {valid dstSize : Nat} (fields : List Field)
    (inside : valid < dstSize) (fits : dstSize ≤ memory.length) (small : dstSize ≤ 2 ^ 31)
    (narrow : memory.length < 2 ^ 64) :
    build separator valid memory dstSize fields =
      match buildText (dstSize - 1) (separatorBytes separator) fields (memory.take valid) with
      | none => .error .abort
      | some text => .ok (text.length, splice memory 0 (text ++ [0])) := by
  have hvalid : (memory.take valid).length = valid := by
    rw [List.length_take]
    omega
  have hstart : (valid, memory) =
      ((memory.take valid).length, splice memory 0 (memory.take valid)) := by
    simp [hvalid, splice]
  have hrun : Writes memory (builderApply ((dstSize - 1 : Nat) : Int) separator fields
        ((memory.take valid).length, splice memory 0 (memory.take valid)))
      (buildText (dstSize - 1) (separatorBytes separator) fields (memory.take valid)) :=
    builderApply_writes (by omega) (by omega) (by omega) narrow separator fields
  rw [build, builderEnd_of_le (by omega) small, hstart, hrun]
  cases htext : buildText (dstSize - 1) (separatorBytes separator) fields (memory.take valid) with
  | none => rfl
  | some text =>
      have hle := length_buildText_le (by omega) htext
      have hclose : store (splice memory 0 text) (0 + text.length) 0 =
          .ok (splice memory 0 (text ++ [0])) := store_splice text (by omega) 0
      rw [Nat.zero_add] at hclose
      simp only [bind_ok, hclose, Except.mapError]
      rfl

/-! ## Texts that are not cut -/

/-- The text of an element that has all the room it needs. -/
def Field.full : Field → List UInt8
  | arr src => src.bytes
  | str src => 34 :: (src.bytes ++ [34])
  | int val => decimal val.toNat
  | char c => [c]
  | time t => decimal (UInt64.ofInt t.tvSec).toNat ++ 46 :: microText (UInt64.ofInt t.tvUsec)
  | hex val => hexText val
  | mac t => 34 :: (macDigits t ++ [34])
  | ipv4 ip => ipText ip

/-- The room an element asks for. -/
def Field.need (field : Field) : Nat :=
  match field with
  | time _ => max 12 field.full.length
  | ipv4 _ => 16
  | _ => field.full.length

/-- The seconds of a time have at most twelve digits. -/
def Field.Timely : Field → Prop
  | time t => digitCount (UInt64.ofInt t.tvSec).toNat ≤ 12
  | _ => True

/-- The elements and the separators between them. -/
def joined (separator : List UInt8) : List Field → List UInt8
  | [] => []
  | [field] => field.full
  | field :: fields => field.full ++ (separator ++ joined separator fields)

theorem joined_cons_cons (separator : List UInt8) (field next : Field) (fields : List Field) :
    joined separator (field :: next :: fields) =
      field.full ++ (separator ++ joined separator (next :: fields)) := rfl

theorem Field.text_eq_full {field : Field} (timely : field.Timely) (enough : field.need ≤ room) :
    field.text room = some field.full := by
  cases field with
  | arr src => exact congrArg some (List.take_of_length_le enough)
  | str src =>
      simp only [need, full, List.length_cons, List.length_append, List.length_nil] at enough
      rw [text, quotedText, if_neg (by omega), List.take_of_length_le (by omega)]
      rfl
  | int val =>
      have hlength : digitCount val.toNat ≤ room := by simpa [need, full] using enough
      exact congrArg some (if_pos hlength)
  | char c =>
      have hlength : 1 ≤ room := enough
      exact congrArg some (if_neg (by omega))
  | time t =>
      have htwelve : digitCount (UInt64.ofInt t.tvSec).toNat ≤ 12 := timely
      have hroom : 12 ≤ room ∧ digitCount (UInt64.ofInt t.tvSec).toNat + 7 ≤ room := by
        simpa [need, full, Nat.max_le] using enough
      have hnumber : numberText room (UInt64.ofInt t.tvSec).toNat =
          decimal (UInt64.ofInt t.tvSec).toNat := if_pos (by omega)
      simp only [text, timeText, hnumber, length_decimal]
      rw [if_neg (by omega), if_neg (by omega), if_neg (by omega)]
      rfl
  | hex val => exact congrArg some (if_neg (Nat.not_lt.mpr enough))
  | mac t =>
      have hlength : 19 ≤ room := by simpa [need, full, macDigits, hexText] using enough
      exact congrArg some (if_neg (by omega))
  | ipv4 ip => exact congrArg some (if_neg (Nat.not_lt.mpr enough))

theorem Field.length_full_le_need (field : Field) : field.full.length ≤ field.need := by
  cases field with
  | time t => exact Nat.le_max_right _ _
  | ipv4 ip =>
      have hzero := digitCount_byte_le (ipByte ip 0)
      have hone := digitCount_byte_le (ipByte ip 1)
      have htwo := digitCount_byte_le (ipByte ip 2)
      have hthree := digitCount_byte_le (ipByte ip 3)
      simp only [full, need, ipText, List.length_append, length_decimal, List.length_singleton]
      omega
  | _ => exact Nat.le_refl _

theorem withField_eq {field : Field} (timely : field.Timely)
    (enough : sofar.length + field.need ≤ n) :
    withField n field sofar = some (sofar ++ field.full) := by
  rw [withField]
  by_cases hroom : sofar.length < n
  · rw [if_pos hroom, Field.text_eq_full timely (by omega)]
    rfl
  · have hnil : field.full = [] := by
      have := field.length_full_le_need
      exact List.length_eq_zero_iff.mp (by omega)
    rw [if_neg hroom, hnil, List.append_nil]

/-- When every element has the room it asks for, the text is the one that is not cut. -/
theorem buildText_eq_joined {separator : List UInt8} {fields : List Field} {slack : Nat}
    (timely : ∀ field ∈ fields, field.Timely)
    (modest : ∀ field ∈ fields, field.need ≤ field.full.length + slack)
    (enough : sofar.length + (joined separator fields).length + slack ≤ n) :
    buildText n separator fields sofar = some (sofar ++ joined separator fields) := by
  induction fields generalizing sofar with
  | nil => simp [buildText, joined]
  | cons field fields ih =>
      have hneed := modest field List.mem_cons_self
      cases fields with
      | nil =>
          rw [buildText, joined]
          rw [joined] at enough
          exact withField_eq (timely field List.mem_cons_self) (by omega)
      | cons next fields =>
          rw [joined_cons_cons, List.length_append, List.length_append] at enough
          have hsep : withSeparator n separator (sofar ++ field.full) =
              sofar ++ field.full ++ separator := by
            rw [withSeparator, List.take_of_length_le]
            rw [List.length_append]
            omega
          have hrest := @ih (sofar ++ field.full ++ separator)
            (fun f listed => timely f (List.mem_cons_of_mem _ listed))
            (fun f listed => modest f (List.mem_cons_of_mem _ listed))
            (by rw [List.length_append, List.length_append]; omega)
          rw [buildText_cons_cons, withField_eq (timely field List.mem_cons_self) (by omega),
            Option.bind_some, hsep, hrest, joined_cons_cons]
          simp only [List.append_assoc]

/-- No element asks for more than fifteen characters beyond its own. -/
theorem Field.need_le (field : Field) : field.need ≤ field.full.length + 15 := by
  cases field with
  | time t =>
      rw [need]
      omega
  | ipv4 ip =>
      have hpos : 0 < (ipText ip).length := by simp [ipText]
      rw [need, full]
      omega
  | _ => exact Nat.le_add_right _ _

/-- With sixteen bytes more than the text, the builder macros write all of it behind the
first `valid` characters. -/
theorem build_eq_joined (separator : Option CString) {valid : Nat} {fields : List Field}
    (timely : ∀ field ∈ fields, field.Timely)
    (room : valid + (joined (separatorBytes separator) fields).length + 16 ≤ memory.length)
    (small : memory.length ≤ 2 ^ 31) :
    build separator valid memory memory.length fields =
      .ok (valid + (joined (separatorBytes separator) fields).length,
        splice memory valid (joined (separatorBytes separator) fields ++ [0])) := by
  have hvalid : (memory.take valid).length = valid := by
    rw [List.length_take]
    omega
  have hbuild := @buildText_eq_joined (memory.length - 1) (memory.take valid)
    (separatorBytes separator) fields 15 timely (fun field _ => field.need_le) (by omega)
  have hafter : splice memory 0 (memory.take valid ++
      joined (separatorBytes separator) fields ++ [0]) =
        splice memory valid (joined (separatorBytes separator) fields ++ [0]) := by
    have hstart : splice memory 0 (memory.take valid) = memory := by
      simp [splice, hvalid]
    rw [List.append_assoc, ← splice_splice_zero, hstart, hvalid]
    rw [hvalid, List.length_append, List.length_singleton]
    omega
  rw [build_eq separator fields (by omega) (Nat.le_refl _) small (by omega), hbuild, ← hafter]
  simp only [List.length_append, hvalid]

/-- In an empty buffer the text stands at the beginning. -/
theorem build_zero_eq (separator : Option CString) {fields : List Field}
    (timely : ∀ field ∈ fields, field.Timely)
    (room : (joined (separatorBytes separator) fields).length + 16 ≤ memory.length)
    (small : memory.length ≤ 2 ^ 31) :
    build separator 0 memory memory.length fields =
      .ok ((joined (separatorBytes separator) fields).length,
        joined (separatorBytes separator) fields ++
          0 :: memory.drop ((joined (separatorBytes separator) fields).length + 1)) := by
  have hbuild := @build_eq_joined memory separator 0 fields timely (by omega) small
  rw [hbuild, splice]
  simp

/-! ## No element is stopped, and no character before it is changed -/

theorem Field.text_ne_none {field : Field} (timely : field.Timely) (room : Nat) :
    field.text room ≠ none := by
  cases field with
  | time t =>
      intro hnone
      rcases timeText_eq_none_iff.mp hnone with ⟨_, hlong, _⟩
      have htwelve : digitCount (UInt64.ofInt t.tvSec).toNat ≤ 12 := timely
      rw [seconds] at hlong
      omega
  | _ => exact Option.some_ne_none _

theorem exists_withField {field : Field} (timely : field.Timely) (sofar : List UInt8) :
    ∃ added, withField n field sofar = some (sofar ++ added) := by
  rw [withField]
  split_ifs with hroom
  · rcases Option.ne_none_iff_exists'.mp (Field.text_ne_none timely (n - sofar.length)) with
      ⟨added, hadded⟩
    exact ⟨added, by rw [hadded, Option.map_some]⟩
  · exact ⟨[], by rw [List.append_nil]⟩

/-- The elements only add characters behind those that are there. -/
theorem exists_buildText (separator : List UInt8) {fields : List Field}
    (timely : ∀ field ∈ fields, field.Timely) (sofar : List UInt8) :
    ∃ added, buildText n separator fields sofar = some (sofar ++ added) := by
  induction fields generalizing sofar with
  | nil => exact ⟨[], by rw [buildText, List.append_nil]⟩
  | cons field fields ih =>
      rcases exists_withField (n := n) (timely field List.mem_cons_self) sofar with ⟨first, hfirst⟩
      cases fields with
      | nil => exact ⟨first, hfirst⟩
      | cons next fields =>
          rw [buildText_cons_cons, hfirst, Option.bind_some, withSeparator]
          rcases ih (fun f listed => timely f (List.mem_cons_of_mem _ listed))
            (sofar ++ first ++ separator.take (n - (sofar ++ first).length)) with ⟨rest, hrest⟩
          exact ⟨_, by rw [hrest, List.append_assoc, List.append_assoc]⟩

/-- A printer returns, keeps to its memory, and there is a place behind what it returns. -/
def LeavesPlace (memory : List UInt8) (run : Except Stop (Nat × List UInt8)) : Prop :=
  ∃ written after, run = .ok (written, after) ∧ written < memory.length ∧
    after.length = memory.length

/-- However long the elements are, the builder keeps to its buffer. -/
theorem build_leavesPlace (separator : Option CString) {fields : List Field}
    (timely : ∀ field ∈ fields, field.Timely) (some_room : 0 < memory.length)
    (small : memory.length ≤ 2 ^ 31) :
    LeavesPlace memory (build separator 0 memory memory.length fields) := by
  rcases exists_buildText (n := memory.length - 1) (separatorBytes separator) timely
    (memory.take 0) with ⟨added, hadded⟩
  have hbuild := @build_eq memory separator 0 memory.length fields some_room (Nat.le_refl _) small
    (by omega)
  have hle := length_buildText_le (Nat.zero_le _) hadded
  rw [hadded] at hbuild
  refine ⟨_, _, hbuild, by omega, length_splice ?_⟩
  rw [List.length_append, List.length_singleton]
  omega

/-- The most characters that an element has. -/
def Field.width : Field → Nat
  | arr src => src.bytes.length
  | str src => src.bytes.length + 2
  | int _ => 20
  | char _ => 1
  | time _ => 19
  | hex _ => 2
  | mac _ => 19
  | ipv4 _ => 16

theorem Field.length_full_le_width {field : Field} (timely : field.Timely) :
    field.full.length ≤ field.width := by
  cases field with
  | int val =>
      have hval := val.toNat_lt
      rw [full, length_decimal, width, digitCount_le_iff (by decide)]
      omega
  | time t =>
      have htwelve : digitCount (UInt64.ofInt t.tvSec).toNat ≤ 12 := timely
      rw [full, List.length_append, length_decimal, List.length_cons, length_microText, width]
      omega
  | mac t => simp [full, width, macDigits, hexText]
  | ipv4 ip => exact (Field.ipv4 ip).length_full_le_need
  | _ => simp [full, width, hexText]

/-- A text is no longer than its elements may be, each with a separator. -/
theorem length_joined_le (separator : List UInt8) {fields : List Field}
    (timely : ∀ field ∈ fields, field.Timely) :
    (joined separator fields).length ≤
      (fields.map Field.width).sum + separator.length * fields.length := by
  induction fields with
  | nil => exact Nat.zero_le _
  | cons field fields ih =>
      rw [List.forall_mem_cons] at timely
      have hfield := Field.length_full_le_width timely.1
      have hrest := ih timely.2
      rw [List.map_cons, List.sum_cons, List.length_cons, Nat.mul_succ]
      cases fields with
      | nil =>
          rw [joined]
          omega
      | cons next fields =>
          rw [joined_cons_cons, List.length_append, List.length_append]
          omega

theorem joined_append (separator : List UInt8) {fields more : List Field} (some_field : fields ≠ [])
    (some_more : more ≠ []) : joined separator (fields ++ more) =
      joined separator fields ++ (separator ++ joined separator more) := by
  induction fields with
  | nil => exact absurd rfl some_field
  | cons field fields ih =>
      cases fields with
      | nil =>
          rcases List.exists_cons_of_ne_nil some_more with ⟨next, more, rfl⟩
          rfl
      | cons next fields =>
          rw [List.cons_append, List.cons_append, joined_cons_cons, joined_cons_cons,
            ← List.cons_append, ih (List.cons_ne_nil _ _)]
          simp only [List.append_assoc]

/-! ## Texts that may be cut -/

/-- An element writes nothing that is not in its full text. -/
theorem Field.text_subset {field : Field} {text : List UInt8}
    (written : field.text room = some text) : text ⊆ field.full := by
  cases field with
  | arr src =>
      cases written
      exact List.take_subset _ _
  | str src =>
      simp only [Field.text, Option.some.injEq, quotedText] at written
      subst written
      split_ifs
      · exact List.nil_subset _
      · intro byte listed
        simp only [List.mem_cons, List.mem_append] at listed
        rcases listed with rfl | listed | listed
        · exact List.mem_cons_self
        · exact List.mem_cons_of_mem _ (List.mem_append_left _ (List.mem_of_mem_take listed))
        · exact List.mem_cons_of_mem _ (List.mem_append_right _ (List.mem_cons.mpr listed))
  | time t =>
      simp only [Field.text, timeText, numberText] at written
      split_ifs at written <;> cases written <;> simp [Field.full]
  | _ =>
      simp only [Field.text, Option.some.injEq, numberText] at written
      subst written
      split_ifs
      · simp [Field.full]
      · simp [Field.full]

theorem withField_append {field : Field} {text : List UInt8}
    (written : withField n field sofar = some text) :
    ∃ added, text = sofar ++ added ∧ added ⊆ field.full := by
  rw [withField] at written
  split_ifs at written with hroom
  · rcases Option.map_eq_some_iff.mp written with ⟨added, hadded, rfl⟩
    exact ⟨added, rfl, Field.text_subset hadded⟩
  · cases written
    exact ⟨[], (List.append_nil sofar).symm, List.nil_subset _⟩

/-- Without a separator the elements are written one after the other. -/
theorem buildText_nil_cons (field : Field) (fields : List Field) :
    buildText n [] (field :: fields) sofar =
      (withField n field sofar).bind (buildText n [] fields) := by
  cases fields with
  | nil => exact (Option.bind_fun_some _).symm
  | cons next fields =>
      rw [buildText_cons_cons]
      congr 1
      funext after
      rw [withSeparator, List.take_nil, List.append_nil]

theorem buildText_nil_of_append (fields more : List Field) :
    buildText n [] (fields ++ more) sofar =
      (buildText n [] fields sofar).bind (buildText n [] more) := by
  induction fields generalizing sofar with
  | nil => rfl
  | cons field fields ih =>
      rw [List.cons_append, buildText_nil_cons, buildText_nil_cons, Option.bind_assoc]
      congr 1
      funext after
      exact ih

/-- What the elements add comes from their full texts. -/
theorem buildText_nil_append {fields : List Field} {text : List UInt8}
    (written : buildText n [] fields sofar = some text) :
    ∃ added, text = sofar ++ added ∧ ∀ byte ∈ added, ∃ field ∈ fields, byte ∈ field.full := by
  induction fields generalizing sofar with
  | nil =>
      cases written
      exact ⟨[], (List.append_nil text).symm, nofun⟩
  | cons field fields ih =>
      rw [buildText_nil_cons] at written
      rcases Option.bind_eq_some_iff.mp written with ⟨after, hafter, hrest⟩
      rcases withField_append hafter with ⟨added, rfl, hadded⟩
      rcases ih hrest with ⟨more, rfl, hmore⟩
      refine ⟨added ++ more, List.append_assoc _ _ _, ?_⟩
      intro byte listed
      rcases List.mem_append.mp listed with hbyte | hbyte
      · exact ⟨field, List.mem_cons_self, hadded hbyte⟩
      · rcases hmore byte hbyte with ⟨other, hother, hbyte⟩
        exact ⟨other, List.mem_cons_of_mem _ hother, hbyte⟩

/-! ## Texts that are cut

A string and a character are written as far as there is room for them, so what they
leave of a text is its beginning.
-/

/-- An element that is cut at any place. -/
def Field.Cut : Field → Prop
  | arr _ => True
  | char _ => True
  | _ => False

theorem withField_cut {field : Field} (cut : field.Cut) (inside : sofar.length ≤ n) :
    withField n field sofar = some (sofar ++ field.full.take (n - sofar.length)) := by
  by_cases hroom : sofar.length < n
  · rw [withField, if_pos hroom]
    cases field with
    | arr src => rfl
    | char c =>
        have hone : (Field.char c).full.take (n - sofar.length) = [c] :=
          List.take_of_length_le (by change 1 ≤ _; omega)
        rw [hone, Field.text, if_neg (by omega)]
        rfl
    | _ => cases cut
  · have hnone : n - sofar.length = 0 := by omega
    rw [withField, if_neg hroom, hnone, List.take_zero, List.append_nil]

theorem buildText_cut {fields : List Field} (cut : ∀ field ∈ fields, field.Cut)
    (inside : sofar.length ≤ n) :
    buildText n [] fields sofar =
      some (sofar ++ (fields.flatMap Field.full).take (n - sofar.length)) := by
  induction fields generalizing sofar with
  | nil => simp [buildText]
  | cons field fields ih =>
      have hfield := withField_cut (cut field List.mem_cons_self) inside
      have hle := length_withField_le inside hfield
      rw [buildText_nil_cons, hfield, Option.bind_some,
        ih (fun f listed => cut f (List.mem_cons_of_mem _ listed)) hle, List.flatMap_cons,
        List.take_append, List.append_assoc, List.length_append, List.length_take]
      congr 4
      omega

/-- The elements are skipped when there is no room behind the position. -/
theorem builderApply_full {position : Nat} (full : n ≤ position) (fields : List Field)
    (memory : List UInt8) :
    builderApply n none fields (position, memory) = .ok (position, memory) := by
  have hskip : ∀ field, builder n field (position, memory) = .ok (position, memory) := by
    intro field
    rw [builder, if_neg (by simpa using full)]
  induction fields with
  | nil => rfl
  | cons field fields ih =>
      cases fields with
      | nil => exact hskip field
      | cons next fields =>
          rw [builderApply, hskip, bind_ok]
          · exact ih
          · simp

/-- What `STRING_BUILDER` adds to a text that stands at the beginning of the buffer. The
size may be smaller than the text. -/
theorem stringBuilder_cut {text : List UInt8} {dstSize : Nat} {fields : List Field}
    (cut : ∀ field ∈ fields, field.Cut) (stands : text <+: memory)
    (inside : text.length < memory.length) (some_room : 0 < dstSize)
    (fits : dstSize ≤ memory.length) (small : memory.length ≤ 2 ^ 31) :
    ∃ after rest, after = text ++ (fields.flatMap Field.full).take (dstSize - 1 - text.length) ∧
      stringBuilder text.length memory dstSize fields = .ok (after.length, after ++ 0 :: rest) ∧
      (after ++ 0 :: rest).length = memory.length := by
  rcases stands with ⟨behind, rfl⟩
  rw [List.length_append] at inside fits small
  by_cases hroom : text.length < dstSize
  · have hbuild := build_eq none fields hroom (by rw [List.length_append]; exact fits)
      (by omega) (by rw [List.length_append]; omega)
    have htext := @buildText_cut (dstSize - 1) text fields cut (by omega)
    have hle := length_buildText_le (by omega) htext
    rw [List.take_left, separatorBytes, htext] at hbuild
    refine ⟨_, (text ++ behind).drop (text ++ (fields.flatMap Field.full).take
      (dstSize - 1 - text.length) ++ [0]).length, rfl, ?_, ?_⟩
    · rw [stringBuilder, hbuild]
      simp only [splice_zero, List.append_assoc, List.singleton_append]
    · simp only [List.length_append, List.length_cons, List.length_drop, List.length_nil] at hle ⊢
      omega
  · have hnone : dstSize - 1 - text.length = 0 := by omega
    have happly := @builderApply_full (dstSize - 1) text.length (by omega) fields (text ++ behind)
    cases behind with
    | nil =>
        rw [List.length_nil] at inside
        omega
    | cons old behind =>
        refine ⟨text, behind, by rw [hnone, List.take_zero, List.append_nil], ?_, ?_⟩
        · rw [stringBuilder, build, builderEnd_of_le some_room (by omega), happly, bind_ok]
          simp only [store_append, mapError_ok, bind_ok]
          rfl
        · simp only [List.length_append, List.length_cons]

end MmtProbe.Lib
