/-
# Replies to the control client

`_reply` formats a reply in a local array and hands it to `write` until all of it is
gone.  The length of the reply is the one `vsnprintf` returns, which is that of the
whole text and not of the part that found room, and the position in the array is a
sum of what `write` returns, errors included.

A call of `write` with a range that leaves the array is a state of its own, from
which nothing is followed any further.
-/

import MmtProbe.DynamicConf.Server
import MmtProbe.Output.Report
import Mathlib.Algebra.BigOperators.Group.Finset.Basic

namespace MmtProbe.DynamicConf

open MmtProbe.Math
open MmtProbe.Output (Formatted vsnprintf)

/-! ## The formatted reply -/

/-- A number stored in an `int`. -/
def toInt (n : Int) : Int := Int.bmod n (2 ^ 32)

/-- `"%d "` of a code. -/
def codeText (code : UInt16) : List UInt8 := decimal code.toNat ++ [32]

/-- The whole reply. -/
def replyText (code : UInt16) (text : CString) : List UInt8 := codeText code ++ text.bytes

theorem length_codeText_le (code : UInt16) : (codeText code).length ≤ 6 := by
  have hdigits : digitCount code.toNat ≤ 5 :=
    (digitCount_le_iff (by decide)).mpr (Nat.lt_of_lt_of_le code.toNat_lt (by decide))
  rw [codeText, List.length_append, length_decimal]
  exact Nat.add_le_add_right hdigits 1

/-- What `snprintf` makes of the code. -/
def formattedCode (code : UInt16) : Formatted :=
  .text (codeText code) (Nat.lt_of_le_of_lt (length_codeText_le code) (by decide))

/-- What `vsnprintf` makes of a text. A length that an `int` cannot hold is an error. -/
def formattedText (text : CString) : Formatted :=
  if fits : text.bytes.length < 2 ^ 31 then .text text.bytes fits else .failed 0 (by decide)

/-- The first part of `_reply`: `offset` and the array. -/
def formatReply (code : UInt16) (text : CString) (message : List UInt8) :
    Except Fault (Int × List UInt8) := do
  let message ← vsnprintf (formattedCode code) bufferSize message
  let offset := (codeText code).length
  let back ← vsnprintf (formattedText text) (bufferSize - offset) (message.drop offset)
  return (toInt (offset + (formattedText text).result), message.take offset ++ back)

/-! ## The loop -/

/-- The variables of the loop: the position, the bytes `write` has taken, and whether it
has reported an error. -/
structure Sending where
  i : Int
  sent : List UInt8
  failed : Bool
deriving DecidableEq, Repr

/-- Where the loop is: before a call of `write`, behind the loop, or at a call with a
range that is not inside the array. -/
inductive Replying where
  | call (sending : Sending)
  | left (sending : Sending)
  | outside (sending : Sending)
deriving DecidableEq, Repr

def Replying.sending : Replying → Sending
  | call sending => sending
  | left sending => sending
  | outside sending => sending

/-- The condition at the end of the loop. -/
def whileLess (offset : Int) (sending : Sending) : Replying :=
  if sending.i < offset then .call sending else .left sending

/-- The third argument of `write`: an `int` that becomes a `size_t`. -/
def requested (offset i : Int) : Nat := (toInt (offset - i) % 2 ^ 64).toNat

/-- One round of the loop. The result of `write` is an error, or one byte and as many
more as the count allows. -/
def replyRound (message : List UInt8) (offset : Int) (result : Option Nat) : Replying → Replying
  | .call sending =>
      if 0 ≤ sending.i ∧ sending.i.toNat + requested offset sending.i ≤ message.length then
        match result with
        | none => whileLess offset { sending with i := toInt (sending.i - 1), failed := true }
        | some more =>
            let ret := min (more + 1) (requested offset sending.i)
            whileLess offset
              { sending with
                i := toInt (sending.i + ret)
                sent := sending.sent ++ (message.drop sending.i.toNat).take ret }
      else .outside sending
  | state => state

/-- The loop after some rounds. -/
def replying (message : List UInt8) (offset : Int) (results : Nat → Option Nat) : Nat → Replying
  | 0 => .call ⟨0, [], false⟩
  | rounds + 1 =>
      replyRound message offset (results rounds) (replying message offset results rounds)

/-- The array `message`, with whatever it holds at first. -/
abbrev MessageArray := { bytes : List UInt8 // bytes.length = bufferSize }

/-- `_reply`, after some rounds of its loop. -/
def reply (code : UInt16) (text : CString) (message : MessageArray)
    (results : Nat → Option Nat) (rounds : Nat) : Except Fault Replying := do
  let (offset, message) ← formatReply code text message.val
  return replying message offset results rounds

/-- A reply is sent once and in bounds: `write` is only given ranges inside the array, the
bytes it takes are the reply from its beginning on, and the loop ends, when the whole reply
was taken or an error was reported and at no other time. -/
structure Replied (whole : List UInt8) (run : Nat → Except Fault Replying) : Prop where
  inside : ∀ rounds, ∃ sending, run rounds = .ok (.call sending) ∨ run rounds = .ok (.left sending)
  ordered : ∀ rounds state, run rounds = .ok state → state.sending.sent <+: whole
  goesOn : ∀ rounds sending, run rounds = .ok (.call sending) →
    sending.failed = false ∧ sending.sent ≠ whole
  stops : ∀ rounds sending, run rounds = .ok (.left sending) →
    sending.failed = true ∨ sending.sent = whole
  ends : ∃ rounds sending, run rounds = .ok (.left sending)

/-- How many bytes the first results of `write` stand for. -/
def handed (results : Nat → Option Nat) (rounds : Nat) : Nat :=
  ∑ round ∈ Finset.range rounds, (results round).elim 0 (· + 1)

/-! ## What is in the array -/

variable {code : UInt16} {text : CString} {message : List UInt8} {results : Nat → Option Nat}

theorem toInt_of_lt {n : Int} (low : -2 ^ 31 ≤ n) (high : n < 2 ^ 31) : toInt n = n := by
  rw [toInt, Int.bmod_def]
  split_ifs <;> omega

/-- The array behind the code. -/
theorem vsnprintf_code (room : message.length = bufferSize) :
    vsnprintf (formattedCode code) bufferSize message =
      .ok (codeText code ++ 0 :: message.drop ((codeText code).length + 1)) := by
  have hshort := length_codeText_le code
  have hsize : bufferSize = 10004 := rfl
  have hall : (codeText code).take (bufferSize - 1) = codeText code :=
    List.take_of_length_le (by omega)
  rw [formattedCode, vsnprintf, hall, storeBytes_eq_splice (by simp; omega), splice]
  simp

/-- A text whose length an `int` can hold is cut at the end of the array. -/
theorem formatReply_text (code : UInt16) (room : message.length = bufferSize)
    (fits : text.bytes.length < 2 ^ 31) :
    ∃ after, formatReply code text message = .ok (toInt (replyText code text).length,
        (replyText code text).take (bufferSize - 1) ++ 0 :: after) ∧
      ((replyText code text).take (bufferSize - 1) ++ 0 :: after).length = bufferSize := by
  have hshort := length_codeText_le code
  have hsize : bufferSize = 10004 := rfl
  have hcut : (replyText code text).take (bufferSize - 1) =
      codeText code ++ text.bytes.take (bufferSize - (codeText code).length - 1) := by
    rw [replyText, List.take_append, List.take_of_length_le (by omega)]
    congr 2
    omega
  have hformatted : formattedText text = .text text.bytes fits := dif_pos fits
  rw [formatReply, vsnprintf_code room, bind_ok, hcut]
  simp only [List.drop_left, List.take_left]
  rw [hformatted, vsnprintf, storeBytes_eq_splice (by simp; omega), bind_ok]
  generalize hshown : text.bytes.take (bufferSize - (codeText code).length - 1) = shown
  have hlength : shown.length ≤ bufferSize - (codeText code).length - 1 := by
    rw [← hshown]
    exact List.length_take_le _ _
  refine ⟨(0 :: message.drop ((codeText code).length + 1)).drop (shown.length + 1), ?_, ?_⟩
  · have hresult : ((codeText code).length : Int) + (Formatted.text text.bytes fits).result =
        (replyText code text).length := by
      rw [replyText, List.length_append, Nat.cast_add, Formatted.result]
    rw [hresult]
    simp [splice, pure, Except.pure]
  · simp
    omega

/-- Of a longer text the code is all there is. -/
theorem formatReply_failed (code : UInt16) (room : message.length = bufferSize)
    (tooLong : ¬text.bytes.length < 2 ^ 31) :
    ∃ after, formatReply code text message = .ok (((codeText code).length - 1 : Nat),
        codeText code ++ 0 :: after) ∧ (codeText code ++ 0 :: after).length = bufferSize := by
  have hshort := length_codeText_le code
  have hsize : bufferSize = 10004 := rfl
  have hcode : 0 < (codeText code).length := by simp [codeText]
  have hformatted : formattedText text = .failed 0 (by decide) := dif_neg tooLong
  refine ⟨message.drop ((codeText code).length + 1), ?_, ?_⟩
  · have hoffset : toInt ((codeText code).length + (Formatted.failed 0 (by decide)).result) =
        ((codeText code).length - 1 : Nat) := by
      rw [Formatted.result, toInt_of_lt] <;> omega
    rw [formatReply, vsnprintf_code room, bind_ok, hformatted]
    simp only [hoffset, vsnprintf, bind_ok, List.take_left, List.drop_left, pure, Except.pure]
  · simp
    omega

/-! ## The rounds of the loop -/

/-- Without an error the results add up to `offset` at last. -/
theorem exists_handed {offset : Nat}
    (fine : ∀ round, handed results round < offset → results round ≠ none) :
    ∃ rounds, offset ≤ handed results rounds := by
  by_contra hnever
  rw [not_exists] at hnever
  have hgrows : ∀ rounds, rounds ≤ handed results rounds := by
    intro rounds
    induction rounds with
    | zero => exact Nat.zero_le _
    | succ rounds ih =>
        obtain ⟨more, hmore⟩ :=
          Option.ne_none_iff_exists'.mp (fine rounds (Nat.lt_of_not_le (hnever rounds)))
        rw [handed, Finset.sum_range_succ, ← handed, hmore, Option.elim_some]
        omega
  exact hnever offset (hgrows offset)

section

variable {offset : Nat} (inside : offset ≤ message.length) (room : message.length = bufferSize)

include inside room

/-- The range of a call that starts inside the reply. -/
theorem requested_eq {n : Nat} (before : n < offset) : requested offset n = offset - n := by
  have hsize : bufferSize = 10004 := rfl
  rw [requested, toInt_of_lt] <;> omega

/-- A call that takes bytes moves the position behind them. -/
theorem replyRound_some {n : Nat} (before : n < offset) (more : Nat) :
    replyRound message offset (some more) (.call ⟨n, message.take n, false⟩) =
      if n + (more + 1) < offset then
        .call ⟨(n + (more + 1) : Nat), message.take (n + (more + 1)), false⟩
      else .left ⟨offset, message.take offset, false⟩ := by
  have hsize : bufferSize = 10004 := rfl
  have hrange : 0 ≤ (n : Int) ∧ (n : Int).toNat + (offset - n) ≤ message.length := by omega
  rw [replyRound]
  simp only [requested_eq inside room before]
  rw [if_pos hrange, Int.toNat_natCast]
  have htaken : message.take n ++ (message.drop n).take (min (more + 1) (offset - n)) =
      message.take (n + min (more + 1) (offset - n)) := (List.take_add).symm
  rw [htaken]
  have hposition : toInt (n + min (more + 1) (offset - n) : Nat) =
      (n + min (more + 1) (offset - n) : Nat) := toInt_of_lt (by omega) (by omega)
  rw [← Nat.cast_add, hposition, whileLess]
  split_ifs with hgoes hless hless
  · rw [min_eq_left (by omega)]
  · rw [Nat.cast_lt] at hgoes
    omega
  · rw [Nat.cast_lt] at hgoes
    omega
  · have hend : n + min (more + 1) (offset - n) = offset := by omega
    rw [hend]

/-- A call that reports an error moves the position back, and the loop goes on. -/
theorem replyRound_none {n : Nat} (before : n < offset) :
    replyRound message offset none (.call ⟨n, message.take n, false⟩) =
      .call ⟨(n : Int) - 1, message.take n, true⟩ := by
  have hsize : bufferSize = 10004 := rfl
  have hrange : 0 ≤ (n : Int) ∧ (n : Int).toNat + (offset - n) ≤ message.length := by omega
  rw [replyRound]
  simp only [requested_eq inside room before]
  rw [if_pos hrange, toInt_of_lt (by omega) (by omega), whileLess, if_pos (by simp only; omega)]

/-- As long as no error is reported, the loop goes from the beginning of the array to
`offset`. -/
theorem replying_eq (filled : 0 < offset) (rounds : Nat)
    (fine : ∀ round < rounds, handed results round < offset → results round ≠ none) :
    replying message offset results rounds =
      if handed results rounds < offset then
        .call ⟨handed results rounds, message.take (handed results rounds), false⟩
      else .left ⟨offset, message.take offset, false⟩ := by
  induction rounds with
  | zero => simp [replying, handed, filled]
  | succ rounds ih =>
      have hsum : handed results (rounds + 1) =
          handed results rounds + (results rounds).elim 0 (· + 1) := Finset.sum_range_succ _ _
      rw [replying, ih fun round before => fine round (Nat.lt_succ_of_lt before)]
      by_cases hnow : handed results rounds < offset
      · rw [if_pos hnow]
        cases hresult : results rounds with
        | none => exact absurd hresult (fine rounds (Nat.lt_succ_self _) hnow)
        | some more =>
            rw [hresult, Option.elim_some] at hsum
            rw [replyRound_some inside room hnow, hsum]
      · rw [if_neg hnow, if_neg (by omega)]
        rfl

/-- A loop that ends at an error sees none before it has reached `offset`. -/
theorem fine_of_replied (filled : 0 < offset) {whole : List UInt8}
    (replied : Replied whole fun rounds => .ok (replying message offset results rounds))
    (round : Nat) : handed results round < offset → results round ≠ none := by
  induction round using Nat.strong_induction_on with
  | _ round earlier =>
      intro hnow hnone
      have hstate := replying_eq inside room filled round earlier
      rw [if_pos hnow] at hstate
      have hnext : replying message offset results (round + 1) =
          .call ⟨(handed results round : Int) - 1, message.take (handed results round), true⟩ := by
        rw [replying, hstate, hnone, replyRound_none inside room hnow]
      exact Bool.noConfusion (replied.goesOn (round + 1) _ (congrArg Except.ok hnext)).1

/-- What is sent is what stands in the array before `offset`. -/
theorem take_eq_of_replied (filled : 0 < offset) {whole : List UInt8}
    (replied : Replied whole fun rounds => .ok (replying message offset results rounds)) :
    message.take offset = whole := by
  obtain ⟨rounds, sending, hleft⟩ := replied.ends
  have hstate := replying_eq inside room filled rounds fun round _ =>
    fine_of_replied inside room filled replied round
  have hstops := replied.stops rounds sending hleft
  rw [hstate, Except.ok.injEq] at hleft
  split_ifs at hleft
  cases hleft
  exact hstops.resolve_left Bool.false_ne_true

/-- A loop that sees no error sends what stands in the array before `offset`. -/
theorem replied_of_fine (filled : 0 < offset)
    (fine : ∀ round, handed results round < offset → results round ≠ none) :
    Replied (message.take offset) fun rounds => .ok (replying message offset results rounds) := by
  have hstate (rounds : Nat) := replying_eq inside room filled rounds fun round _ => fine round
  have hlength : (message.take offset).length = offset := List.length_take_of_le inside
  constructor
  · intro rounds
    rw [hstate rounds]
    split_ifs
    · exact ⟨_, .inl rfl⟩
    · exact ⟨_, .inr rfl⟩
  · intro rounds state hrun
    rw [hstate rounds, Except.ok.injEq] at hrun
    split_ifs at hrun with hnow
    · subst hrun
      exact List.take_prefix_take_left hnow.le
    · subst hrun
      exact List.prefix_rfl
  · intro rounds sending hrun
    rw [hstate rounds, Except.ok.injEq] at hrun
    split_ifs at hrun with hnow
    cases hrun
    refine ⟨rfl, fun hwhole => ?_⟩
    have hcut := congrArg List.length hwhole
    rw [hlength, List.length_take] at hcut
    omega
  · intro rounds sending hrun
    rw [hstate rounds, Except.ok.injEq] at hrun
    split_ifs at hrun
    cases hrun
    exact .inr rfl
  · obtain ⟨rounds, hend⟩ := exists_handed fine
    refine ⟨rounds, ⟨offset, message.take offset, false⟩, ?_⟩
    rw [hstate rounds, if_neg (by omega)]

end

/-- A length that is larger than the array is a range outside it. -/
theorem not_inside {length : Nat} {whole : List UInt8} (room : message.length = bufferSize)
    (large : bufferSize < length) (bounded : length < 2 ^ 31 + 6) :
    ¬Replied whole fun rounds => .ok (replying message (toInt length) results rounds) := by
  have hsize : bufferSize = 10004 := rfl
  intro replied
  have hrange :
      ¬((0 : Int) ≤ 0 ∧ (0 : Int).toNat + requested (toInt length) 0 ≤ message.length) := by
    rw [requested, Int.sub_zero, toInt, toInt, Int.bmod_bmod, Int.bmod_def]
    split_ifs <;> omega
  have hfirst : replying message (toInt length) results 1 = .outside ⟨0, [], false⟩ := by
    simp only [replying, replyRound, if_neg hrange]
  obtain ⟨sending, hcall | hleft⟩ := replied.inside 1
  · rw [hfirst] at hcall
    cases hcall
  · rw [hfirst] at hleft
    cases hleft

/-! ## The reply -/

theorem reply_eq {offset : Int} {array : List UInt8} {message : MessageArray}
    (formatted : formatReply code text message.val = .ok (offset, array)) :
    reply code text message results =
      fun rounds => .ok (replying array offset results rounds) := by
  funext rounds
  rw [reply, formatted]
  rfl

theorem one_lt_length_codeText (code : UInt16) : 1 < (codeText code).length := by
  rw [codeText, List.length_append, List.length_singleton, length_decimal]
  exact Nat.succ_lt_succ (digitCount_pos _)

theorem length_replyText (code : UInt16) (text : CString) :
    (replyText code text).length = (codeText code).length + text.bytes.length :=
  List.length_append

/-- A reply that is shorter than the array stands in it as a whole. -/
theorem formatReply_short (message : MessageArray)
    (short : (replyText code text).length < bufferSize) :
    ∃ array, formatReply code text message.val = .ok ((replyText code text).length, array) ∧
      array.length = bufferSize ∧
      array.take (replyText code text).length = replyText code text := by
  have hsize : bufferSize = 10004 := rfl
  have hwhole := length_replyText code text
  obtain ⟨after, hformat, hlength⟩ := formatReply_text code message.property
    (show text.bytes.length < 2 ^ 31 by omega)
  have hall : (replyText code text).take (bufferSize - 1) = replyText code text :=
    List.take_of_length_le (by omega)
  rw [toInt_of_lt (by omega) (by omega), hall] at hformat
  rw [hall] at hlength
  exact ⟨_, hformat, hlength, List.take_left⟩

/-- A reply that fills the array loses its last byte to the NUL. -/
theorem not_replied_full {message : MessageArray}
    (full : (replyText code text).length = bufferSize) :
    ¬Replied (replyText code text) (reply code text message results) := by
  have hsize : bufferSize = 10004 := rfl
  have hshort := length_codeText_le code
  have hwhole := length_replyText code text
  obtain ⟨after, hformat, hlength⟩ := formatReply_text code message.property
    (show text.bytes.length < 2 ^ 31 by omega)
  rw [toInt_of_lt (by omega) (by omega), full] at hformat
  rw [reply_eq hformat]
  intro replied
  have hsent := take_eq_of_replied hlength.ge hlength (by omega) replied
  rw [List.take_of_length_le hlength.le] at hsent
  -- the byte in the last place is both the NUL and a byte of the text
  have hafter : after = [] := by
    rw [List.length_append, List.length_cons, List.length_take, full] at hlength
    exact List.eq_nil_of_length_eq_zero (by omega)
  have hlast : (replyText code text).getLast? = some 0 := by
    rw [← hsent, hafter, List.getLast?_concat]
  have htext : text.bytes ≠ [] := fun hnil => by
    rw [hnil, List.length_nil] at hwhole
    omega
  rw [replyText, List.getLast?_append_of_ne_nil _ htext] at hlast
  exact text.plain (List.mem_of_getLast? hlast)

/-- A reply with a text whose length is no `int` ends in the code. -/
theorem not_replied_failed {message : MessageArray} (tooLong : ¬text.bytes.length < 2 ^ 31) :
    ¬Replied (replyText code text) (reply code text message results) := by
  have hsize : bufferSize = 10004 := rfl
  have hshort := length_codeText_le code
  have hcode := one_lt_length_codeText code
  have hwhole := length_replyText code text
  obtain ⟨after, hformat, hlength⟩ := formatReply_failed code message.property tooLong
  rw [reply_eq hformat]
  intro replied
  have hsent := take_eq_of_replied (by omega) hlength (by omega) replied
  have hcut := congrArg List.length hsent
  rw [List.length_take] at hcut
  omega

/-- A reply is sent as it should be exactly when it is shorter than the array and `write`
reports no error before all of it was taken. -/
theorem replied_iff (code : UInt16) (text : CString) (message : MessageArray)
    (results : Nat → Option Nat) :
    Replied (replyText code text) (reply code text message results) ↔
      (replyText code text).length < bufferSize ∧
        ∀ round, handed results round < (replyText code text).length → results round ≠ none := by
  have hcode := one_lt_length_codeText code
  have hwhole := length_replyText code text
  by_cases hshort : (replyText code text).length < bufferSize
  · obtain ⟨array, hformat, hlength, htake⟩ := formatReply_short message hshort
    have hinside : (replyText code text).length ≤ array.length := by omega
    rw [reply_eq hformat]
    constructor
    · intro replied
      exact ⟨hshort, fine_of_replied hinside hlength (by omega) replied⟩
    · rintro ⟨-, fine⟩
      have hreplied := replied_of_fine hinside hlength (by omega) fine
      rwa [htake] at hreplied
  · have hnot : ¬Replied (replyText code text) (reply code text message results) := by
      by_cases hfits : text.bytes.length < 2 ^ 31
      · rcases Nat.eq_or_lt_of_le (Nat.le_of_not_lt hshort) with hfull | hlarge
        · exact not_replied_full hfull.symm
        · obtain ⟨after, hformat, hlength⟩ := formatReply_text code message.property hfits
          rw [reply_eq hformat]
          have := length_codeText_le code
          exact not_inside hlength hlarge (by omega)
      · exact not_replied_failed hfits
    exact iff_of_false hnot fun hboth => hshort hboth.1

/-- The first `write` of a short reply fails, and the loop goes on one byte before the
array. -/
theorem not_replied_error :
    ¬Replied (replyText 1 (.ofText "Huge data value for parameters\n"))
      (reply 1 (.ofText "Huge data value for parameters\n")
        ⟨List.replicate bufferSize 0, List.length_replicate⟩ fun _ => none) := by
  obtain ⟨array, hformat, hlength, -⟩ := formatReply_short
    ⟨List.replicate bufferSize 0, List.length_replicate⟩
    (show (replyText 1 (.ofText "Huge data value for parameters\n")).length < bufferSize by decide)
  rw [reply_eq hformat]
  intro replied
  exact fine_of_replied (by rw [hlength]; decide) hlength (by decide) replied 0 (by decide) rfl

end MmtProbe.DynamicConf
