/-
# The four fields at the start of every report

Every report is to start with its type, the number of the probe, the input source
between quotes and the time, and the body is to follow behind a comma.  The header is
built in an array of 3000 bytes, but within the length of a file name: a long source
is cut and takes the place of the time, and a time loses its microseconds before that.
-/

import MmtProbe.Output.ReportBounds

namespace MmtProbe.Output

open MmtProbe.Math MmtProbe.Dpi MmtProbe.Lib

/-! ## The documented line -/

/-- A number with its sign. -/
def signedText (n : Int) : List UInt8 := if n < 0 then 45 :: decimal n.natAbs else decimal n.toNat

/-- A number of microseconds, with zeros in front of it up to six digits. -/
def microsText (n : Int) : List UInt8 :=
  if 0 ≤ n ∧ n < 10 ^ 6 then fixed 6 n.toNat else signedText n

/-- `seconds.micros` -/
def timestampText (ts : Timeval) : List UInt8 := signedText ts.tvSec ++ 46 :: microsText ts.tvUsec

/-- The source between quotes. -/
def quotedSource (output : OutputT) : List UInt8 := 34 :: (output.inputSrc.bytes ++ [34])

/-- The fields of the common report. -/
def commonReport (output : OutputT) (reportType : UInt32) (ts : Timeval) : List UInt8 :=
  headerNumbers output reportType ++ (quotedSource output ++ 44 :: timestampText ts)

/-- What stands behind the fields: a comma and the body, when there is one. -/
def bodyPart : Option CString → List UInt8
  | none => []
  | some body => 44 :: body.bytes

def documentedLine (output : OutputT) (reportType : UInt32) (ts : Timeval)
    (body : Option CString) : List UInt8 :=
  commonReport output reportType ts ++ bodyPart body

/-- An output that is enabled makes the documented line in its array, and this line is what
every channel is given. -/
def WritesDocumented (output : OutputT) (channels reportType : UInt32) (ts : Timeval)
    (body : Option CString) (message newMsg : ReportArray) : Prop :=
  ∀ config, output.enabledConf channels = some config →
    ∃ report, outputWriteReport output channels reportType ts body message newMsg =
        .ok (some report) ∧
      loadString report.message 0 = .ok (documentedLine output reportType ts body) ∧
      ∀ sent ∈ report.written.sent,
        sent.2 = lineFor config sent.1 (documentedLine output reportType ts body)

/-- The condition on the fields: a time of at most twelve digits before the point, and a
source that leaves the room that is asked for the time. -/
structure HeaderFits (output : OutputT) (reportType : UInt32) (ts : Timeval) : Prop where
  sec : 0 ≤ ts.tvSec ∧ ts.tvSec < 10 ^ 12
  usec : 0 ≤ ts.tvUsec ∧ ts.tvUsec < 10 ^ 6
  room : digitCount reportType.toNat + digitCount output.probeId.toNat +
    output.inputSrc.bytes.length + 5 + max 12 (digitCount ts.tvSec.toNat + 7) ≤ 254

variable {output : OutputT} {channels reportType : UInt32} {ts : Timeval}

/-! ## The time -/

theorem timestampText_eq (sec : 0 ≤ ts.tvSec) (usec : 0 ≤ ts.tvUsec ∧ ts.tvUsec < 10 ^ 6) :
    timestampText ts = decimal ts.tvSec.toNat ++ 46 :: fixed 6 ts.tvUsec.toNat := by
  rw [timestampText, signedText, if_neg (by omega), microsText, if_pos usec]

/-- A time in range is written completely into a room of the size it asks for. -/
theorem timeText_eq_timestamp {room : Nat} (sec : 0 ≤ ts.tvSec ∧ ts.tvSec < 10 ^ 12)
    (usec : 0 ≤ ts.tvUsec ∧ ts.tvUsec < 10 ^ 6)
    (enough : max 12 (digitCount ts.tvSec.toNat + 7) ≤ room) :
    timeText room ts = some (timestampText ts) := by
  have hsec : (UInt64.ofInt ts.tvSec).toNat = ts.tvSec.toNat := toNat_ofInt sec.1 (by omega)
  have husec : (UInt64.ofInt ts.tvUsec).toNat = ts.tvUsec.toNat := toNat_ofInt usec.1 (by omega)
  have htwelve : digitCount ts.tvSec.toNat ≤ 12 := by
    rw [digitCount_le_iff (by decide)]
    omega
  have hnumber : numberText room ts.tvSec.toNat = decimal ts.tvSec.toNat := if_pos (by omega)
  have hmicro : microText (UInt64.ofInt ts.tvUsec) = fixed 6 ts.tvUsec.toNat := by
    rw [microText, husec, if_pos (by omega)]
  simp only [timeText, hsec, hnumber, length_decimal, hmicro]
  rw [if_neg (by omega), if_neg (by omega), if_neg (by omega), timestampText_eq sec.1 usec]

theorem notMem_decimal {byte : UInt8} (notDigit : isDigit byte = false) (n : Nat) :
    byte ∉ decimal n := notMem_fixed notDigit _ _

/-- Digits that are those of a number with its sign: the number is not negative. -/
theorem nonneg_of_signedText {n : Int} {digits : List UInt8} (plain : (45 : UInt8) ∉ digits)
    (same : digits = signedText n) : 0 ≤ n := by
  by_contra hneg
  rw [signedText, if_pos (by omega)] at same
  exact plain (same ▸ List.mem_cons_self)

theorem point_notMem_signedText (n : Int) : (46 : UInt8) ∉ signedText n := by
  rw [signedText]
  split_ifs
  · simp [notMem_decimal, isDigit]
  · exact notMem_decimal (by decide) _

theorem notMem_numberText {byte : UInt8} (notDigit : isDigit byte = false) (room n : Nat) :
    byte ∉ numberText room n := by
  rw [numberText]
  split_ifs
  · exact notMem_decimal notDigit _
  · simp

/-- The seconds of a time that was written as documented. -/
theorem sec_of_numberText {room : Nat} (short : (numberText room (seconds ts)).length ≤ 12)
    (same : numberText room (seconds ts) = signedText ts.tvSec) :
    (0 ≤ ts.tvSec ∧ ts.tvSec < 10 ^ 12) ∧
      (numberText room (seconds ts)).length = digitCount ts.tvSec.toNat := by
  have hnonneg := nonneg_of_signedText (notMem_numberText (by decide) _ _) same
  rw [signedText, if_neg (by omega)] at same
  rw [same, length_decimal] at short ⊢
  have hsmall := (digitCount_le_iff (by decide)).mp short
  exact ⟨⟨hnonneg, by omega⟩, rfl⟩

/-- The microseconds of a time that was written as documented. -/
theorem usec_of_microText (same : microText (UInt64.ofInt ts.tvUsec) = microsText ts.tvUsec) :
    0 ≤ ts.tvUsec ∧ ts.tvUsec < 10 ^ 6 := by
  by_contra houtside
  rw [microsText, if_neg houtside] at same
  have hnonneg := nonneg_of_signedText (notMem_microText (by decide) _) same
  have hlength := congrArg List.length same
  rw [length_microText, signedText, if_neg (by omega), length_decimal] at hlength
  have hsmall := (digitCount_le_iff (n := ts.tvUsec.toNat) (show 0 < 6 by decide)).mp (by omega)
  exact houtside ⟨hnonneg, by omega⟩

/-- A time that was written as documented is in range and had the room it asks for. -/
theorem time_fits_of_eq {room : Nat} (written : timeText room ts = some (timestampText ts)) :
    (0 ≤ ts.tvSec ∧ ts.tvSec < 10 ^ 12) ∧ (0 ≤ ts.tvUsec ∧ ts.tvUsec < 10 ^ 6) ∧
      max 12 (digitCount ts.tvSec.toNat + 7) ≤ room := by
  have hpoint : (46 : UInt8) ∈ timestampText ts :=
    List.mem_append_right _ List.mem_cons_self
  have hfree := notMem_numberText (show isDigit 46 = false by decide) room (seconds ts)
  simp only [timeText] at written
  change (if room < 12 then some [] else
    if (numberText room (seconds ts)).length > 12 then none
    else if room < (numberText room (seconds ts)).length + 7
      then some (numberText room (seconds ts))
    else some (numberText room (seconds ts) ++ 46 :: microText (UInt64.ofInt ts.tvUsec))) = _
    at written
  split_ifs at written with hroom hlong htight
  · rw [← Option.some.inj written] at hpoint
    cases hpoint
  · rw [← Option.some.inj written] at hpoint
    exact absurd hpoint hfree
  · have hsplit := split_injective hfree (point_notMem_signedText ts.tvSec)
      (Option.some.inj written)
    rcases sec_of_numberText (by omega) hsplit.1 with ⟨hsec, hlength⟩
    exact ⟨hsec, usec_of_microText hsplit.2, by omega⟩

/-! ## The header -/

/-- With room for the whole source and its comma, the front is not cut. -/
theorem headerFront_eq
    (fits : (headerNumbers output reportType).length + output.inputSrc.bytes.length + 3 ≤ 254) :
    headerFront output reportType =
      headerNumbers output reportType ++ (quotedSource output ++ [44]) := by
  have hquoted : quotedText (254 - (headerNumbers output reportType).length)
      output.inputSrc.bytes = quotedSource output := by
    rw [quotedText, if_neg (by omega), List.take_of_length_le (by omega), quotedSource]
  have hcomma : ([44] : List UInt8).take
      (254 - (headerNumbers output reportType ++ quotedSource output).length) = [44] := by
    apply List.take_of_length_le
    simp only [quotedSource, List.length_append, List.length_cons, List.length_nil]
    omega
  simp only [headerFront, hquoted, withSeparator, hcomma, List.append_assoc]

theorem frontLength_eq
    (fits : (headerNumbers output reportType).length + output.inputSrc.bytes.length + 3 ≤ 254) :
    frontLength output reportType =
      (headerNumbers output reportType).length + output.inputSrc.bytes.length + 3 := by
  rw [← length_headerFront, headerFront_eq fits]
  simp only [quotedSource, List.length_append, List.length_cons, List.length_nil]
  omega

/-- The header is the documented one exactly when it fits. -/
theorem header_documented_iff :
    (timeText (254 - frontLength output reportType) ts).map (headerFront output reportType ++ ·) =
      some (commonReport output reportType ts) ↔ HeaderFits output reportType ts := by
  have hnumbers := length_headerNumbers output reportType
  have hcommon : commonReport output reportType ts =
      headerNumbers output reportType ++ (quotedSource output ++ [44]) ++ timestampText ts := by
    simp [commonReport]
  constructor
  · intro hdocumented
    rcases Option.map_eq_some_iff.mp hdocumented with ⟨time, htime, hheader⟩
    -- the header has at most 254 characters, so that the documented one does too
    have hbound := length_timeText_le htime
    have hfront := length_headerFront output reportType
    have hle : frontLength output reportType ≤ 254 := Nat.min_le_left _ _
    have hlength := congrArg List.length hheader
    simp only [List.length_append, commonReport, quotedSource, List.length_cons,
      List.length_nil] at hlength
    have hwhole : (headerNumbers output reportType).length +
        output.inputSrc.bytes.length + 3 ≤ 254 := by omega
    rw [hcommon, headerFront_eq hwhole] at hheader
    rw [List.append_cancel_left hheader, frontLength_eq hwhole] at htime
    rcases time_fits_of_eq htime with ⟨hsec, husec, hroom⟩
    exact ⟨hsec, husec, by omega⟩
  · intro hfits
    have hroom := hfits.room
    have hwhole : (headerNumbers output reportType).length +
        output.inputSrc.bytes.length + 3 ≤ 254 := by omega
    rw [frontLength_eq hwhole, headerFront_eq hwhole, hcommon,
      timeText_eq_timestamp hfits.sec hfits.usec (by omega), Option.map_some]

/-! ## The whole line -/

/-- A message of a known text is handed on as it is, when the brackets fit. -/
theorem finishReport_sends {config : OutputConf} {block text : List UInt8} {newMsg : ReportArray}
    (read : loadString block 0 = .ok text) (plain : (0 : UInt8) ∉ text)
    (fits : text.length ≤ reportRoom (output.surrounds config channels)) :
    ∃ report, finishReport output config channels ts block newMsg.val = .ok (some report) ∧
      report.message = block ∧
      ∀ sent ∈ report.written.sent, sent.2 = lineFor config sent.1 text := by
  rcases @write_cases output channels config _ _ _ read newMsg.property plain with
    ⟨-, written, hwritten, -, hsent⟩ | ⟨hneeds, hlong, -⟩
  · exact ⟨_, by rw [finishReport, hwritten]; rfl, rfl, hsent⟩
  · rw [reportRoom, if_pos hneeds] at fits
    omega

/-- A message that is handed on leaves room for its brackets. -/
theorem length_le_of_finishReport {config : OutputConf} {block text : List UInt8}
    {newMsg : ReportArray} {report : Report} (read : loadString block 0 = .ok text)
    (plain : (0 : UInt8) ∉ text) (short : text.length ≤ 2999)
    (finished : finishReport output config channels ts block newMsg.val = .ok (some report)) :
    text.length ≤ reportRoom (output.surrounds config channels) ∧ report.message = block := by
  rcases @write_cases output channels config _ _ _ read newMsg.property plain with
    ⟨hfits, written, hwritten, -⟩ | ⟨hneeds, hlong, reason, hreason⟩
  · rw [finishReport, hwritten] at finished
    cases finished
    refine ⟨?_, rfl⟩
    rw [reportRoom]
    split_ifs with hneeds
    · exact hfits hneeds
    · exact short
  · rw [finishReport, hreason] at finished
    cases finished

/-- The header and the body in the array, before they are handed on. -/
theorem outputWriteReport_eq {config : OutputConf}
    (enabled : output.enabledConf channels = some config)
    (body : Option CString) (message newMsg : ReportArray) {time : List UInt8}
    (timed : timeText (254 - frontLength output reportType) ts = some time)
    (fits : (headerFront output reportType ++ time ++ bodyPart body).length ≤ 2999) :
    outputWriteReport output channels reportType ts body message newMsg =
      finishReport output config channels ts
        (splice message.val 0 (headerFront output reportType ++ time ++ bodyPart body ++ [0]))
        newMsg.val := by
  have hheader := writeHeader_text output reportType ts message
  rw [timed] at hheader
  cases body with
  | none => simp only [outputWriteReport, enabled, hheader, bind_ok, bodyPart, List.append_nil]
  | some body =>
      rw [bodyPart, List.length_append, List.length_cons] at fits
      have hbody := @writeBody_eq message.val (headerFront output reportType ++ time)
        message.property body (by omega)
      simp only [outputWriteReport, enabled, hheader, bind_ok, hbody, mapError_ok, bodyPart]

/-- A body that does not fit is no report. -/
theorem outputWriteReport_long {config : OutputConf}
    (enabled : output.enabledConf channels = some config)
    (body : Option CString) (message newMsg : ReportArray) {time : List UInt8}
    (timed : timeText (254 - frontLength output reportType) ts = some time)
    (long : 2999 < (headerFront output reportType ++ time ++ bodyPart body).length)
    (report : Report) :
    outputWriteReport output channels reportType ts body message newMsg ≠ .ok (some report) := by
  have hheader := writeHeader_text output reportType ts message
  rw [timed] at hheader
  have hfront := length_headerFront output reportType
  have hle : frontLength output reportType ≤ 254 := Nat.min_le_left _ _
  have hbound := length_timeText_le timed
  have hshort : (headerFront output reportType ++ time).length ≤ 254 := by
    rw [List.length_append]
    omega
  cases body with
  | none =>
      rw [bodyPart, List.append_nil] at long
      omega
  | some body =>
      rw [bodyPart, List.length_append, List.length_cons] at long
      have hbody := @writeBody_eq_error message.val (headerFront output reportType ++ time)
        message.property hshort body (by omega)
      simp only [outputWriteReport, enabled, hheader, bind_ok, hbody]
      intro hsame
      cases hsame

theorem plain_bodyPart (body : Option CString) : (0 : UInt8) ∉ bodyPart body := by
  cases body with
  | none => simp [bodyPart]
  | some body => simp [bodyPart, body.plain]

/-- An enabled output writes the documented line exactly when the fields fit into the header
and the line into its array. -/
theorem exists_documented_iff {config : OutputConf}
    (enabled : output.enabledConf channels = some config) (body : Option CString)
    (message newMsg : ReportArray) :
    (∃ report, outputWriteReport output channels reportType ts body message newMsg =
        .ok (some report) ∧
      loadString report.message 0 = .ok (documentedLine output reportType ts body) ∧
      ∀ sent ∈ report.written.sent,
        sent.2 = lineFor config sent.1 (documentedLine output reportType ts body)) ↔
    HeaderFits output reportType ts ∧
      (documentedLine output reportType ts body).length ≤
        reportRoom (output.surrounds config channels) := by
  rw [← header_documented_iff]
  have hmessage : message.val.length = 3000 := message.property
  cases htime : timeText (254 - frontLength output reportType) ts with
  | none =>
      have hheader := writeHeader_text output reportType ts message
      rw [htime] at hheader
      apply iff_of_false
      · rintro ⟨report, hreport, -⟩
        rw [outputWriteReport, enabled, hheader] at hreport
        cases hreport
      · rintro ⟨hdocumented, -⟩
        cases hdocumented
  | some time =>
      have hplain : (0 : UInt8) ∉ headerFront output reportType ++ time ++ bodyPart body := by
        have hbody := plain_bodyPart body
        simp [plain_headerFront, (timeText_eq_some htime).2, hbody]
      rw [Option.map_some, Option.some.injEq]
      constructor
      · rintro ⟨report, hreport, hread, -⟩
        have hfits : (headerFront output reportType ++ time ++ bodyPart body).length ≤ 2999 := by
          by_contra hlong
          exact outputWriteReport_long enabled body message newMsg htime (by omega) report hreport
        have hblock : loadString (splice message.val 0
            (headerFront output reportType ++ time ++ bodyPart body ++ [0])) 0 =
              .ok (headerFront output reportType ++ time ++ bodyPart body) :=
          terminated_splice (by omega) hplain
        rw [outputWriteReport_eq enabled body message newMsg htime hfits] at hreport
        rcases length_le_of_finishReport hblock hplain hfits hreport with ⟨hroom, hsame⟩
        rw [hsame, hblock, Except.ok.injEq] at hread
        rw [← hread]
        exact ⟨List.append_cancel_right hread, hroom⟩
      · rintro ⟨hheader, hroom⟩
        rw [documentedLine, ← hheader] at hroom
        have hfits : (headerFront output reportType ++ time ++ bodyPart body).length ≤ 2999 := by
          refine Nat.le_trans hroom ?_
          rw [reportRoom]
          split_ifs <;> decide
        have hblock : loadString (splice message.val 0
            (headerFront output reportType ++ time ++ bodyPart body ++ [0])) 0 =
              .ok (headerFront output reportType ++ time ++ bodyPart body) :=
          terminated_splice (by omega) hplain
        rcases @finishReport_sends output channels ts config _ _ newMsg hblock hplain hroom with
          ⟨report, hreport, hsame, hsent⟩
        refine ⟨report, ?_, ?_, ?_⟩
        · rw [outputWriteReport_eq enabled body message newMsg htime hfits, hreport]
        · rw [hsame, hblock, documentedLine, ← hheader]
        · rw [documentedLine, ← hheader]
          exact hsent

/-- A report starts with the documented fields, and its body follows, exactly when the
fields fit into the header and the line into its array. -/
theorem writesDocumented_iff (output : OutputT) (channels reportType : UInt32) (ts : Timeval)
    (body : Option CString) (message newMsg : ReportArray) :
    WritesDocumented output channels reportType ts body message newMsg ↔
      ∀ config, output.enabledConf channels = some config →
        HeaderFits output reportType ts ∧
          (documentedLine output reportType ts body).length ≤
            reportRoom (output.surrounds config channels) :=
  forall₂_congr fun _ enabled => exists_documented_iff enabled body message newMsg

/-- A source of three hundred characters, such as a long path. -/
def longSource : CString where
  bytes := List.replicate 300 97
  plain := by
    rw [List.mem_replicate]
    rintro ⟨-, h⟩
    exact absurd h (by decide)

/-- With a long source the time is not written, in a report without a body. -/
theorem not_writesDocumented_longSource :
    ¬WritesDocumented { plainOutput with inputSrc := longSource } 1 1 ⟨1500000000, 0⟩ none
      emptyArray emptyArray := by
  intro documented
  have henabled : OutputT.enabledConf { plainOutput with inputSrc := longSource } 1 =
      some ⟨true, .csv⟩ := by decide
  have hfits := (exists_documented_iff henabled none emptyArray emptyArray).mp
    (documented _ henabled)
  have hlong : longSource.bytes.length = 300 := List.length_replicate
  have hroom := hfits.1.room
  dsimp only at hroom
  omega

end MmtProbe.Output
