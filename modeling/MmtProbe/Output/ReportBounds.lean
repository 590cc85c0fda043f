/-
# The bounds of a report

When do the functions that assemble a report keep to their arrays?  The length of
the header is a matter of the digits of its numbers and of the length of the input
source; behind it, the body of a report must leave room for the NUL, and for the two
brackets when it is surrounded.  The results here say that this is exactly the
condition: a longer body, or a formatted text that fills its array, is written
behind the end.
-/

import MmtProbe.Output.Report

namespace MmtProbe.Output

open MmtProbe.Math MmtProbe.Dpi MmtProbe.Lib

/-! ## What is wanted, and when it holds -/

/-- A string is terminated inside its array. -/
def Terminated (array : List UInt8) : Prop := ∃ text, loadString array 0 = .ok text

/-- No access leaves an array, and the strings of a report are terminated. A process
that is stopped by an assertion has not left an array. -/
def StaysInside (output : OutputT) (channels : UInt32) : Except Stop (Option Report) → Prop
  | .error (.fault _) => False
  | .error .abort => True
  | .ok none => True
  | .ok (some report) => Terminated report.message ∧
      ∀ config, output.enabledConf channels = some config →
        output.surrounds config channels = true → Terminated report.written.newMsg

/-- The characters of the header before the time: two numbers, a string and three commas,
cut at 254 characters. -/
def frontLength (output : OutputT) (reportType : UInt32) : Nat :=
  let numbers := digitCount reportType.toNat + 1 + (digitCount output.probeId.toNat + 1)
  min 254 (numbers + min (output.inputSrc.bytes.length + 2) (254 - numbers) + 1)

/-- The characters of a time that is given some room. -/
def timeLength (room : Nat) (ts : Timeval) : Nat :=
  if room < 12 then 0
  else if room < numberLength room (seconds ts) + 7 then numberLength room (seconds ts)
  else numberLength room (seconds ts) + 7

/-- The length of the header of a report. -/
def headerLength (output : OutputT) (reportType : UInt32) (ts : Timeval) : Nat :=
  frontLength output reportType + timeLength (254 - frontLength output reportType) ts

/-- The room for a report: one byte is for the NUL, two more for the brackets. -/
def reportRoom (surrounded : Bool) : Nat := if surrounded then 2997 else 2999

/-- The condition on a body of some length. -/
def BodyFits (output : OutputT) (channels reportType : UInt32) (ts : Timeval) (length : Nat) :
    Prop :=
  ∀ config, output.enabledConf channels = some config →
    ¬TimeStops (254 - frontLength output reportType) ts →
    headerLength output reportType ts + 1 + length ≤ reportRoom (output.surrounds config channels)

/-- The condition on a formatted text. -/
def FormatFits (output : OutputT) (channels reportType : UInt32) (ts : Timeval)
    (formatted : Formatted) : Prop :=
  output.enabledConf channels = none ∨
    ∃ bytes fits, formatted = .text bytes fits ∧ bytes.length < maxLengthReportMessage ∧
      BodyFits output channels reportType ts (cstring bytes).length

/-! ## The header -/

variable {output : OutputT} {channels reportType : UInt32} {ts : Timeval}

theorem digitCount_uint32_le (val : UInt32) : digitCount val.toNat ≤ 10 := by
  rw [digitCount_le_iff (by decide)]
  have := val.toNat_lt
  omega

theorem plain_quotedText {room : Nat} {src : CString} :
    (0 : UInt8) ∉ quotedText room src.bytes := by
  rw [quotedText]
  split_ifs with hroom
  · simp
  · have htake : (0 : UInt8) ∉ src.bytes.take (room - 2) :=
      fun listed => src.plain (List.mem_of_mem_take listed)
    simp [htake]

theorem length_quotedText {room : Nat} (enough : 2 ≤ room) (src : CString) :
    (quotedText room src.bytes).length = min (src.bytes.length + 2) room := by
  rw [quotedText, if_neg (by omega), List.length_cons, List.length_append, List.length_take,
    List.length_singleton]
  omega

theorem plain_numberText (room n : Nat) : (0 : UInt8) ∉ numberText room n := by
  rw [numberText]
  split_ifs
  · exact notMem_fixed (by decide) _ _
  · simp

theorem timeText_eq_some {room : Nat} {text : List UInt8} (written : timeText room ts = some text) :
    text.length = timeLength room ts ∧ (0 : UInt8) ∉ text := by
  have hlength := length_numberText room (UInt64.ofInt ts.tvSec).toNat
  have hplain := plain_numberText room (UInt64.ofInt ts.tvSec).toNat
  rw [timeLength, seconds, ← hlength]
  simp only [timeText] at written
  generalize numberText room (UInt64.ofInt ts.tvSec).toNat = digits at hplain written ⊢
  split_ifs at written with hroom hlong htight
  · cases written
    simp [hroom]
  · cases written
    simp [hroom, htight, hplain]
  · cases written
    simp [hroom, htight, hplain, notMem_microText, isDigit]

/-- The two numbers of the header, each with a comma behind it. -/
def headerNumbers (output : OutputT) (reportType : UInt32) : List UInt8 :=
  decimal reportType.toNat ++ [44] ++ decimal output.probeId.toNat ++ [44]

/-- What stands before the time in the header: the numbers are never cut, the source is. -/
def headerFront (output : OutputT) (reportType : UInt32) : List UInt8 :=
  let numbers := headerNumbers output reportType
  withSeparator 254 [44] (numbers ++ quotedText (254 - numbers.length) output.inputSrc.bytes)

theorem length_headerNumbers (output : OutputT) (reportType : UInt32) :
    (headerNumbers output reportType).length =
      digitCount reportType.toNat + 1 + (digitCount output.probeId.toNat + 1) := by
  simp only [headerNumbers, List.length_append, length_decimal, List.length_singleton]
  omega

theorem length_headerNumbers_le (output : OutputT) (reportType : UInt32) :
    (headerNumbers output reportType).length ≤ 22 := by
  have htype := digitCount_uint32_le reportType
  have hprobe := digitCount_uint32_le output.probeId
  rw [length_headerNumbers]
  omega

theorem length_headerFront (output : OutputT) (reportType : UInt32) :
    (headerFront output reportType).length = frontLength output reportType := by
  have hshort := length_headerNumbers_le output reportType
  have hnumbers := length_headerNumbers output reportType
  have hquoted := length_quotedText
    (show 2 ≤ 254 - (headerNumbers output reportType).length by omega) output.inputSrc
  simp only [headerFront, withSeparator, List.length_append, List.length_take,
    List.length_singleton, hquoted, frontLength]
  omega

theorem plain_headerFront (output : OutputT) (reportType : UInt32) :
    (0 : UInt8) ∉ headerFront output reportType := by
  have hplain : (0 : UInt8) ∉ headerNumbers output reportType := by
    simp [headerNumbers, decimal, notMem_fixed, isDigit]
  have hcut : ∀ n, (0 : UInt8) ∉ ([44] : List UInt8).take n :=
    fun n listed => absurd (List.mem_of_mem_take listed) (by decide)
  simp only [headerFront, withSeparator, List.mem_append, hplain, plain_quotedText, hcut, or_self,
    not_false_eq_true]

/-- The elements of the header leave the front and the time. -/
theorem buildText_header (output : OutputT) (reportType : UInt32) (time : Field) :
    buildText 254 [44] [.int reportType.toUInt64, .int output.probeId.toUInt64,
        .str output.inputSrc, time] [] =
      withField 254 time (headerFront output reportType) := by
  have htype := digitCount_uint32_le reportType
  have hprobe := digitCount_uint32_le output.probeId
  have hshort := length_headerNumbers_le output reportType
  have hfirst : withField 254 (.int reportType.toUInt64) [] = some (decimal reportType.toNat) :=
    withField_eq trivial (by simp [Field.need, Field.full]; omega)
  have hsecond : withField 254 (.int output.probeId.toUInt64) (decimal reportType.toNat ++ [44]) =
      some (decimal reportType.toNat ++ [44] ++ decimal output.probeId.toNat) :=
    withField_eq trivial (by simp [Field.need, Field.full]; omega)
  have hcomma : ∀ sofar : List UInt8, sofar.length < 254 →
      withSeparator 254 [44] sofar = sofar ++ [44] := by
    intro sofar short
    rw [withSeparator, List.take_of_length_le]
    rw [List.length_singleton]
    omega
  have hnumbers : decimal reportType.toNat ++ [44] ++ decimal output.probeId.toNat ++ [44] =
      headerNumbers output reportType := rfl
  have hthird : withField 254 (.str output.inputSrc) (headerNumbers output reportType) =
      some (headerNumbers output reportType ++
        quotedText (254 - (headerNumbers output reportType).length) output.inputSrc.bytes) := by
    rw [withField, if_pos (by omega)]
    rfl
  rw [buildText_cons_cons, hfirst, Option.bind_some, hcomma _ (by rw [length_decimal]; omega),
    buildText_cons_cons, hsecond, Option.bind_some, hcomma _ (by simp; omega), hnumbers,
    buildText_cons_cons, hthird, Option.bind_some]
  rfl

/-- The time is written in the room behind the front, which may be none. -/
theorem withField_time (output : OutputT) (reportType : UInt32) (ts : Timeval) :
    withField 254 (.time ts) (headerFront output reportType) =
      (timeText (254 - frontLength output reportType) ts).map
        (headerFront output reportType ++ ·) := by
  have hfront := length_headerFront output reportType
  rw [withField, hfront]
  split_ifs with hroom
  · rfl
  · have hzero : 254 - frontLength output reportType = 0 := by omega
    rw [hzero]
    simp [timeText]

/-- What `writeHeader` leaves in its array. -/
theorem writeHeader_text (output : OutputT) (reportType : UInt32) (ts : Timeval)
    (message : ReportArray) :
    writeHeader output reportType ts message.val =
      match timeText (254 - frontLength output reportType) ts with
      | none => .error .abort
      | some time => .ok ((headerFront output reportType ++ time).length,
          splice message.val 0 (headerFront output reportType ++ time ++ [0])) := by
  have hmessage : message.val.length = 3000 := message.property
  have hcomma : separatorBytes (some (.ofText ",")) = [44] := by decide +kernel
  have hbuild : build (some (.ofText ",")) 0 message.val 255
      [.int reportType.toUInt64, .int output.probeId.toUInt64, .str output.inputSrc, .time ts] =
        _ :=
    build_eq _ _ (by omega) (by omega) (by omega) (by omega)
  rw [hcomma, List.take_zero, buildText_header, withField_time] at hbuild
  rw [writeHeader, stringBuilderWithSeparator, maxLengthFullPathFileName, hbuild]
  cases timeText (254 - frontLength output reportType) ts <;> rfl

/-- The header: the assertion on the time stops it, or it has the length that was said. -/
theorem writeHeader_eq (output : OutputT) (reportType : UInt32) (ts : Timeval)
    (message : ReportArray) :
    (TimeStops (254 - frontLength output reportType) ts ∧
        writeHeader output reportType ts message.val = .error .abort) ∨
      ∃ header, ¬TimeStops (254 - frontLength output reportType) ts ∧
        header.length = headerLength output reportType ts ∧ (0 : UInt8) ∉ header ∧
        header.length ≤ 254 ∧
        writeHeader output reportType ts message.val =
          .ok (header.length, splice message.val 0 (header ++ [0])) := by
  have hfront := length_headerFront output reportType
  have hle : frontLength output reportType ≤ 254 := Nat.min_le_left _ _
  rw [writeHeader_text]
  cases htime : timeText (254 - frontLength output reportType) ts with
  | none => exact .inl ⟨timeText_eq_none_iff.mp htime, rfl⟩
  | some time =>
      have hsome := timeText_eq_some htime
      have hbound := length_timeText_le htime
      have hgoes : ¬TimeStops (254 - frontLength output reportType) ts := by
        rw [← timeText_eq_none_iff, htime]
        simp
      refine .inr ⟨headerFront output reportType ++ time, hgoes, ?_, ?_, ?_, rfl⟩
      · rw [List.length_append, hsome.1, hfront, headerLength]
      · simp [plain_headerFront, hsome.2]
      · rw [List.length_append]
        omega

/-! ## The body and the brackets -/

/-- A body that leaves room for the NUL is written completely. -/
theorem writeBody_eq {message header : List UInt8} (array : message.length = 3000) (body : CString)
    (fits : header.length + 1 + body.bytes.length ≤ 2999) :
    writeBody (splice message 0 (header ++ [0])) header.length body =
      .ok (splice message 0 (header ++ 44 :: body.bytes ++ [0])) := by
  have hcomma : store (splice message 0 (header ++ [0])) (0 + header.length) 44 =
      .ok (splice message 0 (header ++ [44])) :=
    store_splice_inside header [] (by rw [List.length_nil]; omega) 0 44
  have hfront : (header ++ [(44 : UInt8)]).length = header.length + 1 := by simp
  have hlength : (splice message 0 (header ++ [44])).length = 3000 := by
    rw [length_splice (by omega), array]
  have hlen : (if body.bytes.length > maxLengthReportMessage - (header.length + 1)
      then maxLengthReportMessage - (header.length + 1) else body.bytes.length) =
      body.bytes.length := if_neg (by rw [maxLengthReportMessage]; omega)
  have hbody : splice (splice message 0 (header ++ [44])) (header.length + 1) body.bytes =
      splice message 0 (header ++ [44] ++ body.bytes) := by
    rw [← hfront, splice_splice_zero (by omega)]
  have hclose : store (splice message 0 (header ++ [44] ++ body.bytes))
      (0 + (header ++ [44] ++ body.bytes).length) 0 =
      .ok (splice message 0 (header ++ [44] ++ body.bytes ++ [0])) :=
    store_splice _ (by rw [List.length_append]; omega) 0
  rw [Nat.zero_add] at hcomma hclose
  rw [List.length_append, hfront] at hclose
  simp only [writeBody, hcomma, bind_ok, hlen, List.take_length]
  rw [storeBytes_eq_splice (by omega), bind_ok, hbody, hclose]
  simp

/-- A body that leaves no room for the NUL is cut, and the NUL is written behind the array. -/
theorem writeBody_eq_error {message header : List UInt8} (array : message.length = 3000)
    (short : header.length ≤ 254) (body : CString)
    (long : 2999 < header.length + 1 + body.bytes.length) :
    writeBody (splice message 0 (header ++ [0])) header.length body = .error (.store 3000) := by
  have hcomma : store (splice message 0 (header ++ [0])) (0 + header.length) 44 =
      .ok (splice message 0 (header ++ [44])) :=
    store_splice_inside header [] (by rw [List.length_nil]; omega) 0 44
  rw [Nat.zero_add] at hcomma
  have hlength : (splice message 0 (header ++ [44])).length = 3000 := by
    rw [length_splice (by simp; omega), array]
  have hlen : (if body.bytes.length > maxLengthReportMessage - (header.length + 1)
      then maxLengthReportMessage - (header.length + 1) else body.bytes.length) =
      3000 - (header.length + 1) := by
    rw [maxLengthReportMessage]
    split_ifs <;> omega
  have hfits : header.length + 1 + (body.bytes.take (3000 - (header.length + 1))).length ≤
      (splice message 0 (header ++ [44])).length := by
    rw [List.length_take]
    omega
  have hend : header.length + 1 + (3000 - (header.length + 1)) = 3000 := by omega
  simp only [writeBody, hcomma, bind_ok, hlen, storeBytes_eq_splice hfits]
  rw [hend, store, if_neg]
  rw [length_splice hfits]
  omega

theorem terminated_splice {array text : List UInt8} (fits : text.length + 1 ≤ array.length)
    (plain : (0 : UInt8) ∉ text) :
    loadString (splice array 0 (text ++ [0])) 0 = .ok text :=
  loadString_splice (by omega) plain

/-- A message is surrounded exactly when it leaves room for the brackets. -/
theorem surround_eq {message newMsg text : List UInt8} (read : loadString message 0 = .ok text)
    (array : newMsg.length = 3000) (plain : (0 : UInt8) ∉ text) :
    (text.length ≤ 2997 → ∃ after, surround message newMsg = .ok after ∧
        loadString after 0 = .ok (91 :: (text ++ [93]))) ∧
      (2997 < text.length → ∃ address, surround message newMsg = .error (.store address)) := by
  have hopen : store newMsg 0 91 = .ok (splice newMsg 0 [91]) := store_eq_splice (by omega) _
  have hone : (splice newMsg 0 [91]).length = 3000 := by
    rw [length_splice (by rw [List.length_singleton]; omega), array]
  constructor
  · intro short
    have hbody : splice (splice newMsg 0 [91]) 1 text = splice newMsg 0 ([91] ++ text) :=
      splice_splice_zero (by rw [List.length_singleton]; omega)
    have hclose : store (splice newMsg 0 ([91] ++ text)) (0 + ([91] ++ text).length) 93 = _ :=
      store_splice _ (by rw [List.length_append, List.length_singleton]; omega) 93
    have hnul :
        store (splice newMsg 0 ([91] ++ text ++ [93])) (0 + ([91] ++ text ++ [93]).length) 0 =
      _ := store_splice _ (by simp; omega) 0
    have hsum : 0 + ([91] ++ text).length = text.length + 1 := by simp
    have hsum' : 0 + ([91] ++ text ++ [93]).length = text.length + 2 := by simp
    rw [hsum] at hclose
    rw [hsum'] at hnul
    refine ⟨splice newMsg 0 ([91] ++ text ++ [93] ++ [0]), ?_,
      terminated_splice (by simp; omega) (by simp [plain])⟩
    simp only [surround, hopen, bind_ok, read]
    rw [storeBytes_eq_splice (by omega), bind_ok, hbody, hclose, bind_ok, hnul]
  · intro long
    simp only [surround, hopen, bind_ok, read]
    by_cases hcopy : 1 + text.length ≤ (splice newMsg 0 [91]).length
    · have hlength := length_splice hcopy
      rw [storeBytes_eq_splice hcopy, bind_ok]
      by_cases hclose : text.length + 1 < 3000
      · have hbracket : store (splice (splice newMsg 0 [91]) 1 text) (text.length + 1) 93 =
            .ok (splice (splice (splice newMsg 0 [91]) 1 text) (text.length + 1) [93]) :=
          store_eq_splice (by omega) _
        refine ⟨text.length + 2, ?_⟩
        rw [hbracket, bind_ok, store, if_neg]
        rw [length_splice (by rw [List.length_singleton]; omega)]
        omega
      · refine ⟨text.length + 1, ?_⟩
        rw [store, if_neg (by omega)]
        rfl
    · refine ⟨3000, ?_⟩
      rw [storeBytes, if_neg hcopy, hone]
      rfl

/-! ## The whole report -/

/-- A report as a channel is given it: MongoDB always gets it in brackets. -/
def lineFor (config : OutputConf) (channel : Channel) (line : List UInt8) : List UInt8 :=
  if config.format = .json ∨ channel = .mongodb then 91 :: (line ++ [93]) else line

/-- A module is given the string of its array, and nothing else is added. -/
theorem send_ok (channel : Channel) (enabled : Bool) (result : List UInt8 → Int)
    {string text : List UInt8} (read : enabled = true → loadString string 0 = .ok text)
    (sofar : Int × List (Channel × List UInt8)) :
    ∃ after, send channel enabled result string sofar = .ok after ∧
      ∀ sent ∈ after.2, sent ∈ sofar.2 ∨ sent = (channel, text) := by
  rw [send]
  split_ifs with henabled
  · refine ⟨_, by rw [read henabled]; rfl, ?_⟩
    intro sent listed
    simpa using listed
  · exact ⟨sofar, rfl, fun sent listed => .inl listed⟩

/-- Behind the brackets `_write` only reads strings that are terminated. -/
theorem write_ok {config : OutputConf} {message newMsg after text : List UInt8}
    (surrounded : (if output.surrounds config channels then surround message newMsg
      else .ok newMsg : Except Fault (List UInt8)) = .ok after)
    (read : loadString message 0 = .ok text)
    (brackets : output.surrounds config channels = true →
      loadString after 0 = .ok (91 :: (text ++ [93]))) :
    ∃ written, write output config channels message newMsg = .ok written ∧
      written.newMsg = after ∧
      ∀ sent ∈ written.sent, sent.2 = lineFor config sent.1 text := by
  have hchosen : ∀ channel ≠ Channel.mongodb,
      loadString (if config.format = .json then after else message) 0 =
        .ok (lineFor config channel text) := by
    intro channel hother
    by_cases hjson : config.format = .json
    · rw [if_pos hjson, lineFor, if_pos (.inl hjson)]
      exact brackets (by simp [OutputT.surrounds, hjson])
    · rw [if_neg hjson, lineFor, if_neg (by simp [hjson, hother])]
      exact read
  have hmongodb : (output.mongodb && isEnableOutputTo .mongodb channels) = true →
      loadString after 0 = .ok (lineFor config .mongodb text) := by
    intro henabled
    rw [lineFor, if_pos (.inr rfl)]
    exact brackets (by simp [OutputT.surrounds, henabled])
  simp only [write, surrounded, bind_ok]
  generalize (if config.format = .json then after else message) = chosen at hchosen ⊢
  rcases send_ok .file (isEnableOutputTo .file channels) (fun _ => 1)
    (fun _ => hchosen .file nofun) (0, []) with ⟨first, hfirst, hone⟩
  rcases send_ok .kafka (output.kafka.isSome && isEnableOutputTo .kafka channels)
    (output.kafka.getD fun _ => 0) (fun _ => hchosen .kafka nofun) first with
    ⟨second, hsecond, htwo⟩
  rcases send_ok .redis (output.redis.isSome && isEnableOutputTo .redis channels)
    (output.redis.getD fun _ => 0) (fun _ => hchosen .redis nofun) second with
    ⟨third, hthird, hthree⟩
  rcases send_ok .mongodb (output.mongodb && isEnableOutputTo .mongodb channels)
    (fun _ => 1) hmongodb third with ⟨fourth, hfourth, hfour⟩
  rcases send_ok .socket (output.socket.isSome && isEnableOutputTo .socket channels)
    (output.socket.getD fun _ => 0) (fun _ => hchosen .socket nofun) fourth with
    ⟨fifth, hfifth, hfive⟩
  rw [hfirst, bind_ok, hsecond, bind_ok, hthird, bind_ok, hfourth, bind_ok, hfifth, bind_ok]
  refine ⟨_, rfl, rfl, ?_⟩
  intro sent hsent
  rcases hfive sent hsent with hsent | rfl
  · rcases hfour sent hsent with hsent | rfl
    · rcases hthree sent hsent with hsent | rfl
      · rcases htwo sent hsent with hsent | rfl
        · rcases hone sent hsent with hsent | rfl
          · cases hsent
          · rfl
        · rfl
      · rfl
    · rfl
  · rfl

/-- What `_write` does with a message of a known text. -/
theorem write_cases {config : OutputConf} {message newMsg text : List UInt8}
    (read : loadString message 0 = .ok text) (array : newMsg.length = 3000)
    (plain : (0 : UInt8) ∉ text) :
    ((output.surrounds config channels = true → text.length ≤ 2997) ∧
      ∃ written, write output config channels message newMsg = .ok written ∧
        (output.surrounds config channels = true → Terminated written.newMsg) ∧
        ∀ sent ∈ written.sent, sent.2 = lineFor config sent.1 text) ∨
    (output.surrounds config channels = true ∧ 2997 < text.length ∧
      ∃ reason, write output config channels message newMsg = .error reason) := by
  have hsurround := surround_eq read array plain
  by_cases hneeds : output.surrounds config channels = true
  · by_cases hfits : text.length ≤ 2997
    · rcases hsurround.1 hfits with ⟨after, hafter, hbrackets⟩
      rcases write_ok (by rw [if_pos hneeds, hafter]) read (fun _ => hbrackets)
        with ⟨written, hwritten, hnew, hsent⟩
      exact .inl ⟨fun _ => hfits, written, hwritten, fun _ => hnew ▸ ⟨_, hbrackets⟩, hsent⟩
    · rcases hsurround.2 (by omega) with ⟨address, haddress⟩
      refine .inr ⟨hneeds, by omega, .store address, ?_⟩
      simp only [write, hneeds, if_true, haddress]
      rfl
  · rcases write_ok (by rw [if_neg hneeds]) read (fun h => absurd h hneeds)
      with ⟨written, hwritten, -, hsent⟩
    exact .inl ⟨fun h => absurd h hneeds, written, hwritten, fun h => absurd h hneeds, hsent⟩

variable {message newMsg : ReportArray}

theorem staysInside_of_disabled (disabled : output.enabledConf channels = none)
    (body : Option CString) :
    StaysInside output channels
      (outputWriteReport output channels reportType ts body message newMsg) := by
  rw [outputWriteReport, disabled]
  exact trivial

/-- The last part of `output_write_report` fits when the brackets do. -/
theorem staysInside_finishReport_iff {config : OutputConf}
    (enabled : output.enabledConf channels = some config)
    {block text : List UInt8} (read : loadString block 0 = .ok text) (plain : (0 : UInt8) ∉ text) :
    StaysInside output channels (finishReport output config channels ts block newMsg.val) ↔
      (output.surrounds config channels = true → text.length ≤ 2997) := by
  have hnew : newMsg.val.length = 3000 := newMsg.property
  rcases @write_cases output channels config _ _ _ read hnew plain with
    ⟨hfits, written, hwritten, hterminated, -⟩ | ⟨hneeds, hlong, reason, hreason⟩
  · rw [finishReport, hwritten]
    apply iff_of_true _ hfits
    refine ⟨⟨text, read⟩, ?_⟩
    intro config' enabled' hsurrounds
    rw [enabled, Option.some.injEq] at enabled'
    exact hterminated (enabled' ▸ hsurrounds)
  · rw [finishReport, hreason]
    apply iff_of_false
    · exact fun h => h
    · intro hfits
      have := hfits hneeds
      omega

/-- A report without a body always fits. -/
theorem staysInside_of_noBody :
    StaysInside output channels
      (outputWriteReport output channels reportType ts none message newMsg) := by
  cases hconf : output.enabledConf channels with
  | none => exact staysInside_of_disabled hconf none
  | some config =>
      have hmessage : message.val.length = 3000 := message.property
      rcases writeHeader_eq output reportType ts message with
        ⟨_, hheader⟩ | ⟨header, _, hlength, hplain, hshort, hheader⟩
      · rw [outputWriteReport, hconf, hheader]
        exact trivial
      · have hread : loadString (splice message.val 0 (header ++ [0])) 0 = .ok header :=
          terminated_splice (by omega) hplain
        simp only [outputWriteReport, hconf, hheader, bind_ok]
        rw [staysInside_finishReport_iff hconf hread hplain]
        intro _
        omega

/-- A report with a body fits exactly when the body leaves the room that is needed behind it. -/
theorem staysInside_iff_bodyFits (body : CString) :
    StaysInside output channels
        (outputWriteReport output channels reportType ts (some body) message newMsg) ↔
      BodyFits output channels reportType ts body.bytes.length := by
  cases hconf : output.enabledConf channels with
  | none =>
      apply iff_of_true (staysInside_of_disabled hconf _)
      intro config hsome
      rw [hconf] at hsome
      cases hsome
  | some config =>
      have hmessage : message.val.length = 3000 := message.property
      have hfits : BodyFits output channels reportType ts body.bytes.length ↔
          (¬TimeStops (254 - frontLength output reportType) ts →
            headerLength output reportType ts + 1 + body.bytes.length ≤
              reportRoom (output.surrounds config channels)) := by
        simp only [BodyFits, hconf, Option.some.injEq, forall_eq']
      rw [outputWriteReport, hconf, hfits]
      rcases writeHeader_eq output reportType ts message with
        ⟨hstops, hheader⟩ | ⟨header, hgoes, hlength, hplain, hshort, hheader⟩
      · simp only [hheader]
        exact iff_of_true trivial fun h => absurd hstops h
      · simp only [hheader, bind_ok, hgoes, not_false_eq_true, forall_const, ← hlength]
        by_cases hroom : header.length + 1 + body.bytes.length ≤ 2999
        · have hbody := writeBody_eq hmessage body hroom
          have hsum : (header ++ 44 :: body.bytes).length =
              header.length + 1 + body.bytes.length := by
            rw [List.length_append, List.length_cons]
            omega
          have hall : (0 : UInt8) ∉ header ++ 44 :: body.bytes := by
            simp [hplain, body.plain]
          have hread : loadString (splice message.val 0 (header ++ 44 :: body.bytes ++ [0])) 0 =
              .ok (header ++ 44 :: body.bytes) := terminated_splice (by omega) hall
          rw [hbody]
          simp only [mapError_ok, bind_ok]
          rw [staysInside_finishReport_iff hconf hread hall, hsum, reportRoom]
          split_ifs with hneeds
          · simp [hneeds]
          · simp [hneeds, hroom]
        · have hbody := writeBody_eq_error hmessage hshort body (by omega)
          rw [hbody]
          apply iff_of_false
          · exact fun h => h
          · rw [reportRoom]
            split_ifs <;> omega

/-! ## Formatted reports -/

theorem element_of_lt {n : Nat} (fits : n < 2 ^ 31) : element n = n := by
  rw [element, Int.emod_eq_of_lt (by omega) (by omega)]
  omega

/-- A text that is shorter than its array is the body of the report. -/
theorem formatBody_eq {array : List UInt8} (whole : array.length = 3000) {bytes : List UInt8}
    (fits : bytes.length < 2 ^ 31) (short : bytes.length < 3000) :
    formatBody (.text bytes fits) array = .ok (.of bytes) := by
  have hprint : vsnprintf (.text bytes fits) maxLengthReportMessage array =
      .ok (splice array 0 (bytes ++ [0])) := by
    have htake : bytes.take (maxLengthReportMessage - 1) = bytes :=
      List.take_of_length_le (by rw [maxLengthReportMessage]; omega)
    rw [vsnprintf, htake, storeBytes_eq_splice]
    rw [List.length_append, List.length_singleton]
    omega
  have hclose : store (splice array 0 (bytes ++ [0])) (0 + bytes.length) 0 =
      .ok (splice array 0 (bytes ++ [0])) :=
    store_splice_inside bytes [] (by rw [List.length_nil]; omega) 0 0
  have hread : loadString (splice array 0 (bytes ++ [0])) 0 = .ok (cstring bytes) :=
    loadString_splice_cstring (by omega)
  have hbody : CString.of (cstring bytes) = .of bytes := by
    rw [CString.of, CString.of, CString.mk.injEq]
    exact cstring_eq_self (CString.of bytes).plain
  rw [Nat.zero_add] at hclose
  simp only [formatBody, hprint, bind_ok, Formatted.result, element_of_lt fits, hclose, hread,
    hbody]
  rfl

/-- A result of `vsnprintf` that is no index of the array is used as one. -/
theorem formatBody_eq_error {array : List UInt8} (whole : array.length = 3000)
    {formatted : Formatted} (outside : formatted.result < 0 ∨ 3000 ≤ formatted.result) :
    ∃ reason, formatBody formatted array = .error reason := by
  cases formatted with
  | failed code fits =>
      have helement : ¬element (-1 - (code : Int)) < array.length := by
        rw [element]
        omega
      refine ⟨.store (element (-1 - (code : Int))), ?_⟩
      simp only [formatBody, vsnprintf, bind_ok, Formatted.result]
      rw [store, if_neg helement]
      rfl
  | text bytes fits =>
      have hlong : 3000 ≤ bytes.length := by
        rcases outside with hnegative | hlarge
        · exact absurd hnegative (by rw [Formatted.result]; omega)
        · rw [Formatted.result] at hlarge
          omega
      have hcut : 0 + (bytes.take (maxLengthReportMessage - 1) ++ [0]).length ≤ array.length := by
        rw [List.length_append, List.length_take, List.length_singleton, maxLengthReportMessage]
        omega
      refine ⟨.store bytes.length, ?_⟩
      simp only [formatBody, vsnprintf, storeBytes_eq_splice hcut, bind_ok, Formatted.result,
        element_of_lt fits]
      rw [store, length_splice hcut, if_neg (by omega)]
      rfl

/-- A formatted report fits exactly when its text is shorter than its array and fits as a
body. -/
theorem staysInside_iff_formatFits (formatted : Formatted) (array : ReportArray) :
    StaysInside output channels
        (outputWriteReportWithFormat output channels reportType ts (some formatted) array message
          newMsg) ↔
      FormatFits output channels reportType ts formatted := by
  cases hconf : output.enabledConf channels with
  | none =>
      rw [outputWriteReportWithFormat, hconf]
      exact iff_of_true trivial (.inl hconf)
  | some config =>
      have hwhole : array.val.length = 3000 := array.property
      have hfits : FormatFits output channels reportType ts formatted ↔
          ∃ bytes fits, formatted = .text bytes fits ∧ bytes.length < maxLengthReportMessage ∧
            BodyFits output channels reportType ts (cstring bytes).length := by
        simp only [FormatFits, hconf, reduceCtorEq, false_or]
      rw [outputWriteReportWithFormat, hconf, hfits]
      by_cases hinside : ∃ bytes fits, formatted = .text bytes fits ∧ bytes.length < 3000
      · rcases hinside with ⟨bytes, fits, rfl, hshort⟩
        simp only [formatBody_eq hwhole fits hshort, mapError_ok, bind_ok]
        rw [staysInside_iff_bodyFits]
        constructor
        · intro hbody
          exact ⟨bytes, fits, rfl, hshort, hbody⟩
        · rintro ⟨bytes', fits', hsame, -, hbody⟩
          cases hsame
          exact hbody
      · have houtside : formatted.result < 0 ∨ 3000 ≤ formatted.result := by
          cases formatted with
          | failed code fits =>
              apply Or.inl
              rw [Formatted.result]
              omega
          | text bytes fits =>
              apply Or.inr
              have hlong : ¬bytes.length < 3000 := fun h => hinside ⟨bytes, fits, rfl, h⟩
              rw [Formatted.result]
              omega
        rcases formatBody_eq_error hwhole houtside with ⟨reason, hreason⟩
        simp only [hreason]
        apply iff_of_false
        · exact fun h => h
        · rintro ⟨bytes, fits, hsame, hshort, -⟩
          exact hinside ⟨bytes, fits, hsame, hshort⟩

/-- Assembling a report stays inside its arrays, and its strings are terminated, exactly
when its body and its formatted text leave the room that is needed. -/
theorem report_staysInside_iff (output : OutputT) (channels reportType : UInt32) (ts : Timeval)
    (array message newMsg : ReportArray) :
    (∀ body : Option CString,
      StaysInside output channels
          (outputWriteReport output channels reportType ts body message newMsg) ↔
        ∀ given, body = some given → BodyFits output channels reportType ts given.bytes.length) ∧
    (∀ format : Option Formatted,
      StaysInside output channels
          (outputWriteReportWithFormat output channels reportType ts format array message newMsg) ↔
        ∀ given, format = some given → FormatFits output channels reportType ts given) := by
  constructor
  · intro body
    cases body with
    | none => exact iff_of_true staysInside_of_noBody (by simp)
    | some body => simpa using staysInside_iff_bodyFits body
  · intro format
    cases format with
    | none =>
        have hnone : StaysInside output channels
            (outputWriteReportWithFormat output channels reportType ts none array message
              newMsg) := by
          cases hconf : output.enabledConf channels with
          | none =>
              rw [outputWriteReportWithFormat, hconf]
              exact trivial
          | some config =>
              rw [outputWriteReportWithFormat, hconf]
              exact staysInside_of_noBody
        exact iff_of_true hnone (by simp)
    | some formatted => simpa using staysInside_iff_formatFits formatted array

/-- An output that writes CSV to its file only. -/
def plainOutput : OutputT where
  probeId := 3
  inputSrc := .ofText "eth0"
  lastReportTs := ⟨0, 0⟩
  config := some ⟨true, .csv⟩
  redis := none
  kafka := none
  mongodb := false
  socket := none

/-- A body that fills an array. -/
def longBody : List UInt8 := List.replicate 3000 97

theorem length_longBody : longBody.length = 3000 := List.length_replicate

def emptyArray : ReportArray := ⟨List.replicate 3000 0, List.length_replicate⟩

theorem not_bodyFits_longBody : ¬BodyFits plainOutput 1 1 ⟨1500000000, 0⟩ 3000 := by
  intro fits
  have hfits := fits ⟨true, .csv⟩ (by decide) (by decide +kernel)
  exact absurd hfits (by decide +kernel)

theorem plain_longBody : (0 : UInt8) ∉ longBody := by
  rw [longBody, List.mem_replicate]
  rintro ⟨-, h⟩
  exact absurd h (by decide)

/-- With a body, and with a formatted text, of 3000 characters a NUL is written at the
index 3000. -/
theorem longBody_leaves_arrays :
    ¬StaysInside plainOutput 1 (outputWriteReport plainOutput 1 1 ⟨1500000000, 0⟩
      (some ⟨longBody, plain_longBody⟩) emptyArray emptyArray) ∧
    ¬StaysInside plainOutput 1 (outputWriteReportWithFormat plainOutput 1 1 ⟨1500000000, 0⟩
      (some (.text longBody (by rw [length_longBody]; decide)))
        emptyArray emptyArray emptyArray) := by
  rw [staysInside_iff_bodyFits, staysInside_iff_formatFits]
  constructor
  · rw [length_longBody]
    exact not_bodyFits_longBody
  · rintro (hdisabled | ⟨bytes, fits, hsame, hshort, -⟩)
    · exact absurd hdisabled (by decide)
    · cases hsame
      rw [length_longBody] at hshort
      exact absurd hshort (by decide)

end MmtProbe.Output
