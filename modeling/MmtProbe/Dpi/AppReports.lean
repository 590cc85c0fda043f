/-
# The parts of RTP, FTP and GTP

Three applications print their fields behind those of a session report in ways of their
own.  RTP prints rates as doubles, with `snprintf`.  FTP uses the string builder for texts
of any length.  GTP lists its tunnel identifiers without looking at the room, and counts a
NUL.

Each of them keeps to the memory that it is given, and leaves a place for one more NUL.
-/

import MmtProbe.Lib.StringBuilderText
import MmtProbe.Math.DoubleText
import MmtProbe.Output.Report

namespace MmtProbe.Dpi

open MmtProbe.Configure (Build)
open MmtProbe.Math MmtProbe.Lib MmtProbe.Output

/-! ## RTP -/

/-- The text of `print_rtp_report`.  The sums wrap around before they become doubles. -/
def rtpText (rtp : RtpStat) : List UInt8 :=
  let lossRate : Float.Model := .ofUInt32 rtp.nbLost / .ofUInt32 (rtp.nbLost + rtp.packetsNb + 1)
  let lossBurstiness : Float.Model :=
    if rtp.nbLossBursts ≠ 0 then .ofUInt32 rtp.nbLost / .ofUInt32 rtp.nbLossBursts
    else .ofUInt32 0
  let orderError : Float.Model := .ofUInt32 rtp.nbOrderError / .ofUInt32 (rtp.packetsNb + 1)
  doubleText 3 lossRate ++ 44 :: (doubleText 3 lossBurstiness ++
    44 :: (decimal rtp.jitter.toNat ++ 44 :: doubleText 3 orderError))

theorem length_rtpText_le (rtp : RtpStat) : (rtpText rtp).length ≤ 955 := by
  have hjitter : digitCount rtp.jitter.toNat ≤ 10 :=
    (digitCount_le_iff (by decide)).mpr (Nat.lt_trans rtp.jitter.toNat_lt (by decide))
  have htext := length_doubleText_le 3
  simp only [rtpText, List.length_append, List.length_cons, length_decimal]
  grind

/-- `print_rtp_report` of a session with the structure for RTP. -/
def printRtpReport (rtp : RtpStat) (message : List UInt8) : Except Stop (Nat × List UInt8) := do
  let formatted := Formatted.text (rtpText rtp)
    (Nat.lt_of_le_of_lt (length_rtpText_le rtp) (by decide))
  let message ← (vsnprintf formatted message.length message).mapError .fault
  return ((rtpText rtp).length, message)

/-! ## FTP -/

/-- A text, or "null". -/
def orNull (text : Option (List UInt8)) : CString := .of (text.getD (bytesOf "null"))

/-- The elements of `print_ftp_report`. -/
def ftpFields (build : Build) (ftp : FtpStat) : List Field :=
  [.int ftp.sessionConnType.toUInt64, .str (orNull ftp.sessionUsername),
    .str (orNull ftp.sessionPassword), .int ftp.fileSize.toUInt64, .str (orNull ftp.filename),
    .int ftp.direction.toUInt64, .int ftp.sessionIdControlChannel,
    if build.qosModule then .int ftp.responseTime else .char 48]

/-- `print_ftp_report` of a session with the structure for FTP. -/
def printFtpReport (build : Build) (ftp : FtpStat) (message : List UInt8) :
    Except Stop (Nat × List UInt8) :=
  stringBuilderWithSeparator 0 message message.length (.ofText ",") (ftpFields build ftp)

/-! ## GTP -/

/-- `INET6_ADDRSTRLEN` -/
def inet6Addrstrlen : Nat := 46

/-- An array of `INET6_ADDRSTRLEN` characters. -/
abbrev AddressArray := { bytes : List UInt8 // bytes.length = inet6Addrstrlen }

/-- An address that `inet_ntop` wrote into the `INET6_ADDRSTRLEN` bytes of `ip_string`. -/
structure AddressText where
  text : CString
  short : text.bytes.length < inet6Addrstrlen
  noQuote : (34 : UInt8) ∉ text.bytes

/-- What `print_gtp_report` writes the addresses with: `inet_ntop` for those of IPv6, and the
arrays `ip_src_str` and `ip_dst_str` as they are found on the stack. -/
structure AddressPrinter where
  inetNtop : List UInt8 → AddressText
  srcArray : AddressArray
  dstArray : AddressArray

/-- `inet_ntop4` -/
def inetNtop4 (addr : UInt32) (buf : List UInt8) : Except Fault (Nat × List UInt8) := do
  let (ret, buf) ← appendIpv4 buf 0 16 addr
  let buf ← store buf ret 0
  return (ret, buf)

/-- An IPv4 address in an array of its own. -/
def ipv4String (addr : UInt32) (array : AddressArray) : Except Fault CString := do
  let (_, array) ← inetNtop4 addr array.val
  let text ← loadString array 0
  return .of text

/-- The strings `ip_src_str` and `ip_dst_str`. -/
def ipStrings (printer : AddressPrinter) (ip : OuterIp) : Except Fault (CString × CString) :=
  match ip with
  | .v4 src dst => do
      let srcStr ← ipv4String src printer.srcArray
      let dstStr ← ipv4String dst printer.dstArray
      return (srcStr, dstStr)
  | .v6 src dst => .ok ((printer.inetNtop src).text, (printer.inetNtop dst).text)
  | .unknown => .ok (.of [], .of [])

/-- The loop of `print_gtp_report` over the array. -/
def teidsLoop (messageSize : Nat) :
    List UInt32 → Bool → Nat × List UInt8 → Except Fault (Nat × List UInt8)
  | [], _, sofar => .ok sofar
  | teid :: teids, hasTeid, (ret, message) =>
      if teid = 0 then .ok (ret, message)
      else do
        let (ret, message) ← (if hasTeid then
            (store message ret 44).map fun message => (ret + 1, message)
          else .ok (ret, message) : Except Fault (Nat × List UInt8))
        let (written, message) ← appendNumber message ret (sizeSub messageSize ret) teid.toUInt64
        teidsLoop messageSize teids true (ret + written, message)

/-- The brackets around the array, behind the two addresses. -/
def printTeids (gtp : GtpStat) (srcStr dstStr : CString) (message : List UInt8) :
    Except Stop (Nat × List UInt8) := do
  let sofar ← stringBuilder 0 message message.length
    [.str srcStr, .char 44, .str dstStr, .char 44, .char 91]
  let (ret, after) ← (teidsLoop message.length gtp.teids false sofar).mapError .fault
  let after ← (store after ret 93).mapError .fault
  let after ← (store after (ret + 1) 0).mapError .fault
  return (ret + 2, after)

/-- `print_gtp_report` of a session with the structure for GTP. -/
def printGtpReport (printer : AddressPrinter) (gtp : GtpStat) (message : List UInt8) :
    Except Stop (Nat × List UInt8) := do
  let (srcStr, dstStr) ← (ipStrings printer gtp.ip).mapError .fault
  printTeids gtp srcStr dstStr message

/-- What is printed of a session with some identifiers. -/
def gtpText (srcStr dstStr : CString) (teids : List UInt32) : List UInt8 :=
  (Field.str srcStr).full ++ 44 :: ((Field.str dstStr).full ++ 44 :: 91 ::
    (decimals 44 (teids.map UInt32.toNat) ++ [93]))

/-! ## The tunnel identifiers -/

variable {message text : List UInt8} {srcStr dstStr : CString}

theorem digitCount_teid (teid : UInt32) : digitCount teid.toNat ≤ 10 := by
  rw [digitCount_le_iff (by decide)]
  exact Nat.lt_trans teid.toNat_lt (by decide)

/-- A number behind what was written so far. -/
theorem appendTeid_eq (room : text.length + 10 ≤ message.length) (small : message.length < 2 ^ 64)
    (teid : UInt32) :
    appendNumber (splice message 0 text) text.length (sizeSub message.length text.length)
        teid.toUInt64 =
      .ok ((decimal teid.toNat).length, splice message 0 (text ++ decimal teid.toNat)) := by
  have hcount := digitCount_teid teid
  have hlength : (splice message 0 text).length = message.length := length_splice (by omega)
  have htext : numberText (message.length - text.length) teid.toUInt64.toNat =
      decimal teid.toNat := by
    rw [UInt32.toNat_toUInt64]
    exact if_pos (by omega)
  rw [sizeSub_of_le small (by omega), appendNumber_eq (by omega) (by omega), htext,
    splice_splice_zero (by rw [length_decimal]; omega)]

/-- The identifiers in front of the first 0. -/
def listedTeids (teids : List UInt32) : List UInt32 := teids.takeWhile (· ≠ 0)

theorem listedTeids_cons {teid : UInt32} (nonzero : teid ≠ 0) (teids : List UInt32) :
    listedTeids (teid :: teids) = teid :: listedTeids teids := by
  simp [listedTeids, nonzero]

/-- Behind the first identifier each one has a comma before it. -/
theorem teidsLoop_behind (teids : List UInt32)
    (room : text.length + 11 * teids.length ≤ message.length) (small : message.length < 2 ^ 64) :
    let printed := text ++ ((listedTeids teids).map UInt32.toNat).flatMap fun n => 44 :: decimal n
    teidsLoop message.length teids true (text.length, splice message 0 text) =
      .ok (printed.length, splice message 0 printed) := by
  induction teids generalizing text with
  | nil => simp [teidsLoop, listedTeids]
  | cons teid teids ih =>
      rw [List.length_cons] at room
      by_cases hzero : teid = 0
      · simp [teidsLoop, listedTeids, hzero]
      · have hcount := digitCount_teid teid
        have hcomma : (text ++ [44]).length = text.length + 1 := by simp
        have hnumber := @appendTeid_eq message (text ++ [44]) (by omega) small teid
        have hrest := @ih (text ++ [44] ++ decimal teid.toNat)
          (by rw [List.length_append, length_decimal]; omega)
        rw [listedTeids_cons hzero, teidsLoop, if_neg hzero, if_pos rfl,
          store_splice_zero text (by omega)]
        simp only [Except.map, bind_ok, ← hcomma, hnumber]
        simp only [← List.length_append, hrest]
        simp

/-- The loop prints the identifiers in front of the first 0. -/
theorem teidsLoop_eq (teids : List UInt32)
    (room : text.length + 11 * teids.length ≤ message.length) (small : message.length < 2 ^ 64) :
    let printed := text ++ decimals 44 ((listedTeids teids).map UInt32.toNat)
    teidsLoop message.length teids false (text.length, splice message 0 text) =
      .ok (printed.length, splice message 0 printed) := by
  cases teids with
  | nil => simp [teidsLoop, listedTeids]
  | cons teid teids =>
      rw [List.length_cons] at room
      by_cases hzero : teid = 0
      · simp [teidsLoop, listedTeids, hzero]
      · have hcount := digitCount_teid teid
        have hnumber := @appendTeid_eq message text (by omega) small teid
        have hrest := @teidsLoop_behind message (text ++ decimal teid.toNat) teids
          (by rw [List.length_append, length_decimal]; omega) small
        rw [listedTeids_cons hzero, teidsLoop, if_neg hzero]
        simp only [Bool.false_eq_true, if_false, bind_ok, hnumber]
        simp only [← List.length_append, hrest, List.map_cons, decimals_cons, List.append_assoc]

/-- The two addresses fit into their arrays. -/
theorem ipv4String_eq (addr : UInt32) (array : AddressArray) :
    ipv4String addr array = .ok (.of (ipText addr)) := by
  have hsize : array.val.length = 46 := array.property
  have hlength : (ipText addr).length ≤ 16 := (Field.ipv4 addr).length_full_le_need
  have hplain : (0 : UInt8) ∉ ipText addr := by
    simp [ipText, decimal, notMem_fixed, isDigit]
  have hwritten := @appendIpv4_eq array.val 0 16 (by omega) (by omega) addr
  rw [if_neg (by decide)] at hwritten
  dsimp only at hwritten
  have hclose : store (splice array.val 0 (ipText addr)) (ipText addr).length 0 =
      .ok (splice array.val 0 (ipText addr ++ [0])) := store_splice_zero (ipText addr) (by omega) 0
  have hread : loadString (splice array.val 0 (ipText addr ++ [0])) 0 = .ok (ipText addr) :=
    loadString_splice (by omega) hplain
  simp only [ipv4String, inetNtop4, hwritten, bind_ok, hclose, pure_bind, hread]
  rfl

theorem ipStrings_short (printer : AddressPrinter) (ip : OuterIp) :
    ∃ srcStr dstStr, ipStrings printer ip = .ok (srcStr, dstStr) ∧
      srcStr.bytes.length < 46 ∧ dstStr.bytes.length < 46 := by
  have hipv4 : ∀ addr, (CString.of (ipText addr)).bytes.length < 46 := by
    intro addr
    have hof : (CString.of (ipText addr)).bytes.length ≤ (ipText addr).length :=
      length_cstring_le _
    have hle : (ipText addr).length ≤ 16 := (Field.ipv4 addr).length_full_le_need
    omega
  cases ip with
  | unknown => exact ⟨_, _, rfl, by decide, by decide⟩
  | v4 src dst =>
      refine ⟨_, _, ?_, hipv4 src, hipv4 dst⟩
      rw [ipStrings, ipv4String_eq, ipv4String_eq]
      rfl
  | v6 src dst =>
      exact ⟨_, _, rfl, (printer.inetNtop src).short, (printer.inetNtop dst).short⟩

/-- What is printed in front of the identifiers. -/
def gtpFront (srcStr dstStr : CString) : List UInt8 :=
  (Field.str srcStr).full ++ 44 :: ((Field.str dstStr).full ++ [44, 91])

theorem length_gtpFront (srcStr dstStr : CString) :
    (gtpFront srcStr dstStr).length = srcStr.bytes.length + dstStr.bytes.length + 7 := by
  simp only [gtpFront, Field.full, List.length_append, List.length_cons, List.length_nil]
  omega

theorem gtpText_eq (srcStr dstStr : CString) (teids : List UInt32) :
    gtpText srcStr dstStr teids =
      gtpFront srcStr dstStr ++ decimals 44 (teids.map UInt32.toNat) ++ [93] := by
  simp [gtpText, gtpFront]

theorem buildFront_eq (room : (gtpFront srcStr dstStr).length + 16 ≤ message.length)
    (small : message.length ≤ 2 ^ 31) :
    stringBuilder 0 message message.length
        [.str srcStr, .char 44, .str dstStr, .char 44, .char 91] =
      .ok ((gtpFront srcStr dstStr).length, gtpFront srcStr dstStr ++
        0 :: message.drop ((gtpFront srcStr dstStr).length + 1)) := by
  let fields : List Field := [.str srcStr, .char 44, .str dstStr, .char 44, .char 91]
  have htimely : ∀ field ∈ fields, field.Timely := by
    simp [fields, Field.Timely]
  have hjoined : joined (separatorBytes none) fields = gtpFront srcStr dstStr := by
    simp [fields, joined, separatorBytes, gtpFront, Field.full]
  have hbuild := @build_zero_eq message none fields htimely (by rw [hjoined]; exact room) small
  rw [hjoined] at hbuild
  exact hbuild

/-- The identifiers of a session take 66 characters. -/
theorem length_decimals_teids_le (gtp : GtpStat) :
    (decimals 44 ((listedTeids gtp.teids).map UInt32.toNat)).length ≤ 66 := by
  have hsix : gtp.teids.length = 6 := gtp.size
  have hlisted : (listedTeids gtp.teids).length ≤ gtp.teids.length :=
    (List.takeWhile_sublist _).length_le
  have hdecimals : (decimals 44 ((listedTeids gtp.teids).map UInt32.toNat)).length ≤
      11 * ((listedTeids gtp.teids).map UInt32.toNat).length := by
    apply length_decimals_le
    intro n hn
    rcases List.mem_map.mp hn with ⟨teid, -, rfl⟩
    exact digitCount_teid teid
  rw [List.length_map] at hdecimals
  omega

/-- The bracket and the NUL behind what was printed so far. -/
theorem closeTeids_eq {printed : List UInt8} (room : printed.length + 2 ≤ message.length) :
    (do
      let after ← (store (splice message 0 printed) printed.length 93).mapError Stop.fault
      let after ← (store after (printed.length + 1) 0).mapError Stop.fault
      return (printed.length + 2, after)) =
      Except.ok (printed.length + 2,
        printed ++ 93 :: 0 :: message.drop (printed.length + 2)) := by
  have hlength : (printed ++ [93]).length = printed.length + 1 := by simp
  have hnul : store (splice message 0 (printed ++ [93])) (printed.length + 1) 0 =
      .ok (splice message 0 (printed ++ [93] ++ [0])) := by
    rw [← hlength]
    exact store_splice_zero _ (by omega) 0
  rw [store_splice_zero printed (by omega), mapError_ok, bind_ok, hnul, mapError_ok, bind_ok,
    splice_zero]
  simp
  rfl

/-- `print_gtp_report` writes all of its part, counts the NUL and leaves room for another. -/
theorem printTeids_eq (gtp : GtpStat) (srcShort : srcStr.bytes.length < 46)
    (dstShort : dstStr.bytes.length < 46) (room : 200 ≤ message.length)
    (small : message.length ≤ 2 ^ 31) :
    ∃ byte rest, printTeids gtp srcStr dstStr message =
        .ok ((gtpText srcStr dstStr (listedTeids gtp.teids)).length + 1,
          gtpText srcStr dstStr (listedTeids gtp.teids) ++ 0 :: byte :: rest) ∧
      (gtpText srcStr dstStr (listedTeids gtp.teids) ++ 0 :: byte :: rest).length =
        message.length := by
  let front := gtpFront srcStr dstStr
  let after := front ++ 0 :: message.drop (front.length + 1)
  let printed := front ++ decimals 44 ((listedTeids gtp.teids).map UInt32.toNat)
  have hsix : gtp.teids.length = 6 := gtp.size
  have hfront : front.length = srcStr.bytes.length + dstStr.bytes.length + 7 :=
    length_gtpFront srcStr dstStr
  have hprinted : printed.length ≤ front.length + 66 := by
    have hteids := length_decimals_teids_le gtp
    rw [List.length_append]
    omega
  have hlength : after.length = message.length := by
    rw [List.length_append, List.length_cons, List.length_drop]
    omega
  -- the loop goes on in the message that the builder left
  have hloop : teidsLoop message.length gtp.teids false (front.length, after) =
      .ok (printed.length, splice after 0 printed) := by
    have hafter : splice after 0 front = after := by
      rw [splice_zero, List.drop_left]
    have heach := @teidsLoop_eq after front gtp.teids (by omega) (by omega)
    rw [hlength, hafter] at heach
    exact heach
  have hreturns : printTeids gtp srcStr dstStr message =
      .ok (printed.length + 2, printed ++ 93 :: 0 :: after.drop (printed.length + 2)) := by
    have hbuild : stringBuilder 0 message message.length
        [.str srcStr, .char 44, .str dstStr, .char 44, .char 91] = .ok (front.length, after) :=
      buildFront_eq (show front.length + 16 ≤ message.length by omega) small
    rw [printTeids, hbuild, bind_ok]
    simp only [hloop, mapError_ok, bind_ok]
    exact closeTeids_eq (by omega)
  rcases List.exists_cons_of_length_pos (show 0 < (after.drop (printed.length + 2)).length by
    rw [List.length_drop]; omega) with ⟨byte, rest, hrest⟩
  have hbehind : rest.length + 1 = after.length - (printed.length + 2) := by
    rw [← List.length_drop, hrest, List.length_cons]
  have htext : gtpText srcStr dstStr (listedTeids gtp.teids) = printed ++ [93] :=
    gtpText_eq srcStr dstStr _
  refine ⟨byte, rest, ?_, ?_⟩
  · rw [hreturns, hrest, htext]
    simp
  · rw [htext]
    simp only [List.length_append, List.length_cons, List.length_nil]
    omega

/-! ## All of them keep to their memory -/

theorem timely_ftpFields (build : Build) (ftp : FtpStat) :
    ∀ field ∈ ftpFields build ftp, field.Timely := by
  cases hquality : build.qosModule <;> simp [ftpFields, hquality, Field.Timely]

theorem printFtpReport_leavesPlace (build : Build) (ftp : FtpStat) (some_room : 0 < message.length)
    (small : message.length ≤ 2 ^ 31) : LeavesPlace message (printFtpReport build ftp message) :=
  build_leavesPlace _ (timely_ftpFields build ftp) some_room small

theorem printRtpReport_leavesPlace (rtp : RtpStat) (room : 1000 ≤ message.length) :
    LeavesPlace message (printRtpReport rtp message) := by
  have htext := length_rtpText_le rtp
  have hwhole : (rtpText rtp).take (message.length - 1) = rtpText rtp :=
    List.take_of_length_le (by omega)
  have hfits : 0 + (rtpText rtp ++ [0]).length ≤ message.length := by
    rw [List.length_append, List.length_singleton]
    omega
  refine ⟨(rtpText rtp).length, _, ?_, ?_, length_splice hfits⟩
  · simp only [printRtpReport, vsnprintf, hwhole, storeBytes_eq_splice hfits, mapError_ok, bind_ok]
    rfl
  · omega

theorem printGtpReport_leavesPlace (printer : AddressPrinter) (gtp : GtpStat)
    (room : 200 ≤ message.length) (small : message.length ≤ 2 ^ 31) :
    LeavesPlace message (printGtpReport printer gtp message) := by
  rcases ipStrings_short printer gtp.ip with ⟨srcStr, dstStr, hstrings, hsrc, hdst⟩
  rcases printTeids_eq gtp hsrc hdst room small with ⟨byte, rest, hprinted, hlength⟩
  have hreturns : printGtpReport printer gtp message = printTeids gtp srcStr dstStr message := by
    rw [printGtpReport, hstrings]
    rfl
  refine ⟨_, _, hreturns.trans hprinted, ?_, hlength⟩
  rw [← hlength, List.length_append, List.length_cons, List.length_cons]
  omega

end MmtProbe.Dpi
