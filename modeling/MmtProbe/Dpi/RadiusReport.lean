/-
# The reports of RADIUS messages

`_radius_code_handle` prints fourteen attributes of a RADIUS message as a line of the
report: numbers, IP addresses and strings, `0` and the empty string for what is missing.

The array has room for 3000 bytes, but the builder is told the length of a file name.  The
strings come from the network and are put between quotes as they are.
-/

import MmtProbe.Lib.ReportColumns
import MmtProbe.Output.Report

namespace MmtProbe.Dpi

open MmtProbe.Math MmtProbe.Lib MmtProbe.Output

/-! ## The attributes -/

/-- The data of an attribute of characters, and what stands behind it in memory. -/
structure RadiusText where
  characters : List UInt8
  behind : List UInt8
deriving DecidableEq, Repr

/-- The length takes four bytes, and a NUL follows the characters. -/
def RadiusText.memory (text : RadiusText) : List UInt8 :=
  littleEndian 4 text.characters.length ++ (text.characters ++ 0 :: text.behind)

/-- What of `mmt_location_info_struct` is read: two words in the order of the network. -/
structure LocationInfo where
  cellLac : UInt8 × UInt8
  cellId : UInt8 × UInt8
deriving DecidableEq, Repr

/-- The attributes that are extracted from a packet. -/
structure RadiusPacket where
  hasSession : Bool
  radiusCode : Option UInt8
  framedIpAddress : Option UInt32
  callingStationId : Option RadiusText
  accountStatusType : Option UInt32
  accountSessionId : Option RadiusText
  imsi : Option RadiusText
  imei : Option RadiusText
  ggsnIpAddress : Option UInt32
  sgsnIpAddress : Option UInt32
  sgsnMccmnc : Option RadiusText
  ratType : Option UInt8
  chargCharact : Option RadiusText
  userLoc : Option LocationInfo
deriving DecidableEq, Repr

/-! ## The handler -/

/-- `MMT_RADIUS_REPORT_ALL` -/
def mmtRadiusReportAll : UInt16 := 0

/-- `&x[4]`, or the empty string. -/
def radiusString (attr : Option RadiusText) : Except Fault CString :=
  match attr with
  | none => .ok (.of [])
  | some text => (loadString text.memory 4).map CString.of

/-- What `inet_ntop` writes, or the empty string. -/
def addressString (address : Option UInt32) : CString :=
  match address with
  | none => .of []
  | some ip => .of (ipText ip)

/-- A word in the order of the network, as it is loaded on a little-endian machine. -/
def loadedWord (bytes : UInt8 × UInt8) : Nat := bytes.1.toNat + 256 * bytes.2.toNat

def ntohs (word : Nat) : Nat := word % 256 * 256 + word / 256

/-- The arguments of the builder. -/
def radiusFields (code : UInt8) (packet : RadiusPacket) : Except Fault (List Field) := do
  let callingStationId ← radiusString packet.callingStationId
  let accountSessionId ← radiusString packet.accountSessionId
  let imsi ← radiusString packet.imsi
  let imei ← radiusString packet.imei
  let sgsnMccmnc ← radiusString packet.sgsnMccmnc
  let chargCharact ← radiusString packet.chargCharact
  return [
    .int code.toUInt64,
    .str (addressString packet.framedIpAddress),
    .str callingStationId,
    .int ((packet.accountStatusType.map UInt32.toUInt64).getD 0),
    .str accountSessionId,
    .str imsi,
    .str imei,
    .str (addressString packet.ggsnIpAddress),
    .str (addressString packet.sgsnIpAddress),
    .str sgsnMccmnc,
    .int ((packet.ratType.map UInt8.toUInt64).getD 0),
    .str chargCharact,
    .int ((packet.userLoc.map fun location =>
      UInt64.ofNat (ntohs (loadedWord location.cellLac))).getD 0),
    .int ((packet.userLoc.map fun location =>
      UInt64.ofNat (ntohs (loadedWord location.cellId))).getD 0)]

/-- `_radius_code_handle`: the body that is handed to the output, or nothing. -/
def radiusCodeHandle (messageCode : UInt16) (message : ReportArray) (packet : RadiusPacket) :
    Except Stop (Option (List UInt8)) :=
  if packet.hasSession then
    match packet.radiusCode with
    | none => .ok none
    | some code =>
        if messageCode ≠ mmtRadiusReportAll ∧ code.toUInt16 ≠ messageCode then .ok none
        else if packet.callingStationId = none ∨ packet.framedIpAddress = none then .ok none
        else do
          let fields ← (radiusFields code packet).mapError .fault
          let (_, message) ← stringBuilderWithSeparator 0 message.val maxLengthFullPathFileName
            (.ofText ",") fields
          let body ← (loadString message 0).mapError .fault
          return some body
  else .ok none

/-! ## The columns -/

/-- The packet is reported: it has a session, a code that is asked for, a calling station
and an address. -/
structure Passes (messageCode : UInt16) (packet : RadiusPacket) : Prop where
  session : packet.hasSession = true
  code : ∃ code ∈ packet.radiusCode, messageCode = mmtRadiusReportAll ∨
    code.toUInt16 = messageCode
  callingStation : packet.callingStationId ≠ none
  address : packet.framedIpAddress ≠ none

/-- The value of an attribute of characters. -/
def textValue (attr : Option RadiusText) : List UInt8 :=
  (attr.map RadiusText.characters).getD []

/-- The value of an address. -/
def addressValue (address : Option UInt32) : List UInt8 := (address.map ipText).getD []

/-- The value of a word in the order of the network. -/
def wordValue (bytes : UInt8 × UInt8) : Nat := 256 * bytes.1.toNat + bytes.2.toNat

/-- The columns of a report, in the order of the format that the source gives for it. -/
def radiusColumns (packet : RadiusPacket) : List Column := [
  .number (packet.radiusCode.getD 0).toUInt64,
  .text (addressValue packet.framedIpAddress),
  .text (textValue packet.callingStationId),
  .number ((packet.accountStatusType.map UInt32.toUInt64).getD 0),
  .text (textValue packet.accountSessionId),
  .text (textValue packet.imsi),
  .text (textValue packet.imei),
  .text (addressValue packet.ggsnIpAddress),
  .text (addressValue packet.sgsnIpAddress),
  .text (textValue packet.sgsnMccmnc),
  .number ((packet.ratType.map UInt8.toUInt64).getD 0),
  .text (textValue packet.chargCharact),
  .number ((packet.userLoc.map fun location => UInt64.ofNat (wordValue location.cellLac)).getD 0),
  .number ((packet.userLoc.map fun location => UInt64.ofNat (wordValue location.cellId)).getD 0)]

/-- A report is made, and it is split into fourteen columns with the values of the packet. -/
def KeepsColumns (messageCode : UInt16) (message : ReportArray) (packet : RadiusPacket) : Prop :=
  ∃ body, radiusCodeHandle messageCode message packet = .ok (some body) ∧
    (splitCsv body).length = 14 ∧
    List.Forall₂ Column.IsRead (radiusColumns packet) (splitCsv body)

/-- The strings that come from the network. -/
def radiusTexts (packet : RadiusPacket) : List (List UInt8) :=
  [packet.callingStationId, packet.accountSessionId, packet.imsi, packet.imei, packet.sgsnMccmnc,
    packet.chargCharact].map textValue

/-! ## What is printed -/

theorem radiusString_eq (attr : Option RadiusText) :
    radiusString attr = .ok (.of (textValue attr)) := by
  cases attr with
  | none => rfl
  | some text =>
      have hread := loadString_append (littleEndian 4 text.characters.length) text.characters
        text.behind
      rw [length_littleEndian] at hread
      have hcstring : CString.of (cstring text.characters) = CString.of text.characters := by
        simp only [CString.of, CString.mk.injEq]
        exact cstring_eq_self (CString.of text.characters).plain
      rw [radiusString, RadiusText.memory, hread]
      exact congrArg Except.ok hcstring

theorem addressString_eq (address : Option UInt32) :
    addressString address = .of (addressValue address) := by
  cases address <;> rfl

theorem ntohs_loadedWord (bytes : UInt8 × UInt8) : ntohs (loadedWord bytes) = wordValue bytes := by
  have hfirst := bytes.1.toNat_lt
  have hsecond := bytes.2.toNat_lt
  unfold ntohs loadedWord wordValue
  omega

/-- The builder is given the columns. -/
theorem radiusFields_eq {code : UInt8} {packet : RadiusPacket}
    (given : packet.radiusCode = some code) :
    radiusFields code packet = .ok ((radiusColumns packet).map Column.field) := by
  unfold radiusFields radiusColumns
  simp only [radiusString_eq, bind_ok, addressString_eq, ntohs_loadedWord, given]
  rfl

/-- The numbers and the addresses can always be quoted. -/
theorem quotable_radiusColumns_iff (packet : RadiusPacket) :
    (∀ column ∈ radiusColumns packet, column.Quotable) ↔
      ∀ text ∈ radiusTexts packet, (34 : UInt8) ∉ text ∧ (0 : UInt8) ∉ text := by
  have haddress : ∀ address, (Column.text (addressValue address)).Quotable := by
    intro address
    cases address with
    | none => exact ⟨List.not_mem_nil, List.not_mem_nil⟩
    | some ip =>
        change (34 : UInt8) ∉ ipText ip ∧ (0 : UInt8) ∉ ipText ip
        simp [ipText, decimal, notMem_fixed, isDigit]
  have hnumber : ∀ val, (Column.number val).Quotable := fun _ => trivial
  have htext : ∀ value, (Column.text value).Quotable ↔
      (34 : UInt8) ∉ value ∧ (0 : UInt8) ∉ value := fun _ => Iff.rfl
  simp only [radiusColumns, radiusTexts, List.map_cons, List.map_nil, List.forall_mem_cons,
    List.not_mem_nil, haddress, hnumber, htext, true_and, IsEmpty.forall_iff, implies_true]

/-- A packet that passes the filter is reported with the line of its columns. -/
theorem radiusCodeHandle_eq {messageCode : UInt16} {packet : RadiusPacket}
    (passes : Passes messageCode packet) (message : ReportArray) :
    ∃ text, buildText (maxLengthFullPathFileName - 1) [44]
        ((radiusColumns packet).map Column.field) [] = some text ∧
      radiusCodeHandle messageCode message packet = .ok (some text) := by
  obtain ⟨code, hcode, hasked⟩ := passes.code
  have hfits : maxLengthFullPathFileName ≤ message.val.length := by
    rw [message.property]
    unfold maxLengthFullPathFileName maxLengthReportMessage
    omega
  have hsmall : message.val.length ≤ 2 ^ 31 := by
    rw [message.property]
    unfold maxLengthReportMessage
    omega
  obtain ⟨text, after, htext, hbuild, hload⟩ :=
    exists_columns_line (radiusColumns packet) (by decide) hfits hsmall
  refine ⟨text, htext, ?_⟩
  have hfilter : ¬(messageCode ≠ mmtRadiusReportAll ∧ code.toUInt16 ≠ messageCode) :=
    fun hother => hasked.elim hother.1 hother.2
  have hpresent : ¬(packet.callingStationId = none ∨ packet.framedIpAddress = none) :=
    not_or.mpr ⟨passes.callingStation, passes.address⟩
  rw [radiusCodeHandle, if_pos passes.session, hcode]
  simp only [if_neg hfilter, if_neg hpresent, radiusFields_eq hcode, mapError_ok, bind_ok, hbuild,
    hload]
  rfl

/-- The columns are kept exactly when the line has at most 254 characters and no string
holds a quote or a NUL. -/
theorem keepsColumns_iff {messageCode : UInt16} {packet : RadiusPacket}
    (passes : Passes messageCode packet) (message : ReportArray) :
    KeepsColumns messageCode message packet ↔
      (∀ text ∈ radiusTexts packet, (34 : UInt8) ∉ text ∧ (0 : UInt8) ∉ text) ∧
        lineWidth (radiusColumns packet) ≤ 254 := by
  obtain ⟨text, htext, hhandle⟩ := radiusCodeHandle_eq passes message
  have hread := columns_readBack_iff (List.cons_ne_nil _ _) htext
  rw [← quotable_radiusColumns_iff]
  refine Iff.trans ?_ hread
  constructor
  · rintro ⟨body, hbody, -, hcolumns⟩
    rw [hhandle] at hbody
    rcases Option.some.inj (Except.ok.inj hbody) with rfl
    exact hcolumns
  · intro hcolumns
    exact ⟨text, hhandle, hcolumns.length_eq.symm, hcolumns⟩

/-- An accounting request of a phone. -/
def accountingPacket : RadiusPacket where
  hasSession := true
  radiusCode := some 4
  framedIpAddress := some 16777226
  callingStationId := some ⟨bytesOf "33612345678", []⟩
  accountStatusType := some 1
  accountSessionId := some ⟨bytesOf "A1B2", []⟩
  imsi := some ⟨bytesOf "208011234567890", []⟩
  imei := none
  ggsnIpAddress := some 33554442
  sgsnIpAddress := none
  sgsnMccmnc := some ⟨bytesOf "20801", []⟩
  ratType := some 1
  chargCharact := none
  userLoc := some ⟨(18, 52), (0, 7)⟩

theorem passes_accountingPacket : Passes 4 accountingPacket :=
  ⟨rfl, ⟨4, rfl, .inr rfl⟩, nofun, nofun⟩

theorem keepsColumns_iff_accountingPacket :
    KeepsColumns 4 ⟨List.replicate 3000 0, List.length_replicate⟩ accountingPacket :=
  (keepsColumns_iff passes_accountingPacket _).mpr ⟨by decide +kernel, by decide +kernel⟩

/-- The phone is called by a text with quotes in it. -/
def quotedPacket : RadiusPacket :=
  { accountingPacket with callingStationId := some ⟨bytesOf "a\",1,\"", []⟩ }

/-- The session has a long identifier. -/
def longPacket : RadiusPacket :=
  { accountingPacket with accountSessionId := some ⟨List.replicate 200 65, []⟩ }

/-- A calling station with quotes in it adds two columns, and after a session of 200
characters only nine are left. -/
theorem not_keepsColumns :
    Passes 4 quotedPacket ∧
      ¬KeepsColumns 4 ⟨List.replicate 3000 0, List.length_replicate⟩ quotedPacket ∧
      Passes 4 longPacket ∧
      ¬KeepsColumns 4 ⟨List.replicate 3000 0, List.length_replicate⟩ longPacket := by
  have hnot : ∀ {packet : RadiusPacket} {count : Nat},
      (radiusCodeHandle 4 ⟨List.replicate 3000 0, List.length_replicate⟩ packet).map
        (Option.map fun body => (splitCsv body).length) = .ok (some count) → count ≠ 14 →
      ¬KeepsColumns 4 ⟨List.replicate 3000 0, List.length_replicate⟩ packet := by
    rintro packet count hcount hne ⟨body, hbody, hlength, -⟩
    rw [hbody] at hcount
    have hsame : (splitCsv body).length = count := Option.some.inj (Except.ok.inj hcount)
    exact hne (hsame.symm.trans hlength)
  have hquoted : (radiusCodeHandle 4 ⟨List.replicate 3000 0, List.length_replicate⟩
      quotedPacket).map (Option.map fun body => (splitCsv body).length) = .ok (some 16) := by
    decide +kernel
  have hlong : (radiusCodeHandle 4 ⟨List.replicate 3000 0, List.length_replicate⟩
      longPacket).map (Option.map fun body => (splitCsv body).length) = .ok (some 9) := by
    decide +kernel
  exact ⟨⟨rfl, ⟨4, rfl, .inr rfl⟩, nofun, nofun⟩, hnot hquoted (by decide),
    ⟨rfl, ⟨4, rfl, .inr rfl⟩, nofun, nofun⟩, hnot hlong (by decide)⟩

end MmtProbe.Dpi
