/-
# The reports of events

`_event_report_handle` puts the title of an event, its value and the values of further
attributes into an array of `MAX_LENGTH_REPORT_MESSAGE` bytes.  A value is printed by
`mmt_attr_sprintf`, a function of the library that inspects the packets: here it is a
parameter, and all that is known of it is that it stays within the length it is given.

The attributes are printed with the room that is left behind the offset.  The value of the
event is printed with the size of the whole array, wherever it starts.
-/

import MmtProbe.Output.ReportBounds
import MmtProbe.Math.Hexadecimal

namespace MmtProbe.Dpi

open MmtProbe.Math MmtProbe.Lib MmtProbe.Output

/-! ## The data -/

/-- The types of the values: those that `_is_string` names, and the others. -/
inductive DataType where
  | binaryVarData
  | char
  | date
  | ip6Addr
  | ipAddr
  | ipNet
  | macAddr
  | path
  | headerLine
  | stringData
  | stringLongData
  | genericHeaderLine
  | other (code : Nat)
deriving DecidableEq, Repr

/-- `_is_string` -/
def isString : DataType → Bool
  | .other _ => false
  | _ => true

/-- `attribute_t` -/
structure EventAttribute where
  dataType : DataType
  data : Option (List UInt8)
deriving DecidableEq, Repr

/-- What `mmt_attr_sprintf` does: the bytes it writes, not more than its length, and how many
of them it returns as the length of the value. -/
structure Printed (len : Nat) where
  written : List UInt8
  ret : Nat
  bounded : written.length ≤ len
  inside : ret ≤ written.length
deriving DecidableEq, Repr

/-- The text of a value. -/
def Printed.text {len : Nat} (printed : Printed len) : List UInt8 :=
  printed.written.take printed.ret

/-- `mmt_attr_sprintf` -/
abbrev AttrSprintf := (len : Nat) → EventAttribute → Printed len

/-- One of the configured attributes, and what was extracted of it from the packet. -/
structure EventEntry where
  protoId : UInt32
  attId : UInt32
  /-- `get_attribute_data_type` -/
  attDataType : DataType
  /-- `get_extracted_attribute` -/
  extracted : Option EventAttribute
deriving DecidableEq, Repr

/-- The local variables of the handler, and the offset and the length of every call of
`mmt_attr_sprintf` so far. -/
structure EventWriter where
  offset : Nat
  message : List UInt8
  calls : List (Nat × Nat)
deriving DecidableEq, Repr

/-! ## The handler -/

/-- `message[offset ++] = byte` -/
def EventWriter.put (byte : UInt8) (writer : EventWriter) : Except Fault EventWriter := do
  let message ← store writer.message writer.offset byte
  return { writer with offset := writer.offset + 1, message }

/-- `offset += mmt_attr_sprintf( message + offset, len, attribute )` -/
def EventWriter.print (sprintf : AttrSprintf) (len : Nat) (attr : EventAttribute)
    (writer : EventWriter) : Except Fault EventWriter := do
  let printed := sprintf len attr
  let message ← storeBytes writer.message writer.offset printed.written
  return ⟨writer.offset + printed.ret, message, writer.calls ++ [(writer.offset, len)]⟩

/-- A value, between quotes when it is a string; the length is computed from the offset. -/
def EventWriter.printValue (sprintf : AttrSprintf) (room : Nat → Nat) (attr : EventAttribute)
    (writer : EventWriter) : Except Fault EventWriter :=
  if isString attr.dataType then do
    let writer ← writer.put 34
    let writer ← writer.print sprintf (room writer.offset) attr
    writer.put 34
  else writer.print sprintf (room writer.offset) attr

/-- `MAX_LENGTH_REPORT_MESSAGE - offset`. The byte before the offset was just written, so
that the offset is not larger. -/
def roomLeft (offset : Nat) : Nat := maxLengthReportMessage - offset

/-- Whether an attribute is an extended address of IEEE 802.15.4. -/
def isIeee802154Address (entry : EventEntry) : Bool :=
  entry.protoId == 800 && (entry.attId == 13 || entry.attId == 10)

/-- The format of an extended address, from the last of its eight bytes to the first. -/
def ieee802154Text (address : List UInt8) : List UInt8 :=
  34 :: (List.intercalate [58] (address.reverse.map lowerHexByte) ++ [34])

/-- `snprintf` behind an offset: what fits of the text, and a NUL. -/
def snprintfAt (memory : List UInt8) (address length : Nat) (text : List UInt8) :
    Except Fault (List UInt8) :=
  if length = 0 then .ok memory else storeBytes memory address (text.take (length - 1) ++ [0])

/-- `_process_ieee802154_src_dst`, for an extended address. -/
def processIeee802154SrcDst (writer : EventWriter) (data : Option EventAttribute) :
    Except Fault EventWriter :=
  match data.bind EventAttribute.data with
  | none => do
      let message ← store writer.message writer.offset 34
      let message ← store message (writer.offset + 1) 34
      return { writer with offset := writer.offset + 2, message }
  | some bytes => do
      let address ← loadBytes bytes 0 8
      let text := ieee802154Text address
      let message ← snprintfAt writer.message writer.offset (roomLeft writer.offset) text
      return { writer with offset := writer.offset + text.length, message }

/-- The default of an attribute that the packet does not have. -/
def EventWriter.putDefault (dataType : DataType) (writer : EventWriter) :
    Except Fault EventWriter :=
  if isString dataType then do
    let writer ← writer.put 34
    writer.put 34
  else writer.put 48

/-- The body of the loop over the attributes. -/
def reportAttribute (sprintf : AttrSprintf) (writer : EventWriter) (entry : EventEntry) :
    Except Fault EventWriter := do
  let writer ← writer.put 44
  if isIeee802154Address entry then processIeee802154SrcDst writer entry.extracted
  else match entry.extracted with
    | some attr => writer.printValue sprintf roomLeft attr
    | none => writer.putDefault entry.attDataType

/-- `_event_report_handle`: the variables when the report is handed to the output, and
nothing when the attribute has no data. -/
def eventReportHandle (sprintf : AttrSprintf) (message : ReportArray) (title : CString)
    (attributes : List EventEntry) (attr : EventAttribute) :
    Except Fault (Option EventWriter) :=
  match attr.data with
  | none => .ok none
  | some _ => do
      let (offset, message) ← appendString message.val 0 maxLengthReportMessage title
      let writer ← (EventWriter.mk offset message []).put 44
      let writer ← writer.printValue sprintf (fun _ => maxLengthReportMessage) attr
      let writer ← attributes.foldlM (reportAttribute sprintf) writer
      let message ← store writer.message writer.offset 0
      return some { writer with message }

/-! ## What a report is made of -/

/-- A text, between quotes when it stands for a string. -/
def quoteString (dataType : DataType) (text : List UInt8) : List UInt8 :=
  if isString dataType then 34 :: (text ++ [34]) else text

/-- The field of a value: what is printed of it for some length. -/
def IsValue (sprintf : AttrSprintf) (attr : EventAttribute) (field : List UInt8) : Prop :=
  ∃ len, field = quoteString attr.dataType (sprintf len attr).text

/-- The field of an attribute that the packet does not have. -/
def defaultField (dataType : DataType) : List UInt8 := if isString dataType then [34, 34] else [48]

/-- The field of an attribute. -/
def IsColumn (sprintf : AttrSprintf) (entry : EventEntry) (field : List UInt8) : Prop :=
  if isIeee802154Address entry then
    field = match entry.extracted.bind EventAttribute.data with
      | none => [34, 34]
      | some bytes => ieee802154Text (bytes.take 8)
  else match entry.extracted with
    | some attr => IsValue sprintf attr field
    | none => field = defaultField entry.attDataType

/-- The title, the value of the event and one field for each of the attributes. -/
def IsEventReport (sprintf : AttrSprintf) (title : CString) (attributes : List EventEntry)
    (attr : EventAttribute) (text : List UInt8) : Prop :=
  ∃ value fields, IsValue sprintf attr value ∧
    List.Forall₂ (IsColumn sprintf) attributes fields ∧
    text = 34 :: (title.bytes ++ [34]) ++ 44 :: (value ++ fields.flatMap (44 :: ·))

/-- The length of a call is not more than the room behind its offset. -/
def InRoom (call : Nat × Nat) : Prop := call.1 + call.2 ≤ maxLengthReportMessage

/-- No byte is written outside the array, no call is given more than the room that is left,
and the message is a title, a value and a field for each of the attributes. -/
def KeepsToBuffer (sprintf : AttrSprintf) (message : ReportArray) (title : CString)
    (attributes : List EventEntry) (attr : EventAttribute) : Prop :=
  ∃ result, eventReportHandle sprintf message title attributes attr = .ok result ∧
    ∀ writer ∈ result, (∀ call ∈ writer.calls, InRoom call) ∧
      ∃ text, IsEventReport sprintf title attributes attr text ∧
        text ++ [0] <+: writer.message

/-! ## One write -/

/-- A text stands at the beginning of the array, up to the offset. -/
structure EventWriter.Holds (writer : EventWriter) (text : List UInt8) : Prop where
  size : writer.message.length = maxLengthReportMessage
  offset : writer.offset = text.length
  front : text <+: writer.message

section Writes

variable {writer next : EventWriter} {text : List UInt8} {sprintf : AttrSprintf}

/-- A byte is written when there is room for it. -/
theorem EventWriter.Holds.put_iff (holds : writer.Holds text) (byte : UInt8) :
    writer.put byte = .ok next ↔ text.length < maxLengthReportMessage ∧
      next = { writer with
        offset := text.length + 1, message := writer.message.set text.length byte } := by
  rw [EventWriter.put, holds.offset, store, holds.size]
  split_ifs with hroom
  · rw [bind_ok, and_iff_right hroom]
    exact ⟨fun hnext => (Except.ok.inj hnext).symm, fun hnext => congrArg Except.ok hnext.symm⟩
  · refine iff_of_false ?_ fun hright => hroom hright.1
    intro hnext
    cases hnext

theorem EventWriter.Holds.put (holds : writer.Holds text) {byte : UInt8}
    (written : writer.put byte = .ok next) :
    next.Holds (text ++ [byte]) ∧ next.calls = writer.calls := by
  obtain ⟨hroom, rfl⟩ := (holds.put_iff byte).mp written
  obtain ⟨rest, hrest⟩ := holds.front
  refine ⟨⟨by rw [List.length_set]; exact holds.size, by rw [List.length_append]; rfl, ?_⟩, rfl⟩
  have hsize := holds.size
  rw [← hrest, List.length_append] at hsize
  rcases rest with _ | ⟨old, rest⟩
  · rw [List.length_nil] at hsize
    omega
  · refine ⟨rest, ?_⟩
    rw [← hrest, List.set_append_right _ _ (Nat.le_refl _), Nat.sub_self]
    simp

theorem EventWriter.Holds.exists_put (holds : writer.Holds text) (byte : UInt8)
    (room : text.length < maxLengthReportMessage) : ∃ next, writer.put byte = .ok next :=
  ⟨_, (holds.put_iff byte).mpr ⟨room, rfl⟩⟩

/-- Bytes that are written behind the text follow it. -/
theorem EventWriter.Holds.storeBytes (holds : writer.Holds text) {bytes message : List UInt8}
    (written : Math.storeBytes writer.message writer.offset bytes = .ok message) :
    message.length = maxLengthReportMessage ∧ text ++ bytes <+: message := by
  obtain ⟨rest, hrest⟩ := holds.front
  rw [Math.storeBytes] at written
  split_ifs at written with hfits
  rcases Except.ok.inj written with rfl
  refine ⟨(length_splice hfits).trans holds.size, rest.drop bytes.length, ?_⟩
  rw [splice, holds.offset, ← hrest, List.take_left, ← List.drop_drop, List.drop_left,
    List.append_assoc]

theorem EventWriter.Holds.print (holds : writer.Holds text) {len : Nat}
    {attr : EventAttribute} (printed : writer.print sprintf len attr = .ok next) :
    next.Holds (text ++ (sprintf len attr).text) ∧
      next.calls = writer.calls ++ [(text.length, len)] := by
  obtain ⟨message, hstore, hnext⟩ := bind_eq_ok_iff.mp printed
  obtain ⟨hsize, hfront⟩ := holds.storeBytes hstore
  rcases Except.ok.inj hnext with rfl
  have hret : (sprintf len attr).text.length = (sprintf len attr).ret :=
    List.length_take_of_le (sprintf len attr).inside
  refine ⟨⟨hsize, ?_, ?_⟩, by rw [holds.offset]⟩
  · rw [List.length_append, hret, holds.offset]
  · have htake : text ++ (sprintf len attr).text <+:
        text ++ (sprintf len attr).written :=
      (List.prefix_append_right_inj text).mpr (List.take_prefix _ _)
    exact htake.trans hfront

theorem EventWriter.Holds.exists_print (holds : writer.Holds text) {len : Nat}
    {attr : EventAttribute}
    (room : text.length + (sprintf len attr).written.length ≤ maxLengthReportMessage) :
    ∃ next, writer.print sprintf len attr = .ok next := by
  rw [EventWriter.print, storeBytes_eq_splice (by rw [holds.offset, holds.size]; exact room)]
  exact ⟨_, rfl⟩

/-- A value and the call that prints it. -/
theorem EventWriter.Holds.printValue (holds : writer.Holds text) {room : Nat → Nat}
    {attr : EventAttribute}
    (printed : writer.printValue sprintf room attr = .ok next) :
    ∃ field start, IsValue sprintf attr field ∧ next.Holds (text ++ field) ∧
      text.length ≤ start ∧ start ≤ maxLengthReportMessage ∧
      next.calls = writer.calls ++ [(start, room start)] := by
  rw [EventWriter.printValue] at printed
  split_ifs at printed with hstring
  · obtain ⟨opened, hopen, printed⟩ := bind_eq_ok_iff.mp printed
    obtain ⟨middle, hprint, hclose⟩ := bind_eq_ok_iff.mp printed
    obtain ⟨hopened, hcalls⟩ := holds.put hopen
    obtain ⟨hmiddle, hcall⟩ := hopened.print hprint
    obtain ⟨hnext, hsame⟩ := hmiddle.put hclose
    refine ⟨_, opened.offset, ⟨room opened.offset, rfl⟩, ?_, ?_, ?_, ?_⟩
    · rw [quoteString, if_pos hstring]
      simpa using hnext
    · rw [hopened.offset, List.length_append]
      omega
    · rw [hopened.offset, ← hopened.size]
      exact hopened.front.length_le
    · rw [hsame, hcall, hcalls, ← hopened.offset]
  · obtain ⟨hnext, hcall⟩ := holds.print printed
    refine ⟨_, writer.offset, ⟨room writer.offset, rfl⟩, ?_, Nat.le_of_eq holds.offset.symm, ?_, ?_⟩
    · rw [quoteString, if_neg hstring]
      exact hnext
    · rw [holds.offset, ← holds.size]
      exact holds.front.length_le
    · rw [hcall, ← holds.offset]

theorem EventWriter.Holds.putDefault (holds : writer.Holds text) {dataType : DataType}
    (written : writer.putDefault dataType = .ok next) :
    next.Holds (text ++ defaultField dataType) ∧ next.calls = writer.calls := by
  rw [EventWriter.putDefault] at written
  rw [defaultField]
  split_ifs at written ⊢ with hstring
  · obtain ⟨opened, hopen, hclose⟩ := bind_eq_ok_iff.mp written
    obtain ⟨hopened, hcalls⟩ := holds.put hopen
    obtain ⟨hnext, hsame⟩ := hopened.put hclose
    rw [List.append_assoc] at hnext
    exact ⟨hnext, hsame.trans hcalls⟩
  · exact holds.put written

end Writes

/-! ## The loop over the attributes -/

section Attributes

variable {writer next : EventWriter} {text : List UInt8} {sprintf : AttrSprintf}

theorem length_ieee802154Text {bytes : List UInt8} (whole : bytes.length = 8) :
    (ieee802154Text bytes).length = 25 := by
  obtain ⟨b0, b1, b2, b3, b4, b5, b6, b7, rfl⟩ : ∃ b0 b1 b2 b3 b4 b5 b6 b7,
      bytes = [b0, b1, b2, b3, b4, b5, b6, b7] := by
    rcases bytes with _ | ⟨b0, _ | ⟨b1, _ | ⟨b2, _ | ⟨b3, _ | ⟨b4, _ | ⟨b5, _ | ⟨b6, _ |
      ⟨b7, _ | ⟨b8, rest⟩⟩⟩⟩⟩⟩⟩⟩⟩ <;> simp_all
  rfl

/-- The offset has left the array. -/
structure EventWriter.Beyond (writer : EventWriter) : Prop where
  size : writer.message.length = maxLengthReportMessage
  offset : maxLengthReportMessage ≤ writer.offset

/-- An extended address is written as a whole, or moves the offset out of the array. -/
theorem EventWriter.Holds.processIeee802154SrcDst (holds : writer.Holds text)
    {data : Option EventAttribute}
    (written : Dpi.processIeee802154SrcDst writer data = .ok next) :
    (next.Beyond ∧ maxLengthReportMessage ≤ text.length + 25 ∨
      next.Holds (text ++ match data.bind EventAttribute.data with
        | none => [34, 34]
        | some bytes => ieee802154Text (bytes.take 8))) ∧ next.calls = writer.calls := by
  rw [Dpi.processIeee802154SrcDst] at written
  cases hdata : data.bind EventAttribute.data with
  | none =>
      simp only [hdata] at written
      obtain ⟨first, hfirst, written⟩ := bind_eq_ok_iff.mp written
      obtain ⟨second, hsecond, hnext⟩ := bind_eq_ok_iff.mp written
      have hopen : writer.put 34 =
          .ok { writer with offset := writer.offset + 1, message := first } := by
        rw [EventWriter.put, hfirst]
        rfl
      have hclose : EventWriter.put 34
          { writer with offset := writer.offset + 1, message := first } = .ok next := by
        rw [EventWriter.put, hsecond]
        exact hnext
      obtain ⟨hopened, hcalls⟩ := holds.put hopen
      obtain ⟨hclosed, hsame⟩ := hopened.put hclose
      rw [List.append_assoc] at hclosed
      exact ⟨.inr hclosed, hsame.trans hcalls⟩
  | some bytes =>
      simp only [hdata] at written
      obtain ⟨address, hload, written⟩ := bind_eq_ok_iff.mp written
      obtain ⟨message, hprint, hnext⟩ := bind_eq_ok_iff.mp written
      rcases Except.ok.inj hnext with rfl
      rw [loadBytes] at hload
      split_ifs at hload with hwhole
      rcases Except.ok.inj hload with rfl
      rw [List.drop_zero] at hprint ⊢
      have hlength := @length_ieee802154Text (bytes.take 8) (List.length_take_of_le (by omega))
      refine ⟨?_, rfl⟩
      by_cases hbeyond : maxLengthReportMessage ≤
          writer.offset + (ieee802154Text (bytes.take 8)).length
      · refine .inl ⟨⟨?_, hbeyond⟩, by rwa [hlength, holds.offset] at hbeyond⟩
        rw [snprintfAt] at hprint
        split_ifs at hprint with hfull
        · rcases Except.ok.inj hprint with rfl
          exact holds.size
        · exact (holds.storeBytes hprint).1
      · have hroom : roomLeft writer.offset ≠ 0 := by
          unfold roomLeft
          omega
        have hfits : (ieee802154Text (bytes.take 8)).length ≤ roomLeft writer.offset - 1 := by
          unfold roomLeft
          omega
        rw [snprintfAt, if_neg hroom, List.take_of_length_le hfits] at hprint
        obtain ⟨hsize, hfront⟩ := holds.storeBytes hprint
        rw [← List.append_assoc] at hfront
        refine .inr ⟨hsize, ?_, (List.prefix_append _ _).trans hfront⟩
        rw [List.length_append, holds.offset]

/-- An attribute adds a comma and its field, and prints it with the room that is left. -/
theorem reportAttribute_ok (holds : writer.Holds text) {entry : EventEntry}
    (reported : reportAttribute sprintf writer entry = .ok next) :
    (next.Beyond ∧ isIeee802154Address entry = true ∧ maxLengthReportMessage ≤ text.length + 26 ∨
      ∃ field, IsColumn sprintf entry field ∧ next.Holds (text ++ 44 :: field)) ∧
    ∃ calls, next.calls = writer.calls ++ calls ∧ ∀ call ∈ calls, InRoom call := by
  obtain ⟨separated, hput, reported⟩ := bind_eq_ok_iff.mp reported
  obtain ⟨hseparated, hcalls⟩ := holds.put hput
  rw [← hcalls]
  by_cases haddress : isIeee802154Address entry = true
  · rw [if_pos haddress] at reported
    obtain ⟨hfield, hsame⟩ := hseparated.processIeee802154SrcDst reported
    rw [List.length_append, List.length_singleton, Nat.add_assoc] at hfield
    refine ⟨hfield.imp (fun hbeyond => ⟨hbeyond.1, haddress, hbeyond.2⟩) fun hnext => ?_, [],
      by rw [hsame, List.append_nil], by simp⟩
    refine ⟨_, by rw [IsColumn, if_pos haddress], ?_⟩
    rw [List.append_assoc] at hnext
    exact hnext
  · rw [if_neg haddress] at reported
    cases hextracted : entry.extracted with
    | none =>
        simp only [hextracted] at reported
        obtain ⟨hnext, hsame⟩ := hseparated.putDefault reported
        rw [List.append_assoc] at hnext
        refine ⟨.inr ⟨_, ?_, hnext⟩, [], by rw [hsame, List.append_nil], by simp⟩
        rw [IsColumn, if_neg haddress, hextracted]
        rfl
    | some attr =>
        simp only [hextracted] at reported
        obtain ⟨field, start, hvalue, hnext, -, hinside, hcall⟩ := hseparated.printValue reported
        refine ⟨.inr ⟨field, ?_, ?_⟩, [(start, roomLeft start)], hcall, ?_⟩
        · rw [IsColumn, if_neg haddress, hextracted]
          exact hvalue
        · rw [List.append_assoc] at hnext
          exact hnext
        · intro call hlisted
          rcases List.mem_singleton.mp hlisted with rfl
          unfold InRoom roomLeft
          omega

/-- Nothing can be written behind the array. -/
theorem EventWriter.Beyond.put (beyond : writer.Beyond) (byte : UInt8) :
    writer.put byte = .error (.store writer.offset) := by
  rw [EventWriter.put, store, beyond.size, if_neg (Nat.not_lt.mpr beyond.offset)]
  rfl

/-- The attributes add their fields one after the other. -/
theorem foldlM_reportAttribute_ok (attributes : List EventEntry) (holds : writer.Holds text)
    (reported : attributes.foldlM (reportAttribute sprintf) writer = .ok next) :
    (next.Beyond ∨ ∃ fields, List.Forall₂ (IsColumn sprintf) attributes fields ∧
      next.Holds (text ++ fields.flatMap (44 :: ·))) ∧
    ∃ calls, next.calls = writer.calls ++ calls ∧ ∀ call ∈ calls, InRoom call := by
  induction attributes generalizing writer text with
  | nil =>
      rcases Except.ok.inj reported with rfl
      refine ⟨.inr ⟨[], .nil, ?_⟩, [], (List.append_nil _).symm, by simp⟩
      rw [List.flatMap_nil, List.append_nil]
      exact holds
  | cons entry attributes ih =>
      rw [List.foldlM_cons] at reported
      obtain ⟨middle, hentry, hrest⟩ := bind_eq_ok_iff.mp reported
      obtain ⟨hfield, first, hfirst, hinFirst⟩ := reportAttribute_ok holds hentry
      rcases hfield with ⟨hbeyond, -⟩ | ⟨field, hcolumn, hmiddle⟩
      · -- The next separator would be written outside, so there is no further attribute.
        rcases attributes with _ | ⟨following, attributes⟩
        · rcases Except.ok.inj hrest with rfl
          exact ⟨.inl hbeyond, first, hfirst, hinFirst⟩
        · rw [List.foldlM_cons, reportAttribute, hbeyond.put] at hrest
          cases hrest
      · obtain ⟨hfields, second, hsecond, hinSecond⟩ := ih hmiddle hrest
        refine ⟨hfields.imp id ?_, first ++ second, ?_, ?_⟩
        · rintro ⟨fields, hcolumns, hnext⟩
          refine ⟨field :: fields, .cons hcolumn hcolumns, ?_⟩
          rw [List.flatMap_cons, ← List.append_assoc]
          exact hnext
        · rw [hsecond, hfirst, List.append_assoc]
        · intro call hlisted
          exact (List.mem_append.mp hlisted).elim (hinFirst call) (hinSecond call)

end Attributes

/-! ## Values that are short enough -/

section Fits

variable {writer : EventWriter} {text : List UInt8} {sprintf : AttrSprintf}

/-- What is written of a value is bounded, whatever the length of the call. -/
def Narrow (sprintf : AttrSprintf) (width : EventAttribute → Nat) : Prop :=
  ∀ len attr, (sprintf len attr).written.length ≤ width attr

/-- The most that an attribute adds to a report. -/
def entryWidth (width : EventAttribute → Nat) (entry : EventEntry) : Nat :=
  if isIeee802154Address entry then 26
  else match entry.extracted with
    | some attr => width attr + 3
    | none => 3

/-- An extended address has its eight bytes. -/
def WholeAddress (entry : EventEntry) : Prop :=
  isIeee802154Address entry = true →
    ∀ bytes ∈ entry.extracted.bind EventAttribute.data, 8 ≤ bytes.length

theorem EventWriter.Holds.exists_putDefault (holds : writer.Holds text) (dataType : DataType)
    (fits : text.length + 2 ≤ maxLengthReportMessage) :
    ∃ next, writer.putDefault dataType = .ok next := by
  rw [EventWriter.putDefault]
  split_ifs
  · obtain ⟨opened, hopen⟩ := holds.exists_put 34 (by omega)
    rw [hopen, bind_ok]
    refine (holds.put hopen).1.exists_put 34 ?_
    rw [List.length_append, List.length_singleton]
    omega
  · exact holds.exists_put 48 (by omega)

theorem EventWriter.Holds.exists_processIeee802154SrcDst (holds : writer.Holds text)
    {data : Option EventAttribute}
    (address : ∀ bytes ∈ data.bind EventAttribute.data, 8 ≤ bytes.length)
    (fits : text.length + 25 < maxLengthReportMessage) :
    ∃ next, Dpi.processIeee802154SrcDst writer data = .ok next := by
  have hoffset := holds.offset
  have hsize := holds.size
  rw [Dpi.processIeee802154SrcDst]
  cases hdata : data.bind EventAttribute.data with
  | none =>
      have hopen := store_eq_splice (show writer.offset < writer.message.length by omega) 34
      have hclose := @store_splice writer.message writer.offset [34]
        (by rw [List.length_singleton]; omega) 34
      simp only [hopen, bind_ok]
      rw [List.length_singleton] at hclose
      rw [hclose]
      exact ⟨_, rfl⟩
  | some bytes =>
      have hwhole := address bytes hdata
      have hlength := @length_ieee802154Text (bytes.take 8) (List.length_take_of_le hwhole)
      have hload : loadBytes bytes 0 8 = .ok (bytes.take 8) := by
        rw [loadBytes, if_pos (by omega), List.drop_zero]
      have hroom : roomLeft writer.offset ≠ 0 := by
        unfold roomLeft
        omega
      simp only [hload, bind_ok]
      rw [snprintfAt, if_neg hroom, storeBytes_eq_splice]
      · exact ⟨_, rfl⟩
      · rw [List.length_append, List.length_take, List.length_singleton]
        omega

variable {width : EventAttribute → Nat} (narrow : Narrow sprintf width)
include narrow

theorem length_le_of_isValue {attr : EventAttribute} {field : List UInt8}
    (value : IsValue sprintf attr field) : field.length ≤ width attr + 2 := by
  obtain ⟨len, rfl⟩ := value
  have htext : (sprintf len attr).text.length ≤ width attr :=
    (List.length_take_le' _ _).trans (narrow len attr)
  rw [quoteString]
  split_ifs
  · rw [List.length_cons, List.length_append, List.length_singleton]
    omega
  · omega

theorem EventWriter.Holds.exists_printValue (holds : writer.Holds text) (room : Nat → Nat)
    {attr : EventAttribute} (fits : text.length + (width attr + 2) ≤ maxLengthReportMessage) :
    ∃ next, writer.printValue sprintf room attr = .ok next := by
  rw [EventWriter.printValue]
  split_ifs
  · obtain ⟨opened, hopen⟩ := holds.exists_put 34 (by omega)
    have hopened := (holds.put hopen).1
    have hwritten := narrow (room opened.offset) attr
    obtain ⟨middle, hprint⟩ := @EventWriter.Holds.exists_print _ _ sprintf hopened
      (room opened.offset) attr (by rw [List.length_append, List.length_singleton]; omega)
    have hmiddle := (hopened.print hprint).1
    have hret : (sprintf (room opened.offset) attr).text.length ≤ width attr :=
      (List.length_take_le' _ _).trans hwritten
    rw [hopen, bind_ok, hprint, bind_ok]
    refine hmiddle.exists_put 34 ?_
    rw [List.length_append, List.length_append, List.length_singleton]
    omega
  · have hwritten := narrow (room writer.offset) attr
    exact holds.exists_print (by omega)

theorem length_lt_of_isColumn {entry : EventEntry} (address : WholeAddress entry)
    {field : List UInt8} (column : IsColumn sprintf entry field) :
    field.length < entryWidth width entry := by
  rw [IsColumn] at column
  rw [entryWidth]
  by_cases haddress : isIeee802154Address entry = true
  · rw [if_pos haddress] at column ⊢
    cases hdata : entry.extracted.bind EventAttribute.data with
    | none =>
        rw [column, hdata]
        decide
    | some bytes =>
        have hwhole := address haddress bytes hdata
        rw [column, hdata]
        exact Nat.lt_succ_of_le (length_ieee802154Text (List.length_take_of_le hwhole)).le
  · rw [if_neg haddress] at column ⊢
    cases hextracted : entry.extracted with
    | none =>
        rw [hextracted] at column
        rw [column, defaultField]
        change _ < 3
        split_ifs <;> decide
    | some attr =>
        rw [hextracted] at column
        have hle := length_le_of_isValue narrow column
        change field.length < width attr + 3
        omega

/-- An attribute is reported when there is room for it. -/
theorem exists_reportAttribute (holds : writer.Holds text) {entry : EventEntry}
    (address : WholeAddress entry)
    (fits : text.length + entryWidth width entry < maxLengthReportMessage) :
    ∃ next, reportAttribute sprintf writer entry = .ok next := by
  have hwidth : 3 ≤ entryWidth width entry := by
    rw [entryWidth]
    split
    · decide
    · split <;> omega
  obtain ⟨separated, hput⟩ := holds.exists_put 44 (by omega)
  have hseparated := (holds.put hput).1
  rw [reportAttribute, hput, bind_ok]
  by_cases haddress : isIeee802154Address entry = true
  · rw [entryWidth, if_pos haddress] at fits
    rw [if_pos haddress]
    refine hseparated.exists_processIeee802154SrcDst (address haddress) ?_
    rw [List.length_append, List.length_singleton]
    omega
  · rw [entryWidth, if_neg haddress] at fits
    rw [if_neg haddress]
    cases hextracted : entry.extracted with
    | none =>
        rw [hextracted] at fits
        change text.length + 3 < maxLengthReportMessage at fits
        refine hseparated.exists_putDefault entry.attDataType ?_
        rw [List.length_append, List.length_singleton]
        omega
    | some attr =>
        rw [hextracted] at fits
        change text.length + (width attr + 3) < maxLengthReportMessage at fits
        refine hseparated.exists_printValue narrow roomLeft ?_
        rw [List.length_append, List.length_singleton]
        omega

/-- All attributes are reported when there is room for them. -/
theorem exists_foldlM_reportAttribute (attributes : List EventEntry) (holds : writer.Holds text)
    (addresses : ∀ entry ∈ attributes, WholeAddress entry)
    (fits : text.length + (attributes.map (entryWidth width)).sum < maxLengthReportMessage) :
    ∃ next, attributes.foldlM (reportAttribute sprintf) writer = .ok next ∧
      next.offset < maxLengthReportMessage ∧ next.message.length = maxLengthReportMessage := by
  induction attributes generalizing writer text with
  | nil =>
      rw [List.map_nil, List.sum_nil, Nat.add_zero, ← holds.offset] at fits
      exact ⟨writer, rfl, fits, holds.size⟩
  | cons entry attributes ih =>
      rw [List.map_cons, List.sum_cons] at fits
      have haddress := addresses entry List.mem_cons_self
      obtain ⟨middle, hentry⟩ := exists_reportAttribute narrow holds haddress (by omega)
      have hwidth : isIeee802154Address entry = true → entryWidth width entry = 26 :=
        fun haddress => if_pos haddress
      rcases (reportAttribute_ok holds hentry).1 with ⟨-, hieee, hfull⟩ | ⟨field, hcolumn, hmiddle⟩
      · have hieeeWidth := hwidth hieee
        omega
      · have hfield := length_lt_of_isColumn narrow haddress hcolumn
        obtain ⟨next, hrest, hend⟩ := ih hmiddle
          (fun other hlisted => addresses other (List.mem_cons_of_mem _ hlisted))
          (by rw [List.length_append, List.length_cons]; omega)
        refine ⟨next, ?_, hend⟩
        rw [List.foldlM_cons, hentry, bind_ok, hrest]

end Fits

/-! ## The reports -/

/-- The title, which is written first, when something is written behind it. -/
theorem quotedText_title {title : CString}
    (room : (quotedText maxLengthReportMessage title.bytes).length < maxLengthReportMessage) :
    quotedText maxLengthReportMessage title.bytes = 34 :: (title.bytes ++ [34]) := by
  rw [length_quotedText (by decide)] at room
  rw [quotedText, if_neg (by decide), List.take_of_length_le (by omega)]

theorem holds_title (message : ReportArray) (title : CString) :
    (EventWriter.mk (quotedText maxLengthReportMessage title.bytes).length
      (splice message.val 0 (quotedText maxLengthReportMessage title.bytes)) []).Holds
      (quotedText maxLengthReportMessage title.bytes) := by
  have hquoted : (quotedText maxLengthReportMessage title.bytes).length ≤
      maxLengthReportMessage := by
    rw [length_quotedText (by decide)]
    exact Nat.min_le_right _ _
  refine ⟨(length_splice (by rw [message.property]; omega)).trans message.property, rfl, ?_⟩
  rw [splice_zero]
  exact List.prefix_append _ _

/-- The steps of a report: the title, the comma, the value, the attributes and the NUL. -/
theorem eventReportHandle_steps {sprintf : AttrSprintf} {message : ReportArray} {title : CString}
    {attributes : List EventEntry} {attr : EventAttribute} {result : Option EventWriter}
    (handled : eventReportHandle sprintf message title attributes attr = .ok result)
    (given : attr.data ≠ none) :
    ∃ first separated valued reported closed : EventWriter, first.calls = [] ∧
      first.Holds (quotedText maxLengthReportMessage title.bytes) ∧
      first.put 44 = .ok separated ∧
      separated.printValue sprintf (fun _ => maxLengthReportMessage) attr = .ok valued ∧
      attributes.foldlM (reportAttribute sprintf) valued = .ok reported ∧
      reported.put 0 = .ok closed ∧
      result = some { closed with offset := reported.offset } := by
  obtain ⟨data, hdata⟩ := Option.ne_none_iff_exists'.mp given
  have hfits : 0 + maxLengthReportMessage ≤ message.val.length := by
    rw [message.property, Nat.zero_add]
  rw [eventReportHandle, hdata] at handled
  simp only [appendString_eq hfits title, bind_ok] at handled
  obtain ⟨separated, hput, handled⟩ := bind_eq_ok_iff.mp handled
  obtain ⟨valued, hvalue, handled⟩ := bind_eq_ok_iff.mp handled
  obtain ⟨reported, hreport, handled⟩ := bind_eq_ok_iff.mp handled
  obtain ⟨closed, hclose, hresult⟩ := bind_eq_ok_iff.mp handled
  refine ⟨_, separated, valued, reported,
    { reported with offset := reported.offset + 1, message := closed }, rfl,
    holds_title message title, hput, hvalue, hreport, ?_, ?_⟩
  · rw [EventWriter.put, hclose]
    rfl
  · exact (Except.ok.inj hresult).symm

/-- A report that is handed on has its title, its value and a field for each attribute, and
only the length of the value is more than the room. -/
theorem eventReportHandle_ok {sprintf : AttrSprintf} {message : ReportArray} {title : CString}
    {attributes : List EventEntry} {attr : EventAttribute} {writer : EventWriter}
    (handled : eventReportHandle sprintf message title attributes attr = .ok (some writer))
    (given : attr.data ≠ none) :
    (∃ text, IsEventReport sprintf title attributes attr text ∧ text ++ [0] <+: writer.message) ∧
    ∃ start calls, writer.calls = (start, maxLengthReportMessage) :: calls ∧ 0 < start ∧
      ∀ call ∈ calls, InRoom call := by
  obtain ⟨first, separated, valued, reported, closed, hcalls, hfirst, hput, hvalue, hreport, hclose,
    hwriter⟩ := eventReportHandle_steps handled given
  rcases Option.some.inj hwriter with rfl
  obtain ⟨hseparated, hnone⟩ := hfirst.put hput
  obtain ⟨value, start, hisValue, hvalued, hbehind, -, hcall⟩ := hseparated.printValue hvalue
  obtain ⟨hfields, calls, hmore, hinRoom⟩ := foldlM_reportAttribute_ok attributes hvalued hreport
  rcases hfields with hbeyond | ⟨fields, hcolumns, hreported⟩
  · rw [hbeyond.put] at hclose
    cases hclose
  · obtain ⟨hroom, -⟩ := (hreported.put_iff 0).mp hclose
    obtain ⟨hclosed, hsame⟩ := hreported.put hclose
    have htitle := @quotedText_title title (by
      simp only [List.length_append] at hroom
      omega)
    constructor
    · refine ⟨_, ⟨value, fields, hisValue, hcolumns, rfl⟩, ?_⟩
      have hfront := hclosed.front
      rw [htitle] at hfront
      simpa using hfront
    · refine ⟨start, calls, ?_, ?_, hinRoom⟩
      · rw [hsame, hmore, hcall, hnone, hcalls]
        rfl
      · rw [List.length_append, List.length_singleton] at hbehind
        omega

/-- A report whose values are short enough is handed on. -/
theorem exists_eventReportHandle {sprintf : AttrSprintf} {width : EventAttribute → Nat}
    (narrow : Narrow sprintf width) (message : ReportArray) {title : CString}
    {attributes : List EventEntry} {attr : EventAttribute} (given : attr.data ≠ none)
    (addresses : ∀ entry ∈ attributes, WholeAddress entry)
    (fits : title.bytes.length + 5 + width attr + (attributes.map (entryWidth width)).sum <
      maxLengthReportMessage) :
    ∃ writer, eventReportHandle sprintf message title attributes attr = .ok (some writer) := by
  obtain ⟨data, hdata⟩ := Option.ne_none_iff_exists'.mp given
  have hfits : 0 + maxLengthReportMessage ≤ message.val.length := by
    rw [message.property, Nat.zero_add]
  have htitle := @length_quotedText maxLengthReportMessage (by decide) title
  have hfirst := holds_title message title
  obtain ⟨separated, hput⟩ := hfirst.exists_put 44 (by omega)
  have hseparated := (hfirst.put hput).1
  have hlength : (quotedText maxLengthReportMessage title.bytes ++ [44]).length =
      title.bytes.length + 3 := by
    rw [List.length_append, List.length_singleton]
    omega
  obtain ⟨valued, hprint⟩ := hseparated.exists_printValue narrow (fun _ => maxLengthReportMessage)
    (show _ + (width attr + 2) ≤ _ by omega)
  obtain ⟨value, start, hvalue, hvalued, -⟩ := hseparated.printValue hprint
  have hvalueLength := length_le_of_isValue narrow hvalue
  obtain ⟨reported, hreport, hroom, hsize⟩ := exists_foldlM_reportAttribute narrow attributes
    hvalued addresses (by rw [List.length_append, hlength]; omega)
  rw [eventReportHandle, hdata]
  simp only [appendString_eq hfits title, bind_ok, hput, hprint, hreport]
  rw [store_eq_splice (by omega)]
  exact ⟨_, rfl⟩

/-- Exactly the reports without data keep to the buffer: nothing is written for them. -/
theorem keepsToBuffer_iff (sprintf : AttrSprintf) (message : ReportArray) (title : CString)
    (attributes : List EventEntry) (attr : EventAttribute) :
    KeepsToBuffer sprintf message title attributes attr ↔ attr.data = none := by
  constructor
  · rintro ⟨result, hrun, hkeeps⟩
    by_contra hdata
    obtain ⟨_, _, _, reported, closed, -, -, -, -, -, -, rfl⟩ := eventReportHandle_steps hrun hdata
    obtain ⟨-, start, calls, hcalls, hpos, -⟩ := eventReportHandle_ok hrun hdata
    have hroom := (hkeeps _ rfl).1 (start, maxLengthReportMessage)
      (by rw [hcalls]; exact List.mem_cons_self)
    unfold InRoom at hroom
    omega
  · intro hdata
    refine ⟨none, by rw [eventReportHandle, hdata], ?_⟩
    intro writer hwriter
    cases hwriter

/-- A function that prints the bytes of a value, as far as they fit. -/
def printBytes : AttrSprintf := fun len attr =>
  ⟨(attr.data.getD []).take len, ((attr.data.getD []).take len).length, List.length_take_le _ _,
    Nat.le_refl _⟩

/-- The value of an event of 3000 bytes is printed behind the end of the array, and a short
value stays inside with a length that goes beyond the array. -/
theorem not_keepsToBuffer :
    eventReportHandle printBytes ⟨List.replicate 3000 0, List.length_replicate⟩ (.of [101]) []
        ⟨.other 0, some (List.replicate 3000 65)⟩ = .error (.store 3000) ∧
      (eventReportHandle printBytes ⟨List.replicate 3000 0, List.length_replicate⟩
        (.of [101]) [] ⟨.other 0, some [49]⟩).map (Option.map EventWriter.calls) =
          .ok (some [(4, 3000)]) ∧
      ¬ KeepsToBuffer printBytes ⟨List.replicate 3000 0, List.length_replicate⟩ (.of [101]) []
        ⟨.other 0, some [49]⟩ := by
  have hcalls : (eventReportHandle printBytes ⟨List.replicate 3000 0, List.length_replicate⟩
      (.of [101]) [] ⟨.other 0, some [49]⟩).map (Option.map EventWriter.calls) =
        .ok (some [(4, 3000)]) := by decide +kernel
  refine ⟨by decide +kernel, hcalls, ?_⟩
  rintro ⟨result, hrun, hkeeps⟩
  rw [hrun] at hcalls
  obtain ⟨writer, rfl, hwriter⟩ := Option.map_eq_some_iff.mp (Except.ok.inj hcalls)
  have hroom := (hkeeps writer rfl).1 (4, 3000) (by rw [hwriter]; exact List.mem_cons_self)
  revert hroom
  unfold InRoom maxLengthReportMessage
  decide

end MmtProbe.Dpi
