/-
# Assembling a report

`output.c` puts a report together in arrays of `MAX_LENGTH_REPORT_MESSAGE` bytes:
a header of at most 254 characters, a comma and the body of the report, and, for
JSON and for MongoDB, a pair of brackets around it all.  Each layer has its own
bound, and none of them leaves room for what the next one adds.

The arrays are local ones, so their content at the start is arbitrary; every access
to them is checked.  What the modules of the output channels do with a report is
reduced to the string each of them is given and to the number it returns.
-/

import MmtProbe.Lib.StringBuilderText

namespace MmtProbe.Output

open MmtProbe.Math MmtProbe.Dpi MmtProbe.Lib

/-- `MAX_LENGTH_FULL_PATH_FILE_NAME` -/
def maxLengthFullPathFileName : Nat := 255

/-- `MAX_LENGTH_REPORT_MESSAGE` -/
def maxLengthReportMessage : Nat := 3000

/-- An array of `MAX_LENGTH_REPORT_MESSAGE` bytes. -/
abbrev ReportArray := { bytes : List UInt8 // bytes.length = maxLengthReportMessage }

inductive OutputFormat where
  | csv
  | json
deriving DecidableEq, Repr

inductive Channel where
  | file
  | redis
  | kafka
  | mongodb
  | socket
deriving DecidableEq, Repr

/-- `CONF_OUTPUT_CHANNEL_*` -/
def Channel.bit : Channel → UInt32
  | file => 1
  | redis => 2
  | kafka => 4
  | mongodb => 8
  | socket => 16

/-- `IS_ENABLE_OUTPUT_TO` -/
def isEnableOutputTo (channel : Channel) (channels : UInt32) : Bool := channels &&& channel.bit != 0

/-- What of `output_conf_t` is read when a report is written. -/
structure OutputConf where
  isEnable : Bool
  format : OutputFormat
deriving DecidableEq, Repr

/-- `output_t`. A module that is connected stands for the number its send function
returns; there is nothing to return for MongoDB, and the module of the file output is
always called. -/
structure OutputT where
  probeId : UInt32
  inputSrc : CString
  lastReportTs : Timeval
  config : Option OutputConf
  redis : Option (List UInt8 → Int)
  kafka : Option (List UInt8 → Int)
  mongodb : Bool
  socket : Option (List UInt8 → Int)

/-- What `_write` did: its result, the strings that were handed on, and `new_msg`. -/
structure Written where
  ret : Int
  sent : List (Channel × List UInt8)
  newMsg : List UInt8

/-! ## The code -/

/-- Whether a report is surrounded by brackets in `new_msg`. -/
def OutputT.surrounds (output : OutputT) (config : OutputConf) (channels : UInt32) : Bool :=
  config.format == .json || (output.mongodb && isEnableOutputTo .mongodb channels)

/-- The first part of `_write`: `[`, the message and `]`. -/
def surround (message newMsg : List UInt8) : Except Fault (List UInt8) := do
  let newMsg ← store newMsg 0 91
  let text ← loadString message 0
  let newMsg ← storeBytes newMsg 1 text
  let newMsg ← store newMsg (text.length + 1) 93
  store newMsg (text.length + 2) 0

/-- A string is given to the module of a channel. -/
def send (channel : Channel) (enabled : Bool) (result : List UInt8 → Int) (string : List UInt8)
    (sofar : Int × List (Channel × List UInt8)) :
    Except Fault (Int × List (Channel × List UInt8)) :=
  if enabled then
    (loadString string 0).map fun text => (sofar.1 + result text, sofar.2 ++ [(channel, text)])
  else .ok sofar

/-- `_write` -/
def write (output : OutputT) (config : OutputConf) (channels : UInt32)
    (message newMsg : List UInt8) :
    Except Fault Written := do
  let newMsg ← (if output.surrounds config channels then surround message newMsg
    else .ok newMsg : Except Fault (List UInt8))
  let message := if config.format = .json then newMsg else message
  let sofar ← send .file (isEnableOutputTo .file channels) (fun _ => 1) message (0, [])
  let sofar ← send .kafka (output.kafka.isSome && isEnableOutputTo .kafka channels)
    (output.kafka.getD fun _ => 0) message sofar
  let sofar ← send .redis (output.redis.isSome && isEnableOutputTo .redis channels)
    (output.redis.getD fun _ => 0) message sofar
  let sofar ← send .mongodb (output.mongodb && isEnableOutputTo .mongodb channels)
    (fun _ => 1) newMsg sofar
  let sofar ← send .socket (output.socket.isSome && isEnableOutputTo .socket channels)
    (output.socket.getD fun _ => 0) message sofar
  return ⟨sofar.1, sofar.2, newMsg⟩

/-- The configuration an output works with; there is none when it is disabled. -/
def OutputT.enabledConf (output : OutputT) (channels : UInt32) : Option OutputConf :=
  output.config.filter fun config => config.isEnable && channels != 0

/-- The header of a report, at the start of `message`. -/
def writeHeader (output : OutputT) (reportType : UInt32) (ts : Timeval) (message : List UInt8) :
    Except Stop (Nat × List UInt8) :=
  stringBuilderWithSeparator 0 message maxLengthFullPathFileName (.ofText ",")
    [.int reportType.toUInt64, .int output.probeId.toUInt64, .str output.inputSrc, .time ts]

/-- The body of a report, behind the header. -/
def writeBody (message : List UInt8) (offset : Nat) (body : CString) :
    Except Fault (List UInt8) := do
  let message ← store message offset 44
  let offset := offset + 1
  let len := if body.bytes.length > maxLengthReportMessage - offset
    then maxLengthReportMessage - offset else body.bytes.length
  let message ← storeBytes message offset (body.bytes.take len)
  store message (offset + len) 0

/-- The local arrays at the end of a report, with what was written. -/
structure Report where
  message : List UInt8
  written : Written
  output : OutputT

/-- The last part of `output_write_report`: the message is handed on. -/
def finishReport (output : OutputT) (config : OutputConf) (channels : UInt32) (ts : Timeval)
    (message newMsg : List UInt8) : Except Stop (Option Report) := do
  let written ← (write output config channels message newMsg).mapError .fault
  return some ⟨message, written, { output with lastReportTs := ts }⟩

/-- `output_write_report`; `none` is its result when the output is disabled. -/
def outputWriteReport (output : OutputT) (channels reportType : UInt32) (ts : Timeval)
    (messageBody : Option CString) (message newMsg : ReportArray) :
    Except Stop (Option Report) :=
  match output.enabledConf channels with
  | none => .ok none
  | some config => do
      let (offset, message) ← writeHeader output reportType ts message.val
      let message ← (match messageBody with
        | none => .ok message
        | some body => (writeBody message offset body).mapError .fault :
          Except Stop (List UInt8))
      finishReport output config channels ts message newMsg.val

/-- What `vsnprintf` makes of its format and arguments. -/
inductive Formatted where
  /-- It fails and returns a negative number. -/
  | failed (code : Nat) (fits : code < 2 ^ 31)
  /-- The whole formatted text, of which it returns the length. -/
  | text (bytes : List UInt8) (fits : bytes.length < 2 ^ 31)

/-- The number `vsnprintf` returns. -/
def Formatted.result : Formatted → Int
  | failed code _ => -1 - code
  | text bytes _ => bytes.length

/-- `vsnprintf` into an array of a size: as much of the text as fits, and a NUL. -/
def vsnprintf (formatted : Formatted) (size : Nat) (array : List UInt8) :
    Except Fault (List UInt8) :=
  match formatted with
  | .failed _ _ => .ok array
  | .text bytes _ => storeBytes array 0 (bytes.take (size - 1) ++ [0])

/-- The address of an element that is given by an `int`. -/
def element (offset : Int) : Nat := (offset % 2 ^ 64).toNat

/-- The body `output_write_report_with_format` makes in its own array. -/
def formatBody (formatted : Formatted) (array : List UInt8) : Except Fault CString := do
  let array ← vsnprintf formatted maxLengthReportMessage array
  let array ← store array (element formatted.result) 0
  let body ← loadString array 0
  return .of body

/-- `output_write_report_with_format`; the first of the arrays is its own. -/
def outputWriteReportWithFormat (output : OutputT) (channels reportType : UInt32) (ts : Timeval)
    (format : Option Formatted) (array message newMsg : ReportArray) :
    Except Stop (Option Report) :=
  match output.enabledConf channels with
  | none => .ok none
  | some _ =>
      match format with
      | none => outputWriteReport output channels reportType ts none message newMsg
      | some formatted => do
          let body ← (formatBody formatted array.val).mapError .fault
          outputWriteReport output channels reportType ts (some body) message newMsg

end MmtProbe.Output
