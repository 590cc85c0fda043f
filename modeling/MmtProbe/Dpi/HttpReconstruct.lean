/-
# Reconstruction of files from HTTP

`http_reconstruct.c` saves the body of each HTTP response in a file of its own.  A
request opens an `http_session`, a response opens the file, chunks of data are appended
to it, and when the message ends, or another request comes, or the TCP session is over,
the file is closed, a report is written and the `http_session` is freed.  The handlers
share one pointer, which is in the `packet_session` of the TCP session, and the order in
which they are called is up to the peers.

An `http_session` and a `FILE` are known by their number; using one that is gone stops
the handler with a fault.  The names of the files and the decoding of chunks take no part
in this: they are what a `Reconstruction` says they are, and a decoder that leaves the
packet stops the handler, too.  What the library finds in a packet, whether a file could be
opened and whether it could be unzipped are in the labels.
-/

import MmtProbe.Lib.StringBuilder
import MmtProbe.Math.Decimal
import MmtProbe.Math.Machine

namespace MmtProbe.Dpi

open MmtProbe.Math MmtProbe.Lib

/-! ## What the handlers read and write -/

/-- `CONTENT_ENCODING_*` -/
inductive ContentEncoding where
  | gzip
  | compress
  | deflate
  | identity
  | br
deriving DecidableEq, Repr

/-- `ident_number` -/
def ContentEncoding.identNumber : ContentEncoding → UInt64
  | gzip => 0
  | compress => 1
  | deflate => 2
  | identity => 3
  | br => 4

/-- `TRANSFER_ENCODING_*` -/
inductive TransferEncoding where
  | chunked
  | compress
  | deflate
  | gzip
  | identity
deriving DecidableEq, Repr

/-- `ident_number` -/
def TransferEncoding.identNumber : TransferEncoding → UInt64
  | chunked => 0
  | compress => 1
  | deflate => 2
  | gzip => 3
  | identity => 4

/-- `http_reconstruct_status_t` -/
inductive HttpReconstructStatus where
  | success
  | incompleteChunk
  | fileCorrupted
  | unsupportEncoding
deriving DecidableEq, Repr

def HttpReconstructStatus.number : HttpReconstructStatus → UInt64
  | success => 0
  | incompleteChunk => 1
  | fileCorrupted => 2
  | unsupportEncoding => 3

/-- `struct http_session_struct`. A file is `NULL`, or the number of a `FILE`. -/
structure HttpSession where
  fileName : Option CString
  contentEncoding : Option ContentEncoding
  transferEncoding : Option TransferEncoding
  tcpPortSource : UInt16
  contentLength : UInt32
  currentDataLength : UInt32
  ts : Timeval
  file : Option Nat

/-- `mmt_alloc_and_init_zero` -/
def HttpSession.zero : HttpSession := ⟨none, none, none, 0, 0, 0, ⟨0, 0⟩, none⟩

/-- What a packet tells the handlers of a request and of a response. The header lines of the
content were looked up in their tables. A packet of a TCP session has a source port; the
handler of a response reads it without a check. -/
structure HttpPacket where
  ts : Timeval
  sessionId : Int
  host : Option (List UInt8)
  uri : Option (List UInt8)
  response : List UInt8
  contentLength : UInt32
  fileExtension : CString
  contentEncoding : Option ContentEncoding
  transferEncoding : Option TransferEncoding
  tcpSrcPort : UInt16
  tcpPayload : Option (List UInt8)

/-- The parts of the code on which the life of a session does not depend, as long as they
return. -/
structure Reconstruction where
  /-- The full path that `_create_file` makes of `file_name` and the extension. -/
  fullPath : CString → CString → CString
  /-- The name under which it opens the file, which says how the content is encoded. -/
  openPath : CString → Option ContentEncoding → CString
  /-- `chunk_decode`: the content of the chunks, which is empty when they are not well formed. A
  fault is an access outside of the packet or of the buffer. -/
  chunkDecode : List UInt8 → Except Fault (List UInt8)

/-- What the outside sees. -/
inductive HttpEvent where
  /-- A file was opened for a session. -/
  | opened (session file : Nat) (path : CString)
  | appended (file : Nat) (data : List UInt8)
  | closed (file : Nat)
  /-- A report of type `HTTP_RECONSTRUCT_REPORT_TYPE` was written for a session. -/
  | reported (session : Nat) (ts : Timeval) (message : List Field)

inductive HttpFault where
  /-- A session is used that was freed. -/
  | useAfterFree (session : Nat)
  /-- A file is written or closed that is not open. -/
  | notOpen (file : Nat)
  /-- A string is read that is `NULL`. -/
  | nullName
  /-- The decoder of chunks leaves the packet or its buffer. -/
  | outside (access : Fault)
deriving DecidableEq, Repr

/-- The memory and the files of one TCP session. A cell of the heap is `none` when it was
freed, and a file is open or not. -/
structure HttpWorld where
  heap : List (Option HttpSession)
  files : List Bool
  log : List HttpEvent

inductive HttpPhase where
  | running
  | ended
  | failed (fault : HttpFault)
deriving DecidableEq, Repr

/-- A TCP session: `httpSession` is the pointer in its `packet_session`. -/
structure HttpState where
  world : HttpWorld
  httpSession : Option Nat
  phase : HttpPhase

namespace HttpWorld

def load (world : HttpWorld) (session : Nat) : Except HttpFault HttpSession :=
  match world.heap[session]? with
  | some (some content) => .ok content
  | _ => .error (.useAfterFree session)

def store (world : HttpWorld) (session : Nat) (content : HttpSession) :
    Except HttpFault HttpWorld := do
  let _ ← world.load session
  return { world with heap := world.heap.set session (some content) }

def alloc (world : HttpWorld) (content : HttpSession) : Nat × HttpWorld :=
  (world.heap.length, { world with heap := world.heap ++ [some content] })

def free (world : HttpWorld) (session : Nat) : Except HttpFault HttpWorld := do
  let _ ← world.load session
  return { world with heap := world.heap.set session none }

def fopen (world : HttpWorld) (session : Nat) (path : CString) : Nat × HttpWorld :=
  (world.files.length,
    { world with
      files := world.files ++ [true]
      log := world.log ++ [.opened session world.files.length path] })

def fwrite (world : HttpWorld) (file : Nat) (data : List UInt8) : Except HttpFault HttpWorld :=
  if world.files[file]? = some true then
    .ok { world with log := world.log ++ [.appended file data] }
  else .error (.notOpen file)

def fclose (world : HttpWorld) (file : Nat) : Except HttpFault HttpWorld :=
  if world.files[file]? = some true then
    .ok { world with files := world.files.set file false, log := world.log ++ [.closed file] }
  else .error (.notOpen file)

end HttpWorld

/-! ## The end of a session -/

/-- How the reconstruction went; `unzipped` tells what `zip_decode` returned. -/
def HttpSession.status (content : HttpSession) (unzipped : Bool) : HttpReconstructStatus :=
  if content.currentDataLength = 0 then .incompleteChunk
  else if content.contentLength = 0 ∨ content.currentDataLength = content.contentLength then
    match content.contentEncoding with
    | none => .success
    | some .gzip => if unzipped then .success else .fileCorrupted
    | some _ => .unsupportEncoding
  else .incompleteChunk

/-- The elements of the report. -/
def HttpSession.message (content : HttpSession) (fileName : CString) (unzipped : Bool) :
    List Field :=
  [.int (content.status unzipped).number,
    .int content.contentLength.toUInt64,
    .int content.currentDataLength.toUInt64,
    .int ((content.contentEncoding.map ContentEncoding.identNumber).getD 0),
    .int ((content.transferEncoding.map TransferEncoding.identNumber).getD 0),
    .str fileName]

/-- The report on a file that was closed. -/
def HttpWorld.report (world : HttpWorld) (session : Nat) (content : HttpSession) (unzipped : Bool) :
    Except HttpFault HttpWorld :=
  match content.fileName with
  | none => .error .nullName
  | some fileName =>
      .ok { world with
        log := world.log ++ [.reported session content.ts (content.message fileName unzipped)] }

/-- The first part of `http_reconstruct_flush_session_to_file_and_free`. -/
def HttpWorld.flushToFile (world : HttpWorld) (session : Nat) (content : HttpSession)
    (unzipped : Bool) : Except HttpFault HttpWorld :=
  match content.file with
  | none => .ok world
  | some file => do
      let world ← world.fclose file
      world.report session content unzipped

/-- `http_reconstruct_flush_session_to_file_and_free` -/
def httpReconstructFlushSessionToFileAndFree (world : HttpWorld) (session : Option Nat)
    (unzipped : Bool) : Except HttpFault HttpWorld :=
  match session with
  | none => .ok world
  | some session => do
      let content ← world.load session
      let world ← world.flushToFile session content unzipped
      world.free session

/-! ## The handlers -/

/-- One character of `string_format_file_name`. -/
def formatByte (byte : UInt8) : UInt8 :=
  if byte ∈ bytesOf "/\\" then 61 else if byte ∈ bytesOf "=;?*&:|\"%>< " then 95 else byte

/-- `string_format_file_name` -/
def stringFormatFileName (bytes : List UInt8) : List UInt8 := (cstring bytes).map formatByte

/-- A part of a name, when there is one. -/
def namePart (bytes : Option (List UInt8)) (cut : List UInt8 → List UInt8) : List UInt8 :=
  match bytes with
  | none => []
  | some [] => []
  | some bytes => 45 :: stringFormatFileName (cut bytes)

/-- The name of the file of a request: the number of the session, the first 50 characters of
the host and the last 100 of the URI. -/
def requestName (packet : HttpPacket) : CString :=
  .of (decimal (UInt64.ofInt packet.sessionId).toNat ++ namePart packet.host (·.take 50) ++
    namePart packet.uri fun uri => uri.drop (uri.length - 100))

/-- `_http_method_handle` -/
def httpMethodHandle (state : HttpState) (packet : HttpPacket) (unzipped : Bool) :
    Except HttpFault HttpState := do
  let world ← httpReconstructFlushSessionToFileAndFree state.world state.httpSession unzipped
  let (session, world) := world.alloc { HttpSession.zero with ts := packet.ts }
  let content ← world.load session
  let world ← world.store session { content with fileName := some (requestName packet) }
  return { state with world := world, httpSession := some session }

/-- `strncmp` of a header line with a string literal, up to the length of the line. -/
def sameChars : List UInt8 → List UInt8 → Bool
  | [], _ => true
  | byte :: line, other :: literal => byte == other && (byte == 0 || sameChars line literal)
  | byte :: _, [] => byte == 0

/-- `_append_data` -/
def appendData (world : HttpWorld) (session : Nat) (data : List UInt8) :
    Except HttpFault HttpWorld := do
  let content ← world.load session
  match content.file with
  | none => return world
  | some file =>
      let world ← world.fwrite file data
      world.store session
        { content with currentDataLength := content.currentDataLength + UInt32.ofNat data.length }

/-- `_create_file`: the session with its new name, and with the file if it could be opened. -/
def createFile (code : Reconstruction) (world : HttpWorld) (session : Nat)
    (fileExtension : CString) (opens : Bool) : Except HttpFault HttpWorld := do
  let content ← world.load session
  match content.fileName with
  | none => .error .nullName
  | some fileName =>
      let path := code.fullPath fileName fileExtension
      let content := { content with fileName := some path }
      if opens then
        let (file, world) := world.fopen session (code.openPath path content.contentEncoding)
        world.store session { content with file := some file }
      else world.store session { content with file := none }

/-- Where the header of a response ends: behind the first CR that follows an LF. -/
def bodyStart (payload : List UInt8) : Nat :=
  ((List.range' 3 (payload.length - 3)).find? fun i =>
    payload[i]? == some 13 && payload[i - 1]? == some 10).getD (max 3 payload.length) + 2

/-- What the packet of a response has of the body. -/
def firstChunk (code : Reconstruction) (payload : Option (List UInt8))
    (transferEncoding : Option TransferEncoding) : Except Fault (Option (List UInt8)) :=
  match payload with
  | none => .ok none
  | some payload =>
      if payload.length ≤ bodyStart payload then .ok none
      else
        let data := payload.drop (bodyStart payload)
        if transferEncoding = some .chunked then do
          let decoded ← code.chunkDecode data
          return some (if decoded = [] then data else decoded)
        else .ok (some data)

/-- The last part of `_http_response_handle`: the file is there. -/
def startFile (code : Reconstruction) (world : HttpWorld) (session : Nat) (packet : HttpPacket) :
    Except HttpFault HttpWorld := do
  let content ← world.load session
  match content.file with
  | none => return world
  | some _ =>
      let world ← world.store session { content with tcpPortSource := packet.tcpSrcPort }
      let part ← (firstChunk code packet.tcpPayload content.transferEncoding).mapError .outside
      match part with
      | none => return world
      | some data => appendData world session data

/-- `_http_response_handle`. The pointer `session` was read before `_http_method_handle` is
called, which frees what it points to. -/
def httpResponseHandle (code : Reconstruction) (state : HttpState) (packet : HttpPacket)
    (opens unzipped : Bool) : Except HttpFault HttpState :=
  if sameChars packet.response (bytesOf "200 OK") = false then .ok state
  else
    match state.httpSession with
    | none => .ok state
    | some session => do
        let content ← state.world.load session
        if content.file.isSome then return state
        else
          let state ← (if content.fileName.isNone then httpMethodHandle state packet unzipped
            else .ok state)
          let content ← state.world.load session
          let world ← state.world.store session
            { content with
              contentEncoding := packet.contentEncoding
              contentLength := packet.contentLength
              transferEncoding := packet.transferEncoding }
          let world ← createFile code world session packet.fileExtension opens
          let world ← startFile code world session packet
          return { state with world := world }

/-- `_http_data_handle` -/
def httpDataHandle (state : HttpState) (srcPort : Option UInt16) (data : List UInt8) :
    Except HttpFault HttpState :=
  match state.httpSession with
  | none => .ok state
  | some session => do
      let content ← state.world.load session
      if content.file.isNone then return state
      else if srcPort ≠ some content.tcpPortSource then return state
      else
        let world ← appendData state.world session data
        return { state with world := world }

/-- `_http_end_message_handle` -/
def httpEndMessageHandle (state : HttpState) (unzipped : Bool) : Except HttpFault HttpState :=
  match state.httpSession with
  | none => .ok state
  | some session => do
      let content ← state.world.load session
      if content.file.isNone then return state
      else
        let world ← httpReconstructFlushSessionToFileAndFree state.world (some session) unzipped
        return { state with world := world, httpSession := none }

/-- What `_ending_session_handler` does about HTTP. -/
def endingSessionHandler (state : HttpState) (unzipped : Bool) : Except HttpFault HttpState := do
  let world ← httpReconstructFlushSessionToFileAndFree state.world state.httpSession unzipped
  return { state with world := world, httpSession := none }

/-! ## The machine -/

/-- What happens next in a TCP session. -/
inductive HttpAct where
  | method (packet : HttpPacket) (unzipped : Bool)
  | response (packet : HttpPacket) (opens unzipped : Bool)
  | data (srcPort : Option UInt16) (data : List UInt8)
  | messageEnd (unzipped : Bool)
  | ending (unzipped : Bool)

/-- The handler that is called. -/
def httpHandle (code : Reconstruction) (state : HttpState) : HttpAct → Except HttpFault HttpState
  | .method packet unzipped => httpMethodHandle state packet unzipped
  | .response packet opens unzipped => httpResponseHandle code state packet opens unzipped
  | .data srcPort data => httpDataHandle state srcPort data
  | .messageEnd unzipped => httpEndMessageHandle state unzipped
  | .ending unzipped => endingSessionHandler state unzipped

/-- What a TCP session is in when a handler has returned: over, when it was told its end. -/
def HttpAct.phase : HttpAct → HttpPhase
  | .ending _ => .ended
  | .method _ _ | .response _ _ _ | .data _ _ | .messageEnd _ => .running

/-- One call of a handler, until the session ends or a handler fails. -/
def httpStep (code : Reconstruction) (state : HttpState) (act : HttpAct) : Option HttpState :=
  if state.phase = .running then
    match httpHandle code state act with
    | .ok target => some { target with phase := act.phase }
    | .error fault => some { state with phase := .failed fault }
  else none

/-- A TCP session before its first packet. -/
def freshHttp : HttpState := ⟨⟨[], [], []⟩, none, .running⟩

def httpMachine (code : Reconstruction) : Machine HttpState HttpAct where
  init state := state = freshHttp
  step := httpStep code

end MmtProbe.Dpi
