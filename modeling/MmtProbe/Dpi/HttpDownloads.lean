/-
# Downloads

What the reconstruction of files is for, without memory, pointers and files.  A request
gives a name, a response starts a download under that name, and a download gets the bytes
of its body, one piece after the other, until the message ends, or another request comes,
or the TCP session is over.

The handlers do this and nothing else, unless the decoder of chunks leaves the packet of a
response, which is the end of the run.  Each file has the bytes of its download and nothing
of another one, and the reports are those of the downloads that were finished, in their
order.  A body that comes in segments is in the file, from its first to its last byte.
-/

import MmtProbe.Dpi.FirstSegment
import MmtProbe.Dpi.OutputDirectory

namespace MmtProbe.Dpi

open MmtProbe.Math MmtProbe.Lib

/-! ## What it is for -/

/-- A body that is saved. -/
structure Download where
  /-- The name in the report. -/
  name : CString
  /-- The name of the file. -/
  path : CString
  port : UInt16
  ts : Timeval
  contentLength : UInt32
  contentEncoding : Option ContentEncoding
  transferEncoding : Option TransferEncoding
  content : List UInt8

/-- What a TCP session is at. -/
inductive Progress where
  | nothing
  /-- There was a request, and no response that could be saved. -/
  | requested (name : CString) (ts : Timeval)
  | loading (download : Download)

/-- The downloads of a TCP session, each finished one with what `zip_decode` returned. -/
structure Downloads where
  finished : List (Download × Bool)
  progress : Progress
  ended : Bool

namespace Downloads

/-- Before the first packet. -/
def fresh : Downloads := ⟨[], .nothing, false⟩

def current (downloads : Downloads) : Option Download :=
  match downloads.progress with
  | .loading download => some download
  | .nothing | .requested _ _ => none

/-- What was requested is forgotten, and the current download is finished. -/
def finish (downloads : Downloads) (unzipped : Bool) : Downloads :=
  { downloads with
    finished := downloads.finished ++
      downloads.current.toList.map fun download => (download, unzipped)
    progress := .nothing }

/-- What a download has of its body at first. -/
def firstPart (code : Reconstruction) (packet : HttpPacket) : List UInt8 :=
  match firstChunk code packet.tcpPayload packet.transferEncoding with
  | .ok (some data) => data
  | _ => []

/-- The download that a response starts. -/
def begins (code : Reconstruction) (packet : HttpPacket) (name : CString) (ts : Timeval) :
    Download where
  name := code.fullPath name packet.fileExtension
  path := code.openPath (code.fullPath name packet.fileExtension) packet.contentEncoding
  port := packet.tcpSrcPort
  ts := ts
  contentLength := packet.contentLength
  contentEncoding := packet.contentEncoding
  transferEncoding := packet.transferEncoding
  content := firstPart code packet

/-- What a call changes. -/
def next (code : Reconstruction) (downloads : Downloads) : HttpAct → Downloads
  | .method packet unzipped =>
      { downloads.finish unzipped with progress := .requested (requestName packet) packet.ts }
  | .response packet opens _ =>
      match downloads.progress with
      | .requested name ts =>
          if sameChars packet.response (bytesOf "200 OK") = false then downloads
          else if opens then
            { downloads with progress := .loading (begins code packet name ts) }
          else
            { downloads with
              progress := .requested (code.fullPath name packet.fileExtension) ts }
      | .nothing | .loading _ => downloads
  | .data srcPort data =>
      match downloads.progress with
      | .loading download =>
          if srcPort = some download.port then
            { downloads with
              progress := .loading { download with content := download.content ++ data } }
          else downloads
      | .nothing | .requested _ _ => downloads
  | .messageEnd unzipped =>
      match downloads.progress with
      | .loading _ => downloads.finish unzipped
      | .nothing | .requested _ _ => downloads
  | .ending unzipped => { downloads.finish unzipped with ended := true }

/-- All downloads, in the order in which they were started. -/
def all (downloads : Downloads) : List Download :=
  downloads.finished.map Prod.fst ++ downloads.current.toList

end Downloads

/-! ## What is wanted -/

/-- The name under which a file is opened. -/
def HttpEvent.path? : HttpEvent → Option CString
  | opened _ _ path => some path
  | _ => none

/-- What is appended to a file. -/
def HttpEvent.data? (file : Nat) : HttpEvent → Option (List UInt8)
  | appended other data => if other = file then some data else none
  | _ => none

/-- The time and the elements of a report. -/
def HttpEvent.line? : HttpEvent → Option (Timeval × List Field)
  | reported _ ts message => some (ts, message)
  | _ => none

/-- The bytes of a file. -/
def contentOf (log : List HttpEvent) (file : Nat) : List UInt8 :=
  (log.filterMap (HttpEvent.data? file)).flatten

/-- The `http_session` of a download. -/
def Download.session (download : Download) (file : Nat) : HttpSession where
  fileName := some download.name
  contentEncoding := download.contentEncoding
  transferEncoding := download.transferEncoding
  tcpPortSource := download.port
  contentLength := download.contentLength
  currentDataLength := UInt32.ofNat download.content.length
  ts := download.ts
  file := some file

/-- The elements of the report on a download. -/
def Download.message (download : Download) (unzipped : Bool) : List Field :=
  (download.session 0).message download.name unzipped

/-- The files and the log show some downloads: a file for each, of which the last one is open if
it is not finished, and a report for each that is finished. -/
structure Shown (files : List Bool) (log : List HttpEvent) (downloads : Downloads) : Prop where
  files : files = downloads.finished.map (fun _ => false) ++
    downloads.current.toList.map fun _ => true
  paths : log.filterMap HttpEvent.path? = downloads.all.map Download.path
  contents : ∀ file, contentOf log file = (downloads.all[file]?.map Download.content).getD []
  lines : log.filterMap HttpEvent.line? =
    downloads.finished.map fun finished => (finished.1.ts, finished.1.message finished.2)

/-! ## Files and log -/

variable {files : List Bool} {log : List HttpEvent} {downloads : Downloads} {file : Nat}

theorem Downloads.finish_of_loading {download : Download}
    (loading : downloads.progress = .loading download) (unzipped : Bool) :
    downloads.finish unzipped =
      ⟨downloads.finished ++ [(download, unzipped)], .nothing, downloads.ended⟩ := by
  rw [Downloads.finish, Downloads.current, loading]
  rfl

theorem Downloads.finish_of_idle (idle : downloads.current = none) (unzipped : Bool) :
    downloads.finish unzipped = ⟨downloads.finished, .nothing, downloads.ended⟩ := by
  rw [Downloads.finish, idle]
  simp

theorem contentOf_concat (log : List HttpEvent) (event : HttpEvent) (file : Nat) :
    contentOf (log ++ [event]) file = contentOf log file ++ (event.data? file).getD [] := by
  rw [contentOf, filterMap_concat, List.flatten_append, ← contentOf]
  cases event.data? file <;> simp

/-- Only the finished downloads and the current one show. -/
theorem Shown.congr (shown : Shown files log downloads) {target : Downloads}
    (sameFinished : target.finished = downloads.finished)
    (sameCurrent : target.current = downloads.current) : Shown files log target := by
  have hall : target.all = downloads.all := by
    rw [Downloads.all, Downloads.all, sameFinished, sameCurrent]
  constructor
  · rw [sameFinished, sameCurrent]
    exact shown.files
  · rw [hall]
    exact shown.paths
  · rw [hall]
    exact shown.contents
  · rw [sameFinished]
    exact shown.lines

/-- A file is opened for an empty download. -/
theorem Shown.fopen (shown : Shown files log downloads) (idle : downloads.current = none)
    (session : Nat) {download : Download} (noContent : download.content = []) :
    Shown (files ++ [true]) (log ++ [.opened session files.length download.path])
      { downloads with progress := .loading download } := by
  have hall : downloads.all = downloads.finished.map Prod.fst := by
    rw [Downloads.all, idle]
    exact List.append_nil _
  constructor
  · rw [shown.files, idle]
    simp [Downloads.current]
  · rw [filterMap_concat, shown.paths, hall]
    simp [Downloads.all, Downloads.current, HttpEvent.path?]
  · intro file
    rw [contentOf_concat, shown.contents, hall]
    simp only [HttpEvent.data?, Option.getD_none, List.append_nil]
    -- nothing was appended yet to the file of the new download
    rcases Nat.lt_or_ge file downloads.finished.length with hbefore | hbehind
    · simp [Downloads.all, List.getElem?_append_left, hbefore]
    · rw [List.getElem?_eq_none (by simpa using hbehind)]
      simp only [Downloads.all, Downloads.current, Option.toList_some]
      rw [List.getElem?_append_right (by simpa using hbehind)]
      cases file - (downloads.finished.map Prod.fst).length with
      | zero => simp [noContent]
      | succ left => simp
  · rw [filterMap_concat, shown.lines]
    simp [HttpEvent.line?]

/-- The current download gets some bytes. -/
theorem Shown.fwrite {download : Download} (loading : downloads.progress = .loading download)
    (shown : Shown files log downloads) (data : List UInt8) :
    Shown files (log ++ [.appended downloads.finished.length data])
      { downloads with
        progress := .loading { download with content := download.content ++ data } } := by
  have hcurrent : downloads.current = some download := by rw [Downloads.current, loading]
  have hall : downloads.all = downloads.finished.map Prod.fst ++ [download] := by
    rw [Downloads.all, hcurrent]
    rfl
  constructor
  · rw [shown.files, hcurrent]
    simp [Downloads.current]
  · rw [filterMap_concat, shown.paths, hall]
    simp [Downloads.all, Downloads.current, HttpEvent.path?]
  · intro file
    rw [contentOf_concat, shown.contents, hall]
    simp only [HttpEvent.data?, Downloads.all, Downloads.current, Option.toList_some]
    rcases Nat.lt_trichotomy file downloads.finished.length with hbefore | rfl | hbehind
    · rw [if_neg (Nat.ne_of_gt hbefore)]
      simp [List.getElem?_append_left, hbefore]
    · simp
    · rw [if_neg (Nat.ne_of_lt hbehind), List.getElem?_eq_none, List.getElem?_eq_none]
      · rfl
      · simpa using Nat.succ_le_of_lt hbehind
      · simpa using Nat.succ_le_of_lt hbehind
  · rw [filterMap_concat, shown.lines]
    simp [HttpEvent.line?]

/-- The current download is finished: its file is closed, and it is reported. -/
theorem Shown.finish {download : Download} (loading : downloads.progress = .loading download)
    (shown : Shown files log downloads) (session : Nat) (unzipped : Bool) :
    Shown (files.set downloads.finished.length false)
      (log ++ [.closed downloads.finished.length] ++
        [.reported session download.ts (download.message unzipped)])
      (downloads.finish unzipped) := by
  have hcurrent : downloads.current = some download := by rw [Downloads.current, loading]
  rw [Downloads.finish_of_loading loading]
  have hall : Downloads.all ⟨downloads.finished ++ [(download, unzipped)], .nothing,
      downloads.ended⟩ = downloads.all := by
    rw [Downloads.all, Downloads.all, hcurrent]
    simp [Downloads.current]
  constructor
  · rw [shown.files, hcurrent]
    simp [Downloads.current]
  · rw [filterMap_concat, filterMap_concat, shown.paths, hall]
    simp [HttpEvent.path?]
  · intro file
    rw [contentOf_concat, contentOf_concat, shown.contents, hall]
    simp [HttpEvent.data?]
  · rw [filterMap_concat, filterMap_concat, shown.lines]
    simp [HttpEvent.line?]

/-! ## The handlers -/

/-- What is in memory for what a TCP session is at. -/
inductive Held (heap : List (Option HttpSession)) (file : Nat) : Option Nat → Progress → Prop
  | nothing : Held heap file none .nothing
  | requested {session : Nat} {content : HttpSession} {name : CString} {ts : Timeval}
      (live : heap[session]? = some (some content)) (named : content.fileName = some name)
      (dated : content.ts = ts) (noFile : content.file = none)
      (noData : content.currentDataLength = 0) : Held heap file (some session) (.requested name ts)
  | loading {session : Nat} {download : Download}
      (live : heap[session]? = some (some (download.session file))) :
      Held heap file (some session) (.loading download)

/-- A TCP session is where its downloads are. -/
structure Mirrors (state : HttpState) (downloads : Downloads) : Prop where
  phase : state.phase = if downloads.ended then .ended else .running
  held : Held state.world.heap downloads.finished.length state.httpSession downloads.progress
  shown : Shown state.world.files state.world.log downloads

variable {world : HttpWorld} {heap : List (Option HttpSession)} {session : Nat}
  {content : HttpSession} {state : HttpState}

theorem load_of_live (live : heap[session]? = some (some content)) :
    HttpWorld.load ⟨heap, files, log⟩ session = .ok content := by
  rw [HttpWorld.load, live]

theorem store_of_live (live : heap[session]? = some (some content)) (changed : HttpSession) :
    HttpWorld.store ⟨heap, files, log⟩ session changed =
      .ok ⟨heap.set session (some changed), files, log⟩ := by
  rw [HttpWorld.store, load_of_live live]
  rfl

theorem live_set (live : heap[session]? = some (some content)) (changed : HttpSession) :
    (heap.set session (some changed))[session]? = some (some changed) :=
  List.getElem?_set_self (List.getElem?_eq_some_iff.mp live).1

/-- The file of the current download is open. -/
theorem Shown.isOpen {download : Download} (loading : downloads.progress = .loading download)
    (shown : Shown files log downloads) : files[downloads.finished.length]? = some true := by
  rw [shown.files, Downloads.current, loading]
  simp

/-- What a flush leaves of the files and the log. -/
theorem Held.flush {current : Option Nat}
    (held : Held world.heap downloads.finished.length current downloads.progress)
    (shown : Shown world.files world.log downloads) (unzipped : Bool) :
    ∃ target, httpReconstructFlushSessionToFileAndFree world current unzipped = .ok target ∧
      Shown target.files target.log (downloads.finish unzipped) := by
  generalize hprogress : downloads.progress = progress at held
  cases held with
  | nothing =>
      have hidle : downloads.current = none := by rw [Downloads.current, hprogress]
      refine ⟨world, rfl, ?_⟩
      rw [Downloads.finish_of_idle hidle]
      exact shown.congr rfl hidle.symm
  | @requested session content name ts live named dated noFile noData =>
      have hidle : downloads.current = none := by rw [Downloads.current, hprogress]
      refine ⟨{ world with heap := world.heap.set session none }, ?_, ?_⟩
      · simp only [httpReconstructFlushSessionToFileAndFree, load_of_live live, bind_ok,
          HttpWorld.flushToFile, noFile, HttpWorld.free]
        rfl
      · rw [Downloads.finish_of_idle hidle]
        exact shown.congr rfl hidle.symm
  | @loading session download live =>
      have hopen := shown.isOpen hprogress
      refine ⟨⟨world.heap.set session none, world.files.set downloads.finished.length false,
        world.log ++ [.closed downloads.finished.length] ++
          [.reported session download.ts (download.message unzipped)]⟩, ?_,
        shown.finish hprogress session unzipped⟩
      simp only [httpReconstructFlushSessionToFileAndFree, load_of_live live, bind_ok,
        HttpWorld.flushToFile, Download.session, HttpWorld.fclose, if_pos hopen, HttpWorld.report,
        HttpWorld.free]
      rfl

/-- A request. -/
theorem Mirrors.method (mirrors : Mirrors state downloads) (packet : HttpPacket)
    (unzipped : Bool) : ∃ target, httpMethodHandle state packet unzipped = .ok target ∧
      Mirrors target { downloads.finish unzipped with
        progress := .requested (requestName packet) packet.ts } := by
  rcases mirrors.held.flush mirrors.shown unzipped with ⟨world, hflush, hshown⟩
  have hlive : (world.heap ++ [some { HttpSession.zero with ts := packet.ts }])[world.heap.length]?
      = some (some { HttpSession.zero with ts := packet.ts }) := by simp
  refine ⟨{ state with
    world := { world with
      heap := (world.heap ++ [some { HttpSession.zero with ts := packet.ts }]).set
        world.heap.length (some { HttpSession.zero with
          ts := packet.ts
          fileName := some (requestName packet) }) }
    httpSession := some world.heap.length }, ?_, ?_⟩
  · rw [httpMethodHandle, hflush, bind_ok]
    simp only [HttpWorld.alloc]
    rw [load_of_live hlive, bind_ok, store_of_live hlive]
    rfl
  · constructor
    · exact mirrors.phase
    · exact .requested (live_set hlive _) rfl rfl rfl rfl
    · exact hshown.congr rfl rfl

theorem createFile_of_live (code : Reconstruction) {name : CString}
    (live : heap[session]? = some (some content)) (named : content.fileName = some name)
    (fileExtension : CString) (opens : Bool) :
    createFile code ⟨heap, files, log⟩ session fileExtension opens =
      .ok (if opens then
        { heap := heap.set session (some { content with
            fileName := some (code.fullPath name fileExtension)
            file := some files.length })
          files := files ++ [true]
          log := log ++ [.opened session files.length
            (code.openPath (code.fullPath name fileExtension) content.contentEncoding)] }
      else
        { heap := heap.set session (some { content with
            fileName := some (code.fullPath name fileExtension)
            file := none })
          files := files
          log := log }) := by
  rw [createFile, load_of_live live, bind_ok, named]
  cases opens <;> exact store_of_live live _

theorem appendData_of_live (live : heap[session]? = some (some content))
    (hasFile : content.file = some file) (isOpen : files[file]? = some true)
    (data : List UInt8) : appendData ⟨heap, files, log⟩ session data =
      .ok { heap := heap.set session (some { content with
              currentDataLength := content.currentDataLength + UInt32.ofNat data.length })
            files := files
            log := log ++ [.appended file data] } := by
  rw [appendData, load_of_live live, bind_ok, hasFile]
  dsimp only
  rw [HttpWorld.fwrite, if_pos isOpen, bind_ok]
  exact store_of_live live _

/-- The download that gets some bytes is the one in memory. -/
theorem session_append (download : Download) (data : List UInt8) :
    { download.session file with
      currentDataLength := (download.session file).currentDataLength +
        UInt32.ofNat data.length } =
      Download.session { download with content := download.content ++ data } file := by
  rw [Download.session, Download.session, List.length_append, UInt32.ofNat_add]

/-- Bytes are appended to the file of the current download. -/
theorem Mirrors.append (mirrors : Mirrors state downloads) {download : Download}
    (holds : state.httpSession = some session)
    (loading : downloads.progress = .loading download) (data : List UInt8) :
    ∃ target, appendData state.world session data = .ok target ∧
      Mirrors { state with world := target } { downloads with
        progress := .loading { download with content := download.content ++ data } } := by
  have hheld := mirrors.held
  rw [holds, loading] at hheld
  cases hheld with
  | loading live =>
      refine ⟨_, appendData_of_live live rfl (mirrors.shown.isOpen loading) data,
        mirrors.phase, ?_, mirrors.shown.fwrite loading data⟩
      rw [holds]
      refine .loading ?_
      rw [← session_append]
      exact live_set live _

/-- Data of the body. -/
theorem Mirrors.data (mirrors : Mirrors state downloads) (code : Reconstruction)
    (srcPort : Option UInt16) (data : List UInt8) :
    ∃ target, httpDataHandle state srcPort data = .ok target ∧
      Mirrors target (downloads.next code (.data srcPort data)) := by
  rw [httpDataHandle, Downloads.next]
  have hheld := mirrors.held
  generalize hprogress : downloads.progress = progress at hheld
  generalize hsession : state.httpSession = current at hheld
  cases hheld with
  | nothing => exact ⟨state, rfl, mirrors⟩
  | @requested session content name ts live named dated noFile noData =>
      refine ⟨state, ?_, mirrors⟩
      dsimp only
      rw [load_of_live live, bind_ok, noFile]
      rfl
  | @loading session download live =>
      dsimp only
      have hport : (download.session downloads.finished.length).tcpPortSource = download.port := rfl
      rw [load_of_live live, bind_ok, if_neg (by simp [Download.session]), hport]
      by_cases hserver : srcPort = some download.port
      · rcases mirrors.append hsession hprogress data with ⟨world, happend, hmirrors⟩
        rw [if_neg (not_not_intro hserver), if_pos hserver, happend]
        refine ⟨_, rfl, ?_⟩
        rw [← hsession]
        exact hmirrors
      · rw [if_pos hserver, if_neg hserver]
        exact ⟨state, rfl, mirrors⟩

/-- The end of a message. -/
theorem Mirrors.messageEnd (mirrors : Mirrors state downloads) (code : Reconstruction)
    (unzipped : Bool) : ∃ target, httpEndMessageHandle state unzipped = .ok target ∧
      Mirrors target (downloads.next code (.messageEnd unzipped)) := by
  rw [httpEndMessageHandle, Downloads.next]
  have hheld := mirrors.held
  rcases mirrors.held.flush mirrors.shown unzipped with ⟨world, hflush, hshown⟩
  generalize hprogress : downloads.progress = progress at hheld
  generalize hsession : state.httpSession = current at hheld
  cases hheld with
  | nothing => exact ⟨state, rfl, mirrors⟩
  | @requested session content name ts live named dated noFile noData =>
      refine ⟨state, ?_, mirrors⟩
      dsimp only
      rw [load_of_live live, bind_ok, noFile]
      rfl
  | @loading session download live =>
      refine ⟨{ state with world := world, httpSession := none }, ?_, mirrors.phase, .nothing,
        hshown⟩
      dsimp only
      rw [load_of_live live, bind_ok, ← hsession, hflush]
      rfl

/-- The file of an empty download is opened. -/
theorem Mirrors.start (mirrors : Mirrors state downloads) (holds : state.httpSession = some session)
    (inside : session < state.world.heap.length) (idle : downloads.current = none)
    {download : Download} (noContent : download.content = []) :
    Mirrors { state with
      world := {
        heap := state.world.heap.set session (some (download.session downloads.finished.length))
        files := state.world.files ++ [true]
        log := state.world.log ++ [.opened session state.world.files.length download.path] } }
      { downloads with progress := .loading download } where
  phase := mirrors.phase
  held := by
    rw [holds]
    exact .loading (List.getElem?_set_self inside)
  shown := mirrors.shown.fopen idle session noContent

theorem startFile_of_none (code : Reconstruction) (packet : HttpPacket)
    (live : heap[session]? = some (some content)) (noFile : content.file = none) :
    startFile code ⟨heap, files, log⟩ session packet = .ok ⟨heap, files, log⟩ := by
  rw [startFile, load_of_live live, bind_ok, noFile]
  rfl

/-- The decoder of chunks leaves the packet of a response. -/
def Strays (code : Reconstruction) (packet : HttpPacket) (access : Fault) : Prop :=
  firstChunk code packet.tcpPayload packet.transferEncoding = .error access

/-- A response to a request, whose file can be opened. -/
theorem Mirrors.begin (mirrors : Mirrors state downloads) (code : Reconstruction)
    (packet : HttpPacket) {name : CString} (holds : state.httpSession = some session)
    (requested : downloads.progress = .requested name content.ts)
    (live : state.world.heap[session]? = some (some content))
    (noData : content.currentDataLength = 0) :
    let started := startFile code
        { heap := state.world.heap.set session (some { content with
            fileName := some (code.fullPath name packet.fileExtension)
            contentEncoding := packet.contentEncoding
            contentLength := packet.contentLength
            transferEncoding := packet.transferEncoding
            file := some state.world.files.length })
          files := state.world.files ++ [true]
          log := state.world.log ++ [.opened session state.world.files.length
            (code.openPath (code.fullPath name packet.fileExtension) packet.contentEncoding)] }
        session packet
    (∃ access, Strays code packet access ∧ started = .error (.outside access)) ∨
      ∃ target, started = .ok target ∧
        Mirrors { state with world := target } { downloads with
          progress := .loading (Downloads.begins code packet name content.ts) } := by
  intro started
  have hinside : session < state.world.heap.length := (List.getElem?_eq_some_iff.mp live).1
  have hidle : downloads.current = none := by rw [Downloads.current, requested]
  have hcount : state.world.files.length = downloads.finished.length := by
    rw [mirrors.shown.files, hidle]
    simp
  -- the port is stored, and nothing of the body yet
  have hstart := mirrors.start holds hinside hidle
    (show { Downloads.begins code packet name content.ts with content := [] }.content = [] from rfl)
  have hstarted : started = startFile code _ session packet := rfl
  rw [hstarted, startFile, load_of_live (live_set live _), bind_ok]
  dsimp only
  rw [store_of_live (live_set live _), bind_ok, List.set_set]
  simp only [hcount, noData] at hstart ⊢
  cases hchunk : firstChunk code packet.tcpPayload packet.transferEncoding with
  | error access => exact .inl ⟨access, hchunk, rfl⟩
  | ok part =>
      right
      cases part with
      | none =>
          have hbegins : { Downloads.begins code packet name content.ts with content := [] } =
              Downloads.begins code packet name content.ts := by
            rw [Downloads.begins, Downloads.firstPart, hchunk]
          refine ⟨_, rfl, ?_⟩
          rw [← hbegins]
          exact hstart
      | some data =>
          have hbegins :
              { Downloads.begins code packet name content.ts with content := [] ++ data } =
                Downloads.begins code packet name content.ts := by
            rw [Downloads.begins, Downloads.firstPart, hchunk]
            rfl
          rcases hstart.append holds rfl data with ⟨target, happend, hmirrors⟩
          refine ⟨target, happend, ?_⟩
          rw [← hbegins]
          exact hmirrors

/-- A response. -/
theorem Mirrors.response (mirrors : Mirrors state downloads) (code : Reconstruction)
    (packet : HttpPacket) (opens unzipped : Bool) :
    (∃ access, Strays code packet access ∧
        httpResponseHandle code state packet opens unzipped = .error (.outside access)) ∨
      ∃ target, httpResponseHandle code state packet opens unzipped = .ok target ∧
        Mirrors target (downloads.next code (.response packet opens unzipped)) := by
  rw [httpResponseHandle, Downloads.next]
  by_cases hrefused : sameChars packet.response (bytesOf "200 OK") = false
  · refine .inr ⟨state, if_pos hrefused, ?_⟩
    simp only [if_pos hrefused]
    cases downloads.progress <;> exact mirrors
  · rw [if_neg hrefused]
    have hheld := mirrors.held
    generalize hprogress : downloads.progress = progress at hheld
    generalize hsession : state.httpSession = current at hheld
    cases hheld with
    | nothing => exact .inr ⟨state, rfl, mirrors⟩
    | @loading session download live =>
        refine .inr ⟨state, ?_, mirrors⟩
        dsimp only
        rw [load_of_live live, bind_ok]
        rfl
    | @requested session content name ts live named dated noFile noData =>
        dsimp only
        have hanswered := live_set live { content with
          contentEncoding := packet.contentEncoding
          contentLength := packet.contentLength
          transferEncoding := packet.transferEncoding }
        rw [load_of_live live, bind_ok, if_neg (by simp [noFile]), if_neg hrefused, named,
          if_neg (by simp), bind_ok, load_of_live live, bind_ok, store_of_live live, bind_ok,
          createFile_of_live code hanswered named, bind_ok]
        cases opens with
        | true =>
            rw [← dated] at hprogress ⊢
            simp only [if_true, List.set_set]
            rcases mirrors.begin code packet hsession hprogress live noData with
              ⟨access, hstrays, hstart⟩ | ⟨target, hstart, hmirrors⟩
            · refine .inl ⟨access, hstrays, ?_⟩
              rw [hstart]
              rfl
            · exact .inr ⟨_, bind_eq_ok_iff.mpr ⟨target, hstart, rfl⟩, hmirrors⟩
        | false =>
            simp only [Bool.false_eq_true, if_false, List.set_set]
            refine .inr ⟨_, bind_eq_ok_iff.mpr
              ⟨_, startFile_of_none code packet (live_set live _) rfl, rfl⟩, mirrors.phase, ?_, ?_⟩
            · rw [hsession]
              exact .requested (live_set live _) rfl dated rfl noData
            · refine mirrors.shown.congr rfl ?_
              simp only [Downloads.current, hprogress]

/-- The end of the TCP session. -/
theorem Mirrors.ending (mirrors : Mirrors state downloads) (code : Reconstruction)
    (unzipped : Bool) : ∃ target, endingSessionHandler state unzipped = .ok target ∧
      Mirrors { target with phase := .ended } (downloads.next code (.ending unzipped)) := by
  rcases mirrors.held.flush mirrors.shown unzipped with ⟨world, hflush, hshown⟩
  refine ⟨{ state with world := world, httpSession := none }, ?_, rfl, .nothing,
    hshown.congr rfl rfl⟩
  rw [endingSessionHandler, hflush]
  rfl

/-- Only the end of the TCP session ends its downloads. -/
theorem Downloads.next_ended (code : Reconstruction) (downloads : Downloads) {act : HttpAct}
    (stays : ∀ unzipped, act ≠ .ending unzipped) :
    (downloads.next code act).ended = downloads.ended := by
  cases act with
  | method => rfl
  | response =>
      rw [Downloads.next]
      split <;> [split_ifs <;> rfl; rfl; rfl]
  | data =>
      rw [Downloads.next]
      split <;> [split_ifs <;> rfl; rfl; rfl]
  | messageEnd =>
      rw [Downloads.next]
      split <;> rfl
  | ending unzipped => exact absurd rfl (stays unzipped)

/-- The decoder of chunks leaves the packet of a response with which a handler is called. -/
def HttpAct.Strays (code : Reconstruction) (access : Fault) : HttpAct → Prop
  | .response packet _ _ => Dpi.Strays code packet access
  | _ => False

theorem Mirrors.going (mirrors : Mirrors state downloads) (running : state.phase = .running) :
    downloads.ended = false := by
  have hphase := mirrors.phase
  rw [running] at hphase
  cases hended : downloads.ended with
  | false => rfl
  | true =>
      rw [hended] at hphase
      cases hphase

/-- While a TCP session is running, a handler does to the memory and the files what the
downloads ask for, if it is not left in the decoder of chunks. -/
theorem Mirrors.step_cases (mirrors : Mirrors state downloads) (running : state.phase = .running)
    (code : Reconstruction) (act : HttpAct) :
    (∃ access, act.Strays code access ∧
        httpStep code state act = some { state with phase := .failed (.outside access) }) ∨
      ∃ target, httpStep code state act = some target ∧
        Mirrors target (downloads.next code act) := by
  have hgoing := mirrors.going running
  -- a handler that returns leaves the phase as it is, and so does the machine
  have hstep : ∀ other, act = other → (∀ unzipped, other ≠ .ending unzipped) →
      (∃ target, httpHandle code state other = .ok target ∧
        Mirrors target (downloads.next code other)) →
      ∃ target, httpStep code state act = some target ∧
        Mirrors target (downloads.next code act) := by
    rintro _ rfl hstays ⟨target, hhandle, hmirrors⟩
    have hphase : target.phase = act.phase := by
      rw [hmirrors.phase, downloads.next_ended code hstays, hgoing]
      cases act with
      | ending unzipped => exact absurd rfl (hstays unzipped)
      | method | response | data | messageEnd => rfl
    refine ⟨target, ?_, hmirrors⟩
    simp only [httpStep, if_pos running, hhandle, ← hphase]
  cases act with
  | method packet unzipped =>
      exact .inr (hstep _ rfl (fun _ => HttpAct.noConfusion) (mirrors.method packet unzipped))
  | response packet opens unzipped =>
      rcases mirrors.response code packet opens unzipped with ⟨access, hstrays, hfault⟩ | hreturns
      · refine .inl ⟨access, hstrays, ?_⟩
        simp only [httpStep, if_pos running, httpHandle, hfault]
      · exact .inr (hstep _ rfl (fun _ => HttpAct.noConfusion) hreturns)
  | data srcPort data =>
      exact .inr (hstep _ rfl (fun _ => HttpAct.noConfusion) (mirrors.data code srcPort data))
  | messageEnd unzipped =>
      exact .inr (hstep _ rfl (fun _ => HttpAct.noConfusion) (mirrors.messageEnd code unzipped))
  | ending unzipped =>
      rcases mirrors.ending code unzipped with ⟨target, hhandle, hmirrors⟩
      refine .inr ⟨_, ?_, hmirrors⟩
      simp only [httpStep, if_pos running, httpHandle, hhandle]
      rfl

/-! ## Runs -/

theorem mirrors_fresh : Mirrors freshHttp .fresh where
  phase := rfl
  held := .nothing
  shown := by
    constructor
    · rfl
    · rfl
    · intro file
      simp [freshHttp, contentOf, Downloads.all, Downloads.fresh, Downloads.current]
    · rfl

theorem Mirrors.run {code : Reconstruction} {acts : List HttpAct} {target : HttpState}
    (mirrors : Mirrors state downloads)
    (inside : ∀ act ∈ acts, ∀ access, ¬ act.Strays code access)
    (ran : (httpMachine code).run acts state = some target) :
    Mirrors target (acts.foldl (Downloads.next code) downloads) := by
  induction acts generalizing state downloads with
  | nil =>
      cases ran
      exact mirrors
  | cons act acts ih =>
      rw [Machine.run_cons, Option.bind_eq_some_iff] at ran
      rcases ran with ⟨next, enabled, ran⟩
      rcases mirrors.step_cases (running_of_enabled enabled) code act with
        ⟨access, hstrays, -⟩ | ⟨other, hstep, hmirrors⟩
      · exact absurd hstrays (inside act List.mem_cons_self access)
      · have hsame : other = next := Option.some.inj (hstep.symm.trans enabled)
        rw [hsame] at hmirrors
        exact ih hmirrors (fun later listed => inside later (List.mem_cons_of_mem _ listed)) ran

/-- The code as it is: the names of `_create_file`, and `chunk_decode` with the buffer of the
handler. -/
def probeReconstruction (directory : CString) (outside : Bool) (noise : Nat → UInt8) :
    Reconstruction :=
  fileNames directory outside (decodeBody noise)

/-- The packet of a response has chunks, if any, that can be decoded inside of it. -/
def DecodesInside (noise : Nat → UInt8) : HttpAct → Prop
  | .response packet _ _ => ∀ payload ∈ packet.tcpPayload, payload.length + 2 < 2 ^ 32 ∧
      (firstSegment noise packet.transferEncoding payload).isOk = true
  | .method _ _ | .data _ _ | .messageEnd _ | .ending _ => True

instance (noise : Nat → UInt8) (act : HttpAct) : Decidable (DecodesInside noise act) :=
  match act with
  | .response packet _ _ =>
      inferInstanceAs (Decidable (∀ payload ∈ packet.tcpPayload, payload.length + 2 < 2 ^ 32 ∧
        (firstSegment noise packet.transferEncoding payload).isOk = true))
  | .method _ _ | .data _ _ | .messageEnd _ | .ending _ => isTrue trivial

theorem not_strays_of_decodesInside {directory : CString} {outside : Bool} {noise : Nat → UInt8}
    {act : HttpAct} (inside : DecodesInside noise act) (access : Fault) :
    ¬ act.Strays (probeReconstruction directory outside noise) access := by
  intro strays
  cases act with
  | response packet opens unzipped =>
      have hstrays : firstChunk (probeReconstruction directory outside noise) packet.tcpPayload
          packet.transferEncoding = .error access := strays
      cases hpayload : packet.tcpPayload with
      | none =>
          rw [hpayload] at hstrays
          cases hstrays
      | some payload =>
          rcases inside payload hpayload with ⟨hsmall, hpart⟩
          have hdecodes : (probeReconstruction directory outside noise).Decodes noise :=
            fun data => rfl
          rw [hpayload, firstChunk_eq_firstSegment _ hdecodes hsmall] at hstrays
          rw [hstrays] at hpart
          cases hpart
  | method | data | messageEnd | ending => exact strays

/-- A response in chunks, of which the first segment has one, and the size of the next one. -/
def chunkedPacket : HttpPacket :=
  { samplePacket with
    fileExtension := getExtensionFromContentType (some (bytesOf "text/plain"))
    transferEncoding := some .chunked
    tcpPayload := some (bytesOf "HTTP/1.1 200 OK\r\n\r\n3\r\nabc\r\n2\r\n") }

/-- A response without chunks, whose file cannot be opened at first, and one in chunks, whose
file is open until the TCP session ends. -/
def chunkedRequests : List HttpAct :=
  [.method samplePacket false, .response samplePacket false false,
    .response samplePacket true false, .data (some 80) [121], .messageEnd false,
    .method samplePacket false, .response chunkedPacket true false,
    .data (some 80) [100, 101], .ending false]

/-- What a server at a port has sent. -/
def sentBy (port : UInt16) (pieces : List (Option UInt16 × List UInt8)) : List UInt8 :=
  pieces.flatMap fun piece => if piece.1 = some port then piece.2 else []

/-- The calls for the pieces of a body. -/
def dataActs (pieces : List (Option UInt16 × List UInt8)) : List HttpAct :=
  pieces.map fun piece => .data piece.1 piece.2

/-- The calls for a request and the whole response to it. -/
def responseActs (request response : HttpPacket) (pieces : List (Option UInt16 × List UInt8))
    (unzipped : Bool) : List HttpAct :=
  [.method request unzipped, .response response true unzipped] ++ dataActs pieces ++
    [.messageEnd unzipped]

theorem foldl_dataActs (code : Reconstruction) (downloads : Downloads) {download : Download}
    (loading : downloads.progress = .loading download)
    (pieces : List (Option UInt16 × List UInt8)) :
    (dataActs pieces).foldl (Downloads.next code) downloads =
      { downloads with
        progress := .loading { download with
          content := download.content ++ sentBy download.port pieces } } := by
  induction pieces generalizing downloads download with
  | nil =>
      rw [sentBy, List.flatMap_nil, List.append_nil, ← loading]
      rfl
  | cons piece pieces ih =>
      rw [dataActs, List.map_cons, List.foldl_cons, ← dataActs]
      rw [sentBy, List.flatMap_cons, ← sentBy]
      by_cases hserver : piece.1 = some download.port
      · have hnext : downloads.next code (.data piece.1 piece.2) = { downloads with
            progress := .loading { download with content := download.content ++ piece.2 } } := by
          simp only [Downloads.next, loading, if_pos hserver]
        rw [hnext, ih _ rfl, if_pos hserver, List.append_assoc]
      · have hnext : downloads.next code (.data piece.1 piece.2) = downloads := by
          simp only [Downloads.next, loading, if_neg hserver]
        rw [hnext, ih _ loading, if_neg hserver, List.nil_append]

/-- While a TCP session is running, some downloads are what happened in it. -/
theorem exists_mirrors_of_reachable {code : Reconstruction}
    (reached : (httpMachine code).Reachable state) :
    state.phase = .running → ∃ downloads, Mirrors state downloads := by
  apply reached.invariant fun state => state.phase = .running → ∃ downloads, Mirrors state downloads
  · rintro start rfl -
    exact ⟨.fresh, mirrors_fresh⟩
  · intro before act after inv enabled going
    have hbefore := running_of_enabled enabled
    rcases inv hbefore with ⟨downloads, mirrors⟩
    rcases mirrors.step_cases hbefore code act with ⟨access, -, hstep⟩ | ⟨other, hstep, hmirrors⟩
    · rw [← Option.some.inj (hstep.symm.trans enabled)] at going
      cases going
    · rw [← Option.some.inj (hstep.symm.trans enabled)]
      exact ⟨_, hmirrors⟩

/-- When no handler fails, the calls go on until the TCP session ends. -/
theorem Mirrors.follow (code : Reconstruction) (acts : List HttpAct)
    (stays : ∀ act ∈ acts, ∀ unzipped, act ≠ .ending unzipped)
    (inside : ∀ act ∈ acts, ∀ access, ¬ act.Strays code access)
    (mirrors : Mirrors state downloads) (going : downloads.ended = false) :
    ∃ target, (httpMachine code).run acts state = some target ∧
      Mirrors target (acts.foldl (Downloads.next code) downloads) := by
  induction acts generalizing state downloads with
  | nil => exact ⟨state, rfl, mirrors⟩
  | cons act acts ih =>
      have hrunning : state.phase = .running := by rw [mirrors.phase, going]; rfl
      rcases mirrors.step_cases hrunning code act with ⟨access, hstrays, -⟩ |
        ⟨next, henabled, hmirrors⟩
      · exact absurd hstrays (inside act List.mem_cons_self access)
      · have hgoing := downloads.next_ended code (stays act List.mem_cons_self)
        rcases ih (fun other hother => stays other (List.mem_cons_of_mem _ hother))
          (fun other hother => inside other (List.mem_cons_of_mem _ hother)) hmirrors
          (hgoing.trans going) with ⟨target, hrun, htarget⟩
        refine ⟨target, ?_, htarget⟩
        have hfirst : (httpMachine code).step state act = some next := henabled
        rw [Machine.run_cons, hfirst]
        exact hrun

/-- The body starts behind the header. -/
theorem bodyStart_header (header : ResponseHeader) (first : List UInt8) :
    bodyStart (header.encode ++ first) = header.encode.length := by
  have hfound := findEmptyLine_bodyStart (header.encode ++ first)
  have htwo := (bodyStart_le (header.encode ++ first)).1
  rw [findEmptyLine_header] at hfound
  have hplace := Except.ok.inj hfound
  have hlength : header.encode.length = (encodeLines header.lines).length + 2 := by
    simp [ResponseHeader.encode, crlf]
  omega

/-- The first segment has the bytes of the body that are behind the header. -/
theorem firstChunk_header (code : Reconstruction) {transferEncoding : Option TransferEncoding}
    (plain : transferEncoding ≠ some .chunked) (header : ResponseHeader) (first : List UInt8) :
    firstChunk code (some (header.encode ++ first)) transferEncoding =
      .ok (if first = [] then none else some first) := by
  rw [firstChunk]
  dsimp only
  rw [bodyStart_header, List.length_append, List.drop_left]
  cases first with
  | nil => rw [if_pos (by simp), if_pos rfl]
  | cons byte rest => rw [if_neg (by simp), if_neg plain, if_neg (List.cons_ne_nil _ _)]

theorem firstPart_header (code : Reconstruction) {response : HttpPacket} {header : ResponseHeader}
    {first : List UInt8} (carried : response.tcpPayload = some (header.encode ++ first))
    (plain : response.transferEncoding ≠ some .chunked) :
    Downloads.firstPart code response = first := by
  rw [Downloads.firstPart, carried, firstChunk_header code plain]
  cases first <;> rfl

/-- A response without chunks does not need the decoder. -/
theorem not_strays_of_plain (code : Reconstruction) {request response : HttpPacket}
    {header : ResponseHeader} {first : List UInt8} {pieces : List (Option UInt16 × List UInt8)}
    (carried : response.tcpPayload = some (header.encode ++ first))
    (plain : response.transferEncoding ≠ some .chunked) {unzipped : Bool} :
    ∀ act ∈ responseActs request response pieces unzipped, ∀ access,
      ¬ act.Strays code access := by
  intro act hact access strays
  cases act with
  | response packet opens other =>
      have hpacket : packet = response := by
        simp [responseActs, dataActs] at hact
        exact hact.1
      have hchunk : firstChunk code packet.tcpPayload packet.transferEncoding = .error access :=
        strays
      rw [hpacket, carried, firstChunk_header code plain] at hchunk
      cases hchunk
  | method | data | messageEnd | ending => exact strays

/-- The report on a body that was announced and came as it is. -/
theorem Download.message_success {download : Download}
    (identity : download.contentEncoding = none)
    (sized : 0 < download.content.length ∧ download.content.length < 2 ^ 32)
    (announced : download.contentLength = 0 ∨
      download.contentLength.toNat = download.content.length) (unzipped : Bool) :
    download.message unzipped =
      [.int HttpReconstructStatus.success.number, .int download.contentLength.toUInt64,
        .int (UInt64.ofNat download.content.length), .int 0,
        .int ((download.transferEncoding.map TransferEncoding.identNumber).getD 0),
        .str download.name] := by
  have hlength : (UInt32.ofNat download.content.length).toNat = download.content.length :=
    UInt32.toNat_ofNat_of_lt' sized.2
  have hnotEmpty : UInt32.ofNat download.content.length ≠ 0 := by
    intro hzero
    rw [hzero] at hlength
    exact Nat.ne_of_gt sized.1 hlength.symm
  have hcomplete : download.contentLength = 0 ∨
      UInt32.ofNat download.content.length = download.contentLength := by
    refine announced.imp_right fun hsame => UInt32.toNat_inj.mp ?_
    rw [hlength, hsame]
  have hstatus : (download.session 0).status unzipped = .success := by
    simp only [HttpSession.status, Download.session, if_neg hnotEmpty, if_pos hcomplete, identity]
  have hwide : (UInt32.ofNat download.content.length).toUInt64 =
      UInt64.ofNat download.content.length := by
    apply UInt64.toNat_inj.mp
    rw [UInt32.toNat_toUInt64, hlength,
      UInt64.toNat_ofNat_of_lt' (Nat.lt_trans sized.2 (by decide))]
  rw [Download.message, HttpSession.message, hstatus]
  simp only [Download.session, hwide, identity]
  rfl

/-- The calls for a response add one download, with the whole body. -/
theorem Downloads.foldl_response (code : Reconstruction) (downloads : Downloads)
    {request response : HttpPacket} (header : ResponseHeader)
    (first : List UInt8) (pieces : List (Option UInt16 × List UInt8))
    (answers : response.response = bytesOf "200 OK")
    (carried : response.tcpPayload = some (header.encode ++ first))
    (plain : response.transferEncoding ≠ some .chunked) (unzipped : Bool) :
    (responseActs request response pieces unzipped).foldl (Downloads.next code) downloads =
      ⟨(downloads.finish unzipped).finished ++
        [({ Downloads.begins code response (requestName request) request.ts with
            content := first ++ sentBy response.tcpSrcPort pieces }, unzipped)],
        .nothing, downloads.ended⟩ := by
  have haccepted : ¬ sameChars response.response (bytesOf "200 OK") = false := by
    rw [answers]
    decide
  have hstarted : List.foldl (Downloads.next code) downloads
      [.method request unzipped, .response response true unzipped] =
        { downloads.finish unzipped with
          progress := .loading (begins code response (requestName request) request.ts) } := by
    simp only [List.foldl_cons, List.foldl_nil, Downloads.next, if_neg haccepted, if_true]
  have hfirst : (begins code response (requestName request) request.ts).content = first :=
    firstPart_header code carried plain
  rw [responseActs, List.foldl_append, List.foldl_append, hstarted, foldl_dataActs code _ rfl,
    hfirst]
  rfl

/-- A response without an encoding that comes in segments, in a TCP session in which anything may
have happened before: its file has the body, byte for byte, and is closed, and the last report is
one of a success, with the lengths and the name. -/
theorem body_saved (code : Reconstruction) (reached : (httpMachine code).Reachable state)
    (running : state.phase = .running) {request response : HttpPacket} (header : ResponseHeader)
    (first : List UInt8) (pieces : List (Option UInt16 × List UInt8))
    (answers : response.response = bytesOf "200 OK")
    (carried : response.tcpPayload = some (header.encode ++ first))
    (plain : response.transferEncoding ≠ some .chunked)
    (identity : response.contentEncoding = none)
    (sized : 0 < (first ++ sentBy response.tcpSrcPort pieces).length ∧
      (first ++ sentBy response.tcpSrcPort pieces).length < 2 ^ 32)
    (announced : response.contentLength = 0 ∨
      response.contentLength.toNat = (first ++ sentBy response.tcpSrcPort pieces).length)
    (unzipped : Bool) :
    ∃ target,
      (httpMachine code).run (responseActs request response pieces unzipped) state = some target ∧
      contentOf target.world.log state.world.files.length =
        first ++ sentBy response.tcpSrcPort pieces ∧
      target.world.files[state.world.files.length]? = some false ∧
      (target.world.log.filterMap HttpEvent.line?).getLast? = some (request.ts,
        [.int HttpReconstructStatus.success.number, .int response.contentLength.toUInt64,
          .int (UInt64.ofNat (first ++ sentBy response.tcpSrcPort pieces).length), .int 0,
          .int ((response.transferEncoding.map TransferEncoding.identNumber).getD 0),
          .str (code.fullPath (requestName request) response.fileExtension)]) := by
  rcases exists_mirrors_of_reachable reached running with ⟨downloads, mirrors⟩
  have hgoing := mirrors.going running
  have hstays : ∀ act ∈ responseActs request response pieces unzipped,
      ∀ unzipped, act ≠ .ending unzipped := by
    intro act hact other hending
    simp [responseActs, dataActs, hending] at hact
  rcases mirrors.follow code _ hstays (not_strays_of_plain code carried plain) hgoing with
    ⟨target, hrun, htarget⟩
  have hcount : state.world.files.length = (downloads.finish unzipped).finished.length := by
    rw [mirrors.shown.files]
    simp [Downloads.finish]
  rw [downloads.foldl_response code header first pieces answers carried plain unzipped] at htarget
  have hcontent := htarget.shown.contents state.world.files.length
  have hfiles := htarget.shown.files
  have hlines := htarget.shown.lines
  rw [hcount] at hcontent ⊢
  refine ⟨target, hrun, ?_, ?_, ?_⟩
  · rw [hcontent]
    simp [Downloads.all, Downloads.current]
  · rw [hfiles]
    simp [Downloads.current]
  · rw [hlines, List.map_append, List.map_singleton, List.getLast?_concat]
    rw [Download.message_success identity sized announced]
    rfl

/-- A response whose first segment has two of five bytes. -/
def helloResponse : HttpPacket :=
  { samplePacket with
    contentLength := 5
    tcpPayload := some (exampleHeader.encode ++ bytesOf "he") }

/-- The other bytes, and one that the client has sent. -/
def helloPieces : List (Option UInt16 × List UInt8) :=
  [(some 80, bytesOf "ll"), (some 50000, bytesOf "x"), (some 80, bytesOf "o")]

theorem body_saved_hello :
    let state := (httpMachine plainReconstruction).after (twoRequests.take 8) freshHttp
    bytesOf "he" ++ sentBy 80 helloPieces = bytesOf "hello" ∧
      ∃ target, (httpMachine plainReconstruction).run
          (responseActs samplePacket helloResponse helloPieces false) state = some target ∧
        contentOf target.world.log state.world.files.length =
          bytesOf "he" ++ sentBy 80 helloPieces ∧
        target.world.files[state.world.files.length]? = some false ∧
        (target.world.log.filterMap HttpEvent.line?).getLast? = some (samplePacket.ts,
          [.int 0, .int 5, .int 5, .int 0, .int 0,
            .str (plainReconstruction.fullPath (requestName samplePacket) (.ofText "txt"))]) := by
  refine ⟨by decide, body_saved plainReconstruction (Machine.reachable_after rfl ?_) ?_
    exampleHeader (bytesOf "he") helloPieces rfl rfl ?_ rfl ?_ (.inr ?_) false⟩ <;>
  decide +kernel

end MmtProbe.Dpi
