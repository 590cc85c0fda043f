/-
# The life of a reconstructed file

Whatever the order of requests, responses, data and ends of messages in a TCP session,
and whichever files can be opened, no handler uses an `http_session` that was freed,
data is appended to open files only, and the end of the session can be handled at any time
and leaves each file that was opened closed once and reported once.

The invariant is a ledger.  There is at most one session at a time, so the files that
were opened are those that are settled, with a close and a report each, and behind them
the one file of the session that is there, if it has one.
-/

import MmtProbe.Dpi.HttpReconstruct
import MmtProbe.Math.Trace
import Mathlib.Data.List.Nodup

namespace MmtProbe.Dpi

open MmtProbe.Math MmtProbe.Lib

/-! ## What is wanted -/

/-- The session and the file of an opening. -/
def HttpEvent.open? : HttpEvent → Option (Nat × Nat)
  | opened session file _ => some (session, file)
  | _ => none

/-- The file of a closing. -/
def HttpEvent.close? : HttpEvent → Option Nat
  | closed file => some file
  | _ => none

/-- The session of a report. -/
def HttpEvent.report? : HttpEvent → Option Nat
  | reported session _ _ => some session
  | _ => none

/-- The files that were opened, each with its session. -/
def opens (log : List HttpEvent) : List (Nat × Nat) := log.filterMap HttpEvent.open?

/-- The files that were closed. -/
def closes (log : List HttpEvent) : List Nat := log.filterMap HttpEvent.close?

/-- The sessions that were reported. -/
def reports (log : List HttpEvent) : List Nat := log.filterMap HttpEvent.report?

/-- A file was opened, and was not closed since. -/
def IsOpen (log : List HttpEvent) (file : Nat) : Prop :=
  (∃ session path, .opened session file path ∈ log) ∧ .closed file ∉ log

/-- What an event asks of the events before it. -/
def Timely (before : List HttpEvent) : HttpEvent → Prop
  | .opened _ _ _ => True
  | .appended file _ => IsOpen before file
  | .closed file => IsOpen before file
  | .reported session _ _ => ∃ file path, .opened session file path ∈ before

/-- Each file that was opened was closed once, and reported once. -/
def Settled (log : List HttpEvent) : Prop :=
  ∀ request ∈ opens log, (closes log).count request.2 = 1 ∧ (reports log).count request.1 = 1

structure HttpOk (code : Reconstruction) (state : HttpState) : Prop where
  /-- No session is used after it was freed, no file that is not open, and no name that is not
  there: a handler fails only in the decoder of chunks. -/
  safe : ∀ fault, state.phase = .failed fault → ∃ access, fault = .outside access
  /-- Data is appended to open files, and a session is reported that opened a file. -/
  timely : Past Timely state.world.log
  /-- No file is closed twice, and no session is reported twice. -/
  once : (closes state.world.log).Nodup ∧ (reports state.world.log).Nodup
  /-- The end of the session is handled whenever it comes, and settles all files. -/
  ends : state.phase = .running → ∀ unzipped, ∃ target,
    httpStep code state (.ending unzipped) = some target ∧ target.phase = .ended ∧
      opens target.world.log = opens state.world.log ∧ Settled target.world.log
  done : state.phase = .ended → Settled state.world.log

/-! ## The ledger -/

variable {log : List HttpEvent} {session file : Nat}

theorem mem_opens : (session, file) ∈ opens log ↔ ∃ path, .opened session file path ∈ log := by
  rw [opens, List.mem_filterMap]
  constructor
  · rintro ⟨event, listed, hevent⟩
    cases event with
    | opened other number path =>
        cases hevent
        exact ⟨path, listed⟩
    | _ => cases hevent
  · rintro ⟨path, listed⟩
    exact ⟨_, listed, rfl⟩

theorem mem_closes (listed : .closed file ∈ log) : file ∈ closes log :=
  List.mem_filterMap.mpr ⟨_, listed, rfl⟩

theorem opens_concat (log : List HttpEvent) (event : HttpEvent) :
    opens (log ++ [event]) = opens log ++ event.open?.toList :=
  filterMap_concat _ _ _

theorem closes_concat (log : List HttpEvent) (event : HttpEvent) :
    closes (log ++ [event]) = closes log ++ event.close?.toList :=
  filterMap_concat _ _ _

theorem reports_concat (log : List HttpEvent) (event : HttpEvent) :
    reports (log ++ [event]) = reports log ++ event.report?.toList :=
  filterMap_concat _ _ _

/-- The file of the session that is there. -/
def pending : Option (Nat × HttpSession) → List (Nat × Nat)
  | none => []
  | some (session, content) => content.file.toList.map fun file => (session, file)

/-- What holds of the memory and the files, when `current` is the session that is there. -/
structure WorldInv (world : HttpWorld) (current : Option (Nat × HttpSession)) : Prop where
  live : ∀ session content, current = some (session, content) →
    world.heap[session]? = some (some content)
  isOpen : ∀ request ∈ pending current, world.files[request.2]? = some true
  ledger : ∃ settled, opens world.log = settled ++ pending current ∧
    closes world.log = settled.map Prod.snd ∧ reports world.log = settled.map Prod.fst ∧
    ∀ request ∈ settled, current.map Prod.fst ≠ some request.1
  known : ∀ request ∈ opens world.log,
    request.1 < world.heap.length ∧ request.2 < world.files.length
  distinct : ((opens world.log).map Prod.fst).Nodup ∧ ((opens world.log).map Prod.snd).Nodup
  timely : Past Timely world.log

/-! ## Memory and files -/

variable {world : HttpWorld} {content : HttpSession}

theorem WorldInv.load (inv : WorldInv world (some (session, content))) :
    world.load session = .ok content := by
  rw [HttpWorld.load, inv.live session content rfl]

theorem WorldInv.inside (inv : WorldInv world (some (session, content))) :
    session < world.heap.length := by
  by_contra houtside
  have hlive := inv.live session content rfl
  rw [List.getElem?_eq_none (Nat.not_lt.mp houtside)] at hlive
  cases hlive

/-- A field is set that does not tell the file. -/
theorem WorldInv.store (inv : WorldInv world (some (session, content))) (changed : HttpSession)
    (same : changed.file = content.file) :
    ∃ target, world.store session changed = .ok target ∧
      WorldInv target (some (session, changed)) := by
  refine ⟨{ world with heap := world.heap.set session (some changed) }, ?_, ?_⟩
  · rw [HttpWorld.store, inv.load]
    rfl
  · have hpending : pending (some (session, changed)) = pending (some (session, content)) := by
      rw [pending, pending, same]
    constructor
    · intro other stored hcurrent
      cases hcurrent
      rw [List.getElem?_set_self inv.inside]
    · rw [hpending]
      exact inv.isOpen
    · rw [hpending]
      exact inv.ledger
    · intro request listed
      rw [List.length_set]
      exact inv.known request listed
    · exact inv.distinct
    · exact inv.timely

/-- A new session has no file. -/
theorem WorldInv.alloc (inv : WorldInv world none) (content : HttpSession)
    (noFile : content.file = none) :
    WorldInv (world.alloc content).2 (some ((world.alloc content).1, content)) where
  live := by
    rintro other stored hcurrent
    cases hcurrent
    simp [HttpWorld.alloc]
  isOpen := by simp [pending, noFile]
  ledger := by
    rcases inv.ledger with ⟨settled, hopens, hcloses, hreports, -⟩
    have hpending : pending (some ((world.alloc content).1, content)) = [] := by
      simp [pending, noFile]
    refine ⟨settled, ?_, hcloses, hreports, ?_⟩
    · rw [hpending]
      exact hopens
    · intro request listed hsame
      have hknown := inv.known request (by rw [hopens]; exact List.mem_append_left _ listed)
      have hnew : world.heap.length = request.1 := Option.some.inj hsame
      omega
  known := by
    intro request listed
    have hknown := inv.known request listed
    exact ⟨by simp only [HttpWorld.alloc, List.length_append, List.length_singleton]; omega,
      hknown.2⟩
  distinct := inv.distinct
  timely := inv.timely

/-- A session that has no file was never listed, and neither was a new file. -/
theorem WorldInv.distinct_concat (inv : WorldInv world (some (session, content)))
    (noFile : content.file = none) :
    ((opens world.log ++ [(session, world.files.length)]).map Prod.fst).Nodup ∧
      ((opens world.log ++ [(session, world.files.length)]).map Prod.snd).Nodup := by
  rcases inv.ledger with ⟨settled, hopens, -, -, hsettled⟩
  have hnothing : pending (some (session, content)) = [] := by simp [pending, noFile]
  rw [hnothing, List.append_nil] at hopens
  rw [List.map_append, List.map_append]
  constructor
  · refine List.nodup_append.mpr ⟨inv.distinct.1, by simp, ?_⟩
    intro other listed new hnew hsame
    rcases List.mem_map.mp listed with ⟨request, hlisted, hrequest⟩
    rw [hopens] at hlisted
    apply hsettled request hlisted
    rw [hrequest, hsame, List.mem_singleton.mp hnew]
    rfl
  · refine List.nodup_append.mpr ⟨inv.distinct.2, by simp, ?_⟩
    intro other listed new hnew hsame
    rcases List.mem_map.mp listed with ⟨request, hlisted, hrequest⟩
    have hknown := (inv.known request hlisted).2
    rw [hrequest, hsame, List.mem_singleton.mp hnew] at hknown
    exact Nat.lt_irrefl _ hknown

/-- A file is opened for the session. -/
theorem WorldInv.fopen (inv : WorldInv world (some (session, content)))
    (noFile : content.file = none) (path : CString) (changed : HttpSession)
    (given : changed.file = some (world.fopen session path).1) :
    ∃ target, (world.fopen session path).2.store session changed = .ok target ∧
      WorldInv target (some (session, changed)) := by
  rcases inv.ledger with ⟨settled, hopens, hcloses, hreports, hsettled⟩
  have hnothing : pending (some (session, content)) = [] := by simp [pending, noFile]
  have hpending : pending (some (session, changed)) = [(session, world.files.length)] := by
    simp [pending, given, HttpWorld.fopen]
  have hload : (world.fopen session path).2.load session = .ok content := inv.load
  rw [hnothing, List.append_nil] at hopens
  refine ⟨{ (world.fopen session path).2 with heap := world.heap.set session (some changed) },
    ?_, ?_⟩
  · rw [HttpWorld.store, hload]
    rfl
  · constructor
    · intro other stored hcurrent
      cases hcurrent
      exact List.getElem?_set_self inv.inside
    · rw [hpending]
      simp [HttpWorld.fopen]
    · refine ⟨settled, ?_, ?_, ?_, hsettled⟩
      · simp [HttpWorld.fopen, opens_concat, HttpEvent.open?, hopens, hpending]
      · simpa [HttpWorld.fopen, closes_concat, HttpEvent.close?] using hcloses
      · simpa [HttpWorld.fopen, reports_concat, HttpEvent.report?] using hreports
    · intro request listed
      simp only [HttpWorld.fopen, opens_concat, HttpEvent.open?, Option.toList_some,
        List.mem_append, List.mem_singleton] at listed
      simp only [HttpWorld.fopen, List.length_set, List.length_append, List.length_singleton]
      rcases listed with hbefore | rfl
      · have hknown := inv.known request hbefore
        omega
      · exact ⟨inv.inside, Nat.lt_succ_self _⟩
    · simp only [HttpWorld.fopen, opens_concat, HttpEvent.open?, Option.toList_some]
      exact inv.distinct_concat noFile
    · exact inv.timely.concat trivial

/-- The file of the session is open, in the log too. -/
theorem WorldInv.isOpen_log (inv : WorldInv world (some (session, content)))
    (hasFile : content.file = some file) : IsOpen world.log file := by
  rcases inv.ledger with ⟨settled, hopens, hcloses, -, -⟩
  have hpending : pending (some (session, content)) = [(session, file)] := by
    simp [pending, hasFile]
  rw [hpending] at hopens
  constructor
  · have hlisted : (session, file) ∈ opens world.log := by simp [hopens]
    exact ⟨session, mem_opens.mp hlisted⟩
  · intro hclosed
    have hsettled := mem_closes hclosed
    have hdistinct := inv.distinct.2
    rw [hopens, List.map_append, List.nodup_append] at hdistinct
    rw [hcloses] at hsettled
    exact hdistinct.2.2 file hsettled file (by simp) rfl

theorem WorldInv.fwrite (inv : WorldInv world (some (session, content)))
    (hasFile : content.file = some file) (data : List UInt8) :
    ∃ target, world.fwrite file data = .ok target ∧ WorldInv target (some (session, content)) := by
  have hopen : world.files[file]? = some true :=
    inv.isOpen (session, file) (by simp [pending, hasFile])
  refine ⟨{ world with log := world.log ++ [.appended file data] }, ?_, ?_⟩
  · rw [HttpWorld.fwrite, if_pos hopen]
  · constructor
    · exact inv.live
    · exact inv.isOpen
    · simpa [opens_concat, closes_concat, reports_concat, HttpEvent.open?, HttpEvent.close?,
        HttpEvent.report?] using inv.ledger
    · simpa [opens_concat, HttpEvent.open?] using inv.known
    · simpa [opens_concat, HttpEvent.open?] using inv.distinct
    · exact inv.timely.concat (inv.isOpen_log hasFile)

/-! ## The end of a session -/

/-- A session without a file is freed. -/
theorem WorldInv.free (inv : WorldInv world (some (session, content)))
    (noFile : content.file = none) :
    WorldInv { world with heap := world.heap.set session none } none where
  live := by simp
  isOpen := by simp [pending]
  ledger := by
    rcases inv.ledger with ⟨settled, hopens, hcloses, hreports, -⟩
    refine ⟨settled, ?_, hcloses, hreports, by simp⟩
    simpa [pending, noFile] using hopens
  known := by
    intro request listed
    rw [List.length_set]
    exact inv.known request listed
  distinct := inv.distinct
  timely := inv.timely

theorem opens_settle (ts : Timeval) (message : List Field) :
    opens (log ++ [.closed file] ++ [.reported session ts message]) = opens log := by
  rw [opens_concat, opens_concat]
  simp [HttpEvent.open?]

/-- A session with a file is settled: the file is closed and reported. -/
theorem WorldInv.settle (inv : WorldInv world (some (session, content)))
    (hasFile : content.file = some file) (ts : Timeval) (message : List Field) :
    WorldInv
      { heap := world.heap.set session none
        files := world.files.set file false
        log := world.log ++ [.closed file] ++ [.reported session ts message] } none where
  live := by simp
  isOpen := by simp [pending]
  ledger := by
    rcases inv.ledger with ⟨settled, hopens, hcloses, hreports, -⟩
    refine ⟨settled ++ [(session, file)], ?_, ?_, ?_, by simp⟩
    · rw [opens_settle, hopens]
      simp [pending, hasFile]
    · rw [closes_concat, closes_concat, hcloses]
      simp [HttpEvent.close?]
    · rw [reports_concat, reports_concat, hreports]
      simp [HttpEvent.report?]
  known := by
    intro request listed
    rw [opens_settle] at listed
    rw [List.length_set, List.length_set]
    exact inv.known request listed
  distinct := by
    rw [opens_settle]
    exact inv.distinct
  timely := by
    rcases inv.ledger with ⟨settled, hopens, -, -, -⟩
    have hlisted : (session, file) ∈ opens world.log := by simp [hopens, pending, hasFile]
    rcases mem_opens.mp hlisted with ⟨path, hpath⟩
    have hclose : Timely world.log (.closed file) := inv.isOpen_log hasFile
    have hreport : Timely (world.log ++ [.closed file]) (.reported session ts message) :=
      ⟨file, path, List.mem_append_left _ hpath⟩
    exact (inv.timely.concat hclose).concat hreport

/-- A session that has a name can be flushed, and is gone then. -/
theorem WorldInv.flush (inv : WorldInv world (some (session, content))) {fileName : CString}
    (named : content.fileName = some fileName) (unzipped : Bool) :
    ∃ target, httpReconstructFlushSessionToFileAndFree world (some session) unzipped = .ok target ∧
      WorldInv target none := by
  rw [httpReconstructFlushSessionToFileAndFree, inv.load]
  cases hfile : content.file with
  | none =>
      refine ⟨_, ?_, inv.free hfile⟩
      simp only [bind_ok, HttpWorld.flushToFile, hfile, HttpWorld.free, inv.load]
      rfl
  | some file =>
      have hopen : world.files[file]? = some true :=
        inv.isOpen (session, file) (by simp [pending, hfile])
      refine ⟨_, ?_, inv.settle hfile content.ts (content.message fileName unzipped)⟩
      simp only [bind_ok, HttpWorld.flushToFile, hfile, HttpWorld.fclose, if_pos hopen,
        HttpWorld.report, named, HttpWorld.free, HttpWorld.load, inv.live session content rfl]
      rfl

/-- A flush opens no file. -/
theorem opens_of_flush {pointer : Option Nat} {unzipped : Bool} {target : HttpWorld}
    (flushed : httpReconstructFlushSessionToFileAndFree world pointer unzipped = .ok target) :
    opens target.log = opens world.log := by
  cases pointer with
  | none =>
      cases flushed
      rfl
  | some session =>
      rcases bind_eq_ok_iff.mp flushed with ⟨content, -, hrest⟩
      rcases bind_eq_ok_iff.mp hrest with ⟨middle, hfile, hfree⟩
      rcases bind_eq_ok_iff.mp hfree with ⟨_, -, hset⟩
      cases hset
      unfold HttpWorld.flushToFile at hfile
      split at hfile
      · cases hfile
        rfl
      · rcases bind_eq_ok_iff.mp hfile with ⟨closed, hclose, hreport⟩
        unfold HttpWorld.fclose at hclose
        split_ifs at hclose
        cases hclose
        unfold HttpWorld.report at hreport
        split at hreport
        · cases hreport
        · cases hreport
          exact opens_settle content.ts _

/-! ## The handlers -/

/-- What holds between two handlers: a session that is there has a name. -/
def Sound (world : HttpWorld) : Option Nat → Prop
  | none => WorldInv world none
  | some session => ∃ content fileName, WorldInv world (some (session, content)) ∧
      content.fileName = some fileName

/-- A handler comes to its end and leaves a sound state. -/
def Returns (phase : HttpPhase) (result : Except HttpFault HttpState) : Prop :=
  ∃ target, result = .ok target ∧ Sound target.world target.httpSession ∧ target.phase = phase

theorem Sound.flush {pointer : Option Nat} (sound : Sound world pointer) (unzipped : Bool) :
    ∃ target, httpReconstructFlushSessionToFileAndFree world pointer unzipped = .ok target ∧
      WorldInv target none := by
  cases pointer with
  | none => exact ⟨world, rfl, sound⟩
  | some session =>
      rcases sound with ⟨content, fileName, inv, named⟩
      exact inv.flush named unzipped

variable {state : HttpState}

theorem httpMethodHandle_returns (sound : Sound state.world state.httpSession)
    (packet : HttpPacket) (unzipped : Bool) :
    Returns state.phase (httpMethodHandle state packet unzipped) := by
  rcases sound.flush unzipped with ⟨flushed, hflush, inv⟩
  have halloc := inv.alloc { HttpSession.zero with ts := packet.ts } rfl
  rcases halloc.store
    { HttpSession.zero with ts := packet.ts, fileName := some (requestName packet) } rfl
    with ⟨target, hstore, hinv⟩
  have hrun : httpMethodHandle state packet unzipped =
      .ok { state with world := target, httpSession := some flushed.heap.length } := by
    rw [httpMethodHandle, hflush]
    simp only [bind_ok]
    rw [halloc.load, bind_ok, hstore]
    rfl
  exact ⟨_, hrun, ⟨_, requestName packet, hinv, rfl⟩, rfl⟩

/-- Data goes to the file of the session, and nowhere when it has none. -/
theorem WorldInv.appendData (inv : WorldInv world (some (session, content))) (data : List UInt8) :
    ∃ target changed, appendData world session data = .ok target ∧
      WorldInv target (some (session, changed)) ∧ changed.fileName = content.fileName := by
  rw [Dpi.appendData, inv.load, bind_ok]
  cases hfile : content.file with
  | none => exact ⟨world, content, rfl, inv, rfl⟩
  | some file =>
      rcases inv.fwrite hfile data with ⟨written, hwrite, hinv⟩
      rcases hinv.store { content with
        currentDataLength := content.currentDataLength + UInt32.ofNat data.length } rfl
        with ⟨target, hstore, hinv⟩
      rw [hfile] at hstore
      refine ⟨target, _, ?_, hinv, rfl⟩
      simp only [hwrite, bind_ok]
      exact hstore

/-- A file is created when there is none, or it is not, and there is none. -/
theorem WorldInv.createFile (inv : WorldInv world (some (session, content)))
    (noFile : content.file = none) {fileName : CString} (named : content.fileName = some fileName)
    (code : Reconstruction) (fileExtension : CString) (opens : Bool) :
    ∃ target changed, createFile code world session fileExtension opens = .ok target ∧
      WorldInv target (some (session, changed)) ∧
      changed.fileName = some (code.fullPath fileName fileExtension) := by
  rw [Dpi.createFile, inv.load, bind_ok, named]
  cases opens with
  | true =>
      rcases inv.fopen noFile
        (code.openPath (code.fullPath fileName fileExtension) content.contentEncoding)
        { content with
          fileName := some (code.fullPath fileName fileExtension)
          file := some world.files.length } rfl
        with ⟨target, hstore, hinv⟩
      exact ⟨target, _, hstore, hinv, rfl⟩
  | false =>
      rcases inv.store
        { content with
          fileName := some (code.fullPath fileName fileExtension)
          file := none } noFile.symm
        with ⟨target, hstore, hinv⟩
      exact ⟨target, _, hstore, hinv, rfl⟩

theorem WorldInv.startFile (inv : WorldInv world (some (session, content)))
    (code : Reconstruction) (packet : HttpPacket) :
    (∃ access, startFile code world session packet = .error (.outside access)) ∨
      ∃ target changed, startFile code world session packet = .ok target ∧
        WorldInv target (some (session, changed)) ∧ changed.fileName = content.fileName := by
  rw [Dpi.startFile, inv.load, bind_ok]
  cases hfile : content.file with
  | none => exact .inr ⟨world, content, rfl, inv, rfl⟩
  | some file =>
      rcases inv.store { content with tcpPortSource := packet.tcpSrcPort } rfl
        with ⟨target, hstore, hinv⟩
      rw [hfile] at hstore
      simp only [hstore, bind_ok]
      cases firstChunk code packet.tcpPayload content.transferEncoding with
      | error access => exact .inl ⟨access, rfl⟩
      | ok part =>
          right
          cases part with
          | none => exact ⟨target, _, rfl, hinv, rfl⟩
          | some data => exact hinv.appendData data

/-- The decoder of chunks stops the handler, or it comes to its end. -/
theorem httpResponseHandle_returns (sound : Sound state.world state.httpSession)
    (code : Reconstruction) (packet : HttpPacket) (opens unzipped : Bool) :
    (∃ access, httpResponseHandle code state packet opens unzipped = .error (.outside access)) ∨
      Returns state.phase (httpResponseHandle code state packet opens unzipped) := by
  have hsame : Returns state.phase (.ok state) := ⟨state, rfl, sound, rfl⟩
  by_cases hline : sameChars packet.response (bytesOf "200 OK") = false
  · rw [httpResponseHandle, if_pos hline]
    exact .inr hsame
  · cases hpointer : state.httpSession with
    | none =>
        simp only [httpResponseHandle, if_neg hline, hpointer]
        exact .inr hsame
    | some session =>
        rw [hpointer] at sound
        rcases sound with ⟨content, fileName, inv, named⟩
        simp only [httpResponseHandle, if_neg hline, hpointer, inv.load, bind_ok]
        cases hfile : content.file with
        | some file => exact .inr hsame
        | none =>
            -- the session has a name, so the handler of a request is not called
            simp only [named, Option.isSome_none, Option.isNone_some, Bool.false_eq_true,
              if_false, bind_ok, inv.load]
            rcases inv.store
              { content with
                contentEncoding := packet.contentEncoding
                contentLength := packet.contentLength
                transferEncoding := packet.transferEncoding } rfl with ⟨stored, hstore, hinv⟩
            rcases hinv.createFile hfile named code packet.fileExtension opens
              with ⟨created, opened, hcreate, hinv, hname⟩
            rw [named] at hstore
            rw [hstore, bind_ok, hcreate, bind_ok]
            rcases hinv.startFile code packet with ⟨access, hstart⟩ |
              ⟨target, started, hstart, hinv, hkept⟩
            · rw [hstart]
              exact .inl ⟨access, rfl⟩
            · rw [hstart, bind_ok]
              refine .inr ⟨_, rfl, ?_, rfl⟩
              rw [hpointer]
              exact ⟨started, _, hinv, by rw [hkept, hname]⟩

theorem httpDataHandle_returns (sound : Sound state.world state.httpSession)
    (srcPort : Option UInt16) (data : List UInt8) :
    Returns state.phase (httpDataHandle state srcPort data) := by
  have hsame : Returns state.phase (.ok state) := ⟨state, rfl, sound, rfl⟩
  cases hpointer : state.httpSession with
  | none =>
      simp only [httpDataHandle, hpointer]
      exact hsame
  | some session =>
      rw [hpointer] at sound
      rcases sound with ⟨content, fileName, inv, named⟩
      simp only [httpDataHandle, hpointer, inv.load, bind_ok]
      split_ifs with hfile hport
      · exact hsame
      · exact hsame
      · rcases inv.appendData data with ⟨target, changed, happend, hinv, hkept⟩
        rw [happend, bind_ok]
        exact ⟨_, rfl, ⟨changed, fileName, hinv, by rw [hkept, named]⟩, rfl⟩

theorem httpEndMessageHandle_returns (sound : Sound state.world state.httpSession)
    (unzipped : Bool) : Returns state.phase (httpEndMessageHandle state unzipped) := by
  have hsame : Returns state.phase (.ok state) := ⟨state, rfl, sound, rfl⟩
  cases hpointer : state.httpSession with
  | none =>
      simp only [httpEndMessageHandle, hpointer]
      exact hsame
  | some session =>
      rw [hpointer] at sound
      rcases sound with ⟨content, fileName, inv, named⟩
      simp only [httpEndMessageHandle, hpointer, inv.load, bind_ok]
      split_ifs with hfile
      · exact hsame
      · rcases inv.flush named unzipped with ⟨target, hflush, hinv⟩
        rw [hflush, bind_ok]
        exact ⟨_, rfl, hinv, rfl⟩

/-- The end of the TCP session flushes what is there. -/
theorem endingSessionHandler_returns (sound : Sound state.world state.httpSession)
    (unzipped : Bool) : ∃ target, endingSessionHandler state unzipped = .ok target ∧
      WorldInv target.world none ∧ target.httpSession = none ∧
      opens target.world.log = opens state.world.log := by
  rcases sound.flush unzipped with ⟨flushed, hflush, inv⟩
  refine ⟨{ state with world := flushed, httpSession := none }, ?_, inv, rfl,
    opens_of_flush hflush⟩
  rw [endingSessionHandler, hflush]
  rfl

/-! ## Whole sessions -/

/-- What holds in every state of a run. -/
structure HttpInv (state : HttpState) : Prop where
  safe : ∀ fault, state.phase = .failed fault → ∃ access, fault = .outside access
  sound : Sound state.world state.httpSession
  done : state.phase = .ended → state.httpSession = none

/-- Every handler can be called in every state, and only the decoder of chunks stops one. -/
theorem HttpInv.handle (inv : HttpInv state) (code : Reconstruction) (act : HttpAct) :
    (∃ access, httpHandle code state act = .error (.outside access)) ∨
      ∃ target, httpHandle code state act = .ok target ∧
        HttpInv { target with phase := act.phase } := by
  have hgoes : ∀ result phase, phase = .running → Returns state.phase result →
      ∃ target, result = .ok target ∧ HttpInv { target with phase := phase } := by
    rintro result phase hphase ⟨target, hresult, hsound, -⟩
    exact ⟨target, hresult, by simp [hphase], hsound, by simp [hphase]⟩
  cases act with
  | method packet unzipped =>
      exact .inr (hgoes _ _ rfl (httpMethodHandle_returns inv.sound packet unzipped))
  | response packet opens unzipped =>
      exact (httpResponseHandle_returns inv.sound code packet opens unzipped).imp_right
        (hgoes _ _ rfl)
  | data srcPort data =>
      exact .inr (hgoes _ _ rfl (httpDataHandle_returns inv.sound srcPort data))
  | messageEnd unzipped =>
      exact .inr (hgoes _ _ rfl (httpEndMessageHandle_returns inv.sound unzipped))
  | ending unzipped =>
      rcases endingSessionHandler_returns inv.sound unzipped with
        ⟨target, hrun, hinv, hpointer, -⟩
      refine .inr ⟨target, hrun, by simp [HttpAct.phase], ?_, fun _ => hpointer⟩
      show Sound target.world target.httpSession
      rw [hpointer]
      exact hinv

/-- A handler is called only while the TCP session is running. -/
theorem running_of_enabled {code : Reconstruction} {act : HttpAct} {target : HttpState}
    (enabled : httpStep code state act = some target) : state.phase = .running := by
  unfold httpStep at enabled
  split_ifs at enabled with running
  exact running

theorem HttpInv.step (inv : HttpInv state) {code : Reconstruction} {act : HttpAct}
    {target : HttpState} (enabled : httpStep code state act = some target) : HttpInv target := by
  unfold httpStep at enabled
  split_ifs at enabled with running
  rcases inv.handle code act with ⟨access, hrun⟩ | ⟨next, hrun, hinv⟩
  · -- the memory and the files stay as they were
    rw [hrun] at enabled
    rw [← Option.some.inj enabled]
    exact ⟨by simp, inv.sound, by simp⟩
  · rw [hrun] at enabled
    rw [← Option.some.inj enabled]
    exact hinv

theorem httpInv_fresh : HttpInv freshHttp where
  safe := by simp [freshHttp]
  sound := by
    show WorldInv ⟨[], [], []⟩ none
    constructor
    · simp
    · simp [pending]
    · exact ⟨[], rfl, rfl, rfl, by simp⟩
    · simp [opens]
    · simp [opens]
    · exact past_nil
  done := by simp [freshHttp]

/-- The ledger of a session, whatever is there. -/
theorem Sound.worldInv {pointer : Option Nat} (sound : Sound world pointer) :
    ∃ current, WorldInv world current ∧ current.map Prod.fst = pointer := by
  cases pointer with
  | none => exact ⟨none, sound, rfl⟩
  | some session =>
      rcases sound with ⟨content, fileName, inv, -⟩
      exact ⟨some (session, content), inv, rfl⟩

theorem WorldInv.once {current : Option (Nat × HttpSession)} (inv : WorldInv world current) :
    (closes world.log).Nodup ∧ (reports world.log).Nodup := by
  rcases inv.ledger with ⟨settled, hopens, hcloses, hreports, -⟩
  rcases inv.distinct with ⟨hsessions, hfiles⟩
  rw [hopens, List.map_append, List.nodup_append] at hsessions hfiles
  rw [hcloses, hreports]
  exact ⟨hfiles.1, hsessions.1⟩

/-- When no session is there, all files are settled. -/
theorem WorldInv.settled (inv : WorldInv world none) : Settled world.log := by
  intro request listed
  rcases inv.once with ⟨hcloses, hreports⟩
  rcases inv.ledger with ⟨settled, hopens, hclosed, hreported, -⟩
  rw [pending, List.append_nil] at hopens
  rw [hopens] at listed
  constructor
  · apply List.count_eq_one_of_mem hcloses
    rw [hclosed]
    exact List.mem_map_of_mem listed
  · apply List.count_eq_one_of_mem hreports
    rw [hreported]
    exact List.mem_map_of_mem listed

theorem HttpInv.httpOk (inv : HttpInv state) (code : Reconstruction) : HttpOk code state := by
  rcases inv.sound.worldInv with ⟨current, hinv, hcurrent⟩
  constructor
  · exact inv.safe
  · exact hinv.timely
  · exact hinv.once
  · intro running unzipped
    rcases endingSessionHandler_returns inv.sound unzipped with ⟨target, hrun, hended, -, hopens⟩
    refine ⟨{ target with phase := .ended }, ?_, rfl, hopens, hended.settled⟩
    simp only [httpStep, if_pos running, httpHandle, hrun]
    rfl
  · intro ended
    rw [inv.done ended] at hcurrent
    rw [Option.map_eq_none_iff.mp hcurrent] at hinv
    exact hinv.settled

/-- In every state of every TCP session, whatever handlers were called and whichever files could
be opened, no freed session and no closed file was used, and the end of the session can be
handled and leaves each file that was opened closed once and reported once. -/
theorem httpOk_of_reachable (code : Reconstruction) (reached : (httpMachine code).Reachable state) :
    HttpOk code state := by
  have hinv : HttpInv state := by
    apply reached.invariant HttpInv
    · rintro start rfl
      exact httpInv_fresh
    · intro before act after inv enabled
      exact inv.step enabled
  exact hinv.httpOk code

/-- Paths that tell the extension and no encoding, and no chunks. -/
def plainReconstruction : Reconstruction where
  fullPath name extension := .of (name.bytes ++ 46 :: extension.bytes)
  openPath path _ := path
  chunkDecode _ := .ok []

/-- A packet with a response of a few characters. -/
def samplePacket : HttpPacket where
  ts := ⟨1, 0⟩
  sessionId := 7
  host := some (bytesOf "a.org")
  uri := some (bytesOf "/b")
  response := bytesOf "200 OK"
  contentLength := 2
  fileExtension := .ofText "txt"
  contentEncoding := none
  transferEncoding := none
  tcpSrcPort := 80
  tcpPayload := some (bytesOf "HTTP/1.1 200 OK\r\n\r\nx")

/-- Two requests: a file that cannot be opened at first, and one that is still open at the end. -/
def twoRequests : List HttpAct :=
  [.data (some 80) [1], .method samplePacket false, .response samplePacket false false,
    .response samplePacket true false, .data (some 80) [121], .messageEnd false,
    .method samplePacket false, .response samplePacket true false, .ending false]

/-- Before the end the first file is settled and the second one is open, and the end settles
it. -/
theorem httpOk_of_reachable_twoRequests :
    let before := (httpMachine plainReconstruction).after twoRequests.dropLast freshHttp
    let after := (httpMachine plainReconstruction).after twoRequests freshHttp
    before.phase = .running ∧ after.phase = .ended ∧
      opens before.world.log = [(0, 0), (1, 1)] ∧ closes before.world.log = [0] ∧
      reports before.world.log = [0] ∧
      closes after.world.log = [0, 1] ∧ reports after.world.log = [0, 1] ∧
      HttpOk plainReconstruction before ∧ HttpOk plainReconstruction after := by
  have hbefore : ((httpMachine plainReconstruction).run twoRequests.dropLast freshHttp).isSome =
      true := by
    decide +kernel
  have hafter : ((httpMachine plainReconstruction).run twoRequests freshHttp).isSome = true := by
    decide +kernel
  refine ⟨by decide +kernel, by decide +kernel, by decide +kernel, by decide +kernel,
    by decide +kernel, by decide +kernel, by decide +kernel, ?_, ?_⟩
  · exact httpOk_of_reachable plainReconstruction (Machine.reachable_after rfl hbefore)
  · exact httpOk_of_reachable plainReconstruction (Machine.reachable_after rfl hafter)

end MmtProbe.Dpi
