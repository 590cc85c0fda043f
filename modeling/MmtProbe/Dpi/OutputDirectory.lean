/-
# Reconstructed files stay in the output directory

The host and the URI of a request come from the peers.  Their slashes are replaced when
the request is named, so the path of the first file that a session tries to open is in
the directory of the configuration.  But the session keeps the full path in the place of
its name, and when the file could not be opened another response starts from there: the
directory stands twice in the second path.

The names are computed in the arrays of the handlers, over the machine of the HTTP
sessions, and each path that is given to `fopen` is kept, whether a file was opened or
not.
-/

import MmtProbe.Dpi.FilePath
import MmtProbe.Dpi.HttpLifeCycle

namespace MmtProbe.Dpi

open MmtProbe.Math MmtProbe.Lib MmtProbe.Output

/-! ## The names of a run -/

/-- The names that `_create_file` computes; `outside` is what its comparison finds before the
array. -/
def fileNames (directory : CString) (outside : Bool)
    (chunkDecode : List UInt8 → Except Fault (List UInt8)) : Reconstruction where
  fullPath sessionName fileExtension :=
    ⟨storedName ((needsExtension (some outside) (builtName directory sessionName)
        fileExtension.bytes).getD true) (builtName directory sessionName) fileExtension.bytes,
      plain_storedName (plain_builtName directory sessionName) _ fileExtension⟩
  openPath path contentEncoding :=
    ⟨openedName path.bytes contentEncoding, plain_openedName path.plain contentEncoding⟩
  chunkDecode := chunkDecode

/-- The next handler, what its array holds when it is called and what is before the array. The
extension of a response was looked up. -/
structure NameAct where
  act : HttpAct
  array : PathArray
  outside : Bool
  lookedUp : ∀ packet opens unzipped, act = .response packet opens unzipped →
    ∃ contentType, packet.fileExtension = getExtensionFromContentType contentType

/-- A path was given to `fopen`, and a file was opened or not. -/
structure Attempt where
  session : Nat
  outcome : Except Stop (List UInt8)
  opened : Bool

/-- The HTTP sessions, what the requests have written in their arrays, and the paths. -/
structure NamedState where
  http : HttpState
  names : List (Except Fault (List UInt8))
  attempts : List Attempt

/-- What a request writes in its array. -/
def NameAct.named (label : NameAct) : List (Except Fault (List UInt8)) :=
  match label.act with
  | .method packet _ => [methodFileName label.array packet]
  | _ => []

/-- The path that a response gives to `fopen`, when it comes so far. -/
def NameAct.attempted (label : NameAct) (directory : CString) (http : HttpState) : List Attempt :=
  match label.act with
  | .response packet opens _ =>
      if sameChars packet.response (bytesOf "200 OK") = false then []
      else
        match http.httpSession with
        | none => []
        | some session =>
            match http.world.load session with
            | .error _ => []
            | .ok content =>
                match content.file, content.fileName with
                | none, some sessionName =>
                    [⟨session, (createFileName (some label.outside) label.array directory
                      sessionName packet.fileExtension packet.contentEncoding).map Prod.snd,
                      opens⟩]
                | _, _ => []
  | _ => []

/-- The sessions with the names of their files. -/
def namedMachine (directory : CString) (chunkDecode : List UInt8 → Except Fault (List UInt8)) :
    Machine NamedState NameAct where
  init state := state = ⟨freshHttp, [], []⟩
  step state label :=
    (httpStep (fileNames directory label.outside chunkDecode) state.http label.act).map fun http =>
      ⟨http, state.names ++ label.named, state.attempts ++ label.attempted directory state.http⟩

/-- An earlier file of the session could not be opened. -/
def Refused (attempts : List Attempt) (session : Nat) : Prop :=
  ∃ attempt ∈ attempts, attempt.session = session ∧ attempt.opened = false

/-- No response comes to `_create_file` again after a file of its session could not be
opened. -/
def NoSecondTry (attempts : List Attempt) : Prop :=
  Past (fun before attempt => ¬ Refused before attempt.session) attempts

/-- Every write was inside its array, and every path is in the directory. -/
def KeepsToDirectory (directory : CString) (state : NamedState) : Prop :=
  (∀ result ∈ state.names, ∃ name, result = .ok name) ∧
    ∀ attempt ∈ state.attempts, ∃ path, attempt.outcome = .ok path ∧ InDirectory directory path

/-! ## What the handlers do to a name -/

section Handlers

variable {world target : HttpWorld} {session : Nat} {content : HttpSession}

/-- The session has a name, and a file or not. -/
def Holds (world : HttpWorld) (session : Nat) (sessionName : CString) (isOpen : Bool) : Prop :=
  ∃ content, world.load session = .ok content ∧ content.fileName = some sessionName ∧
    content.file.isSome = isOpen

/-- Neither the name of the session nor whether it has a file changes. -/
structure KeepsName (session : Nat) (world target : HttpWorld) : Prop where
  size : target.heap.length = world.heap.length
  name : ∀ sessionName isOpen, Holds world session sessionName isOpen →
    Holds target session sessionName isOpen
  log : world.log ⊆ target.log

theorem KeepsName.refl (session : Nat) (world : HttpWorld) : KeepsName session world world :=
  ⟨rfl, fun _ _ holds => holds, List.Subset.refl _⟩

theorem KeepsName.trans {middle : HttpWorld} (first : KeepsName session world middle)
    (second : KeepsName session middle target) : KeepsName session world target :=
  ⟨second.size.trans first.size, fun _ _ holds => second.name _ _ (first.name _ _ holds),
    List.Subset.trans first.log second.log⟩

theorem inside_of_load (loaded : world.load session = .ok content) :
    session < world.heap.length := by
  by_contra houtside
  rw [HttpWorld.load, List.getElem?_eq_none (Nat.not_lt.mp houtside)] at loaded
  cases loaded

theorem store_ok (stored : world.store session content = .ok target) :
    target.load session = .ok content ∧ target.heap.length = world.heap.length ∧
      target.log = world.log := by
  rcases bind_eq_ok_iff.mp stored with ⟨old, hold, hset⟩
  cases hset
  have hinside := inside_of_load hold
  refine ⟨?_, List.length_set, rfl⟩
  rw [HttpWorld.load]
  simp only [List.getElem?_set_self hinside]

theorem KeepsName.of_store {old : HttpSession} (loaded : world.load session = .ok old)
    (stored : world.store session content = .ok target) (sameName : content.fileName = old.fileName)
    (sameFile : content.file = old.file) : KeepsName session world target := by
  rcases store_ok stored with ⟨hload, hsize, hlog⟩
  refine ⟨hsize, ?_, by rw [hlog]; exact List.Subset.refl _⟩
  rintro sessionName isOpen ⟨other, hother, hname, hfile⟩
  rw [loaded] at hother
  cases hother
  exact ⟨content, hload, by rw [sameName, hname], by rw [sameFile, hfile]⟩

theorem KeepsName.of_fwrite {file : Nat} {data : List UInt8}
    (written : world.fwrite file data = .ok target) : KeepsName session world target := by
  unfold HttpWorld.fwrite at written
  split_ifs at written
  cases written
  exact ⟨rfl, fun _ _ holds => holds, List.subset_append_left _ _⟩

theorem KeepsName.of_appendData {data : List UInt8}
    (appended : appendData world session data = .ok target) : KeepsName session world target := by
  rcases bind_eq_ok_iff.mp appended with ⟨content, hload, hrest⟩
  cases hfile : content.file with
  | none =>
      rw [hfile] at hrest
      cases hrest
      exact .refl session _
  | some file =>
      rw [hfile] at hrest
      rcases bind_eq_ok_iff.mp hrest with ⟨written, hwrite, hstore⟩
      have hsame : written.load session = .ok content := by
        unfold HttpWorld.fwrite at hwrite
        split_ifs at hwrite
        cases hwrite
        exact hload
      exact (KeepsName.of_fwrite hwrite).trans (.of_store hsame hstore rfl hfile.symm)

theorem KeepsName.of_startFile {code : Reconstruction} {packet : HttpPacket}
    (started : startFile code world session packet = .ok target) :
    KeepsName session world target := by
  rcases bind_eq_ok_iff.mp started with ⟨content, hload, hrest⟩
  cases hfile : content.file with
  | none =>
      rw [hfile] at hrest
      cases hrest
      exact .refl session _
  | some file =>
      rw [hfile] at hrest
      rcases bind_eq_ok_iff.mp hrest with ⟨middle, hstore, hchunk⟩
      have hkeeps := KeepsName.of_store hload hstore rfl hfile.symm
      rcases bind_eq_ok_iff.mp hchunk with ⟨part, -, hchunk⟩
      split at hchunk
      · cases hchunk
        exact hkeeps
      · exact hkeeps.trans (.of_appendData hchunk)

theorem createFile_ok {code : Reconstruction} {fileExtension sessionName : CString} {opens : Bool}
    (loaded : world.load session = .ok content) (named : content.fileName = some sessionName)
    (created : createFile code world session fileExtension opens = .ok target) :
    target.heap.length = world.heap.length ∧
      Holds target session (code.fullPath sessionName fileExtension) opens ∧
      (opens = true → .opened session world.files.length
        (code.openPath (code.fullPath sessionName fileExtension) content.contentEncoding) ∈
          target.log) := by
  rw [createFile, loaded, bind_ok, named] at created
  cases opens with
  | true =>
      rcases store_ok created with ⟨hload, hsize, hlog⟩
      exact ⟨hsize, ⟨_, hload, rfl, rfl⟩, fun _ => by
        rw [hlog]
        exact List.mem_append_right _ (List.mem_singleton.mpr rfl)⟩
  | false =>
      rcases store_ok created with ⟨hload, hsize, -⟩
      exact ⟨hsize, ⟨_, hload, rfl, rfl⟩, fun hopens => by cases hopens⟩

/-- The end of a session frees it, and the memory keeps its size. -/
theorem size_of_flush {pointer : Option Nat} {unzipped : Bool}
    (flushed : httpReconstructFlushSessionToFileAndFree world pointer unzipped = .ok target) :
    target.heap.length = world.heap.length := by
  cases pointer with
  | none =>
      cases flushed
      rfl
  | some session =>
      rcases bind_eq_ok_iff.mp flushed with ⟨content, -, hrest⟩
      rcases bind_eq_ok_iff.mp hrest with ⟨middle, hfile, hfree⟩
      rcases bind_eq_ok_iff.mp hfree with ⟨_, -, hset⟩
      cases hset
      rw [List.length_set]
      unfold HttpWorld.flushToFile at hfile
      split at hfile
      · cases hfile
        rfl
      · rcases bind_eq_ok_iff.mp hfile with ⟨closed, hclose, hreport⟩
        unfold HttpWorld.fclose at hclose
        split_ifs at hclose
        cases hclose
        unfold HttpWorld.report at hreport
        split at hreport
        · cases hreport
        · cases hreport
          rfl

variable {state next : HttpState}

/-- A request has a session of its own, which has the name of the request and no file. -/
theorem httpMethodHandle_ok {packet : HttpPacket} {unzipped : Bool}
    (handled : httpMethodHandle state packet unzipped = .ok next) :
    next.httpSession = some state.world.heap.length ∧
      next.world.heap.length = state.world.heap.length + 1 ∧
      Holds next.world state.world.heap.length (requestName packet) false := by
  rcases bind_eq_ok_iff.mp handled with ⟨flushed, hflush, hrest⟩
  have hsize := size_of_flush hflush
  simp only [HttpWorld.alloc] at hrest
  rcases bind_eq_ok_iff.mp hrest with ⟨content, hload, hrest⟩
  rcases bind_eq_ok_iff.mp hrest with ⟨named, hstore, hnext⟩
  cases hnext
  rcases store_ok hstore with ⟨hnamed, hlength, -⟩
  rw [List.length_append, List.length_singleton] at hlength
  have hcontent : content = { HttpSession.zero with ts := packet.ts } := by
    rw [HttpWorld.load] at hload
    simp only [List.getElem?_concat_length] at hload
    exact (Except.ok.inj hload).symm
  refine ⟨congrArg some hsize, by rw [← hsize]; exact hlength, ?_⟩
  rw [← hsize]
  exact ⟨_, hnamed, rfl, by rw [hcontent]; rfl⟩

/-- A response that has to open a file gives the session its full path. -/
theorem httpResponseHandle_ok {code : Reconstruction} {packet : HttpPacket} {opens unzipped : Bool}
    {sessionName : CString} (right : sameChars packet.response (bytesOf "200 OK") ≠ false)
    (pointer : state.httpSession = some session)
    (loaded : state.world.load session = .ok content) (noFile : content.file = none)
    (named : content.fileName = some sessionName)
    (handled : httpResponseHandle code state packet opens unzipped = .ok next) :
    next.httpSession = some session ∧ next.world.heap.length = state.world.heap.length ∧
      Holds next.world session (code.fullPath sessionName packet.fileExtension) opens ∧
      (opens = true → ∃ file, .opened session file
        (code.openPath (code.fullPath sessionName packet.fileExtension) packet.contentEncoding) ∈
          next.world.log) := by
  have hfile : ¬ content.file.isSome = true := by rw [noFile]; exact Bool.false_ne_true
  have hname : ¬ content.fileName.isNone = true := by rw [named]; exact Bool.false_ne_true
  simp only [httpResponseHandle, if_neg right, pointer, loaded, bind_ok, if_neg hfile,
    if_neg hname] at handled
  rcases bind_eq_ok_iff.mp handled with ⟨first, hfirst, hrest⟩
  rcases bind_eq_ok_iff.mp hrest with ⟨second, hsecond, hrest⟩
  rcases bind_eq_ok_iff.mp hrest with ⟨third, hthird, hnext⟩
  cases hnext
  rcases store_ok hfirst with ⟨hload, hsize, -⟩
  rcases createFile_ok hload named hsecond with ⟨hsize', hholds, hopened⟩
  have hkeeps := KeepsName.of_startFile hthird
  exact ⟨rfl, hkeeps.size.trans (hsize'.trans hsize), hkeeps.name _ _ hholds,
    fun hopens => ⟨_, hkeeps.log (hopened hopens)⟩⟩

/-- Another response changes nothing. -/
theorem httpResponseHandle_same {code : Reconstruction} {packet : HttpPacket}
    {opens unzipped : Bool} (skipped : sameChars packet.response (bytesOf "200 OK") = false ∨
      state.httpSession = none ∨ ∃ session content, state.httpSession = some session ∧
        state.world.load session = .ok content ∧ content.file.isSome = true)
    (handled : httpResponseHandle code state packet opens unzipped = .ok next) : next = state := by
  unfold httpResponseHandle at handled
  rcases skipped with hline | hpointer | ⟨session, content, hpointer, hload, hfile⟩
  · rw [if_pos hline] at handled
    exact (Except.ok.inj handled).symm
  · split_ifs at handled
    · exact (Except.ok.inj handled).symm
    · rw [hpointer] at handled
      exact (Except.ok.inj handled).symm
  · split_ifs at handled
    · exact (Except.ok.inj handled).symm
    · simp only [hpointer, hload, bind_ok, if_pos hfile] at handled
      exact (Except.ok.inj handled).symm

/-- Data, the end of a message and the end of the TCP session keep the session with its name,
or leave none. -/
theorem otherHandler_ok {code : Reconstruction} {act : HttpAct}
    (other : (∃ srcPort data, act = .data srcPort data) ∨ (∃ unzipped, act = .messageEnd unzipped) ∨
      ∃ unzipped, act = .ending unzipped)
    (handled : httpHandle code state act = .ok next) :
    next.world.heap.length = state.world.heap.length ∧
      (next.httpSession = none ∨ next.httpSession = state.httpSession ∧
        ∀ session, state.httpSession = some session →
          KeepsName session state.world next.world) := by
  rcases other with ⟨srcPort, data, rfl⟩ | ⟨unzipped, rfl⟩ | ⟨unzipped, rfl⟩
  · change httpDataHandle state srcPort data = .ok next at handled
    unfold httpDataHandle at handled
    cases hpointer : state.httpSession with
    | none =>
        rw [hpointer] at handled
        cases handled
        exact ⟨rfl, .inl hpointer⟩
    | some session =>
        simp only [hpointer] at handled
        rcases bind_eq_ok_iff.mp handled with ⟨content, -, hrest⟩
        split_ifs at hrest
        · cases hrest
          exact ⟨rfl, .inr ⟨hpointer, fun _ _ => .refl _ _⟩⟩
        · cases hrest
          exact ⟨rfl, .inr ⟨hpointer, fun _ _ => .refl _ _⟩⟩
        · rcases bind_eq_ok_iff.mp hrest with ⟨appended, happend, hnext⟩
          cases hnext
          have hkeeps := KeepsName.of_appendData happend
          refine ⟨hkeeps.size, .inr ⟨rfl, ?_⟩⟩
          rintro other hother
          cases hother
          exact hkeeps
  · change httpEndMessageHandle state unzipped = .ok next at handled
    unfold httpEndMessageHandle at handled
    cases hpointer : state.httpSession with
    | none =>
        rw [hpointer] at handled
        cases handled
        exact ⟨rfl, .inl hpointer⟩
    | some session =>
        simp only [hpointer] at handled
        rcases bind_eq_ok_iff.mp handled with ⟨content, -, hrest⟩
        split_ifs at hrest
        · cases hrest
          exact ⟨rfl, .inr ⟨hpointer, fun _ _ => .refl _ _⟩⟩
        · rcases bind_eq_ok_iff.mp hrest with ⟨flushed, hflush, hnext⟩
          cases hnext
          exact ⟨size_of_flush hflush, .inl rfl⟩
  · change endingSessionHandler state unzipped = .ok next at handled
    rcases bind_eq_ok_iff.mp handled with ⟨flushed, hflush, hnext⟩
    cases hnext
    exact ⟨size_of_flush hflush, .inl rfl⟩

end Handlers

/-! ## What a session keeps -/

/-- What is known of the name of a session without a file. -/
structure NameKept (directory : CString) (refused : Prop) (sessionName : CString) : Prop where
  /-- At first it is the name of a request. -/
  fresh : ¬ refused → Flat sessionName.bytes
  /-- Later it begins with the directory. -/
  again : refused → directory.bytes.take 254 <+: sessionName.bytes
  /-- Without a slash in the directory there is none in it. -/
  flat : FlatTwice directory → Flat (sessionName.bytes.take (nameRoom directory))

section Kept

variable {directory sessionName : CString} {refused : Prop}

/-- What fits of the name is flat, unless it begins with a directory that is not. -/
theorem NameKept.flat_iff (kept : NameKept directory refused sessionName) :
    Flat (sessionName.bytes.take (nameRoom directory)) ↔ FlatTwice directory ∨ ¬ refused := by
  constructor
  · intro hflat
    by_cases hrefused : refused
    · left
      have hstart : directory.bytes.take (nameRoom directory) <+:
          sessionName.bytes.take (nameRoom directory) := by
        rcases kept.again hrefused with ⟨more, hmore⟩
        rw [← hmore, List.take_append, List.take_take,
          Nat.min_eq_left (by unfold nameRoom; omega)]
        exact List.prefix_append _ _
      exact hflat.subset hstart.subset
    · exact .inr hrefused
  · rintro (hdirectory | hfresh)
    · exact kept.flat hdirectory
    · exact (kept.fresh hfresh).take _

/-- A file that could not be opened leaves the full path in the place of the name. -/
theorem NameKept.refuse (kept : NameKept directory refused sessionName) {path : CString}
    {tail : List UInt8} (flatTail : Flat tail)
    (full : path.bytes =
      (directory.bytes ++ (bytesOf "mmt-" ++ (sessionName.bytes ++ tail))).take 254) :
    NameKept directory True path where
  fresh hnot := absurd trivial hnot
  again _ := by
    rw [full, List.take_append]
    exact List.prefix_append _ _
  flat hdirectory := by
    have hname := kept.flat hdirectory
    rw [full, List.take_take, Nat.min_eq_left (by unfold nameRoom; omega), List.take_append,
      List.take_append]
    refine Flat.append hdirectory (Flat.append (flat_mmt.take _) ?_)
    rw [List.take_append]
    refine Flat.append (hname.subset ?_) (flatTail.take _)
    exact List.take_subset_take_left _ (by omega)

/-- Where a path stands that is made of a name that was kept. -/
theorem NameKept.inDirectory_iff (kept : NameKept directory refused sessionName) {tail : List UInt8}
    (flatTail : Flat tail) :
    InDirectory directory
        ((directory.bytes ++ (bytesOf "mmt-" ++ (sessionName.bytes ++ tail))).take 254) ↔
      FlatTwice directory ∨ ¬ refused := by
  rw [inDirectory_take_iff, ← kept.flat_iff, List.take_append]
  constructor
  · intro hflat
    exact hflat.subset (List.subset_append_left _ _)
  · intro hflat
    exact hflat.append (flatTail.take _)

end Kept

/-! ## Whole runs -/

/-- A path is in the directory, unless it is made of a path. -/
def MadeInside (directory : CString) (before : List Attempt) (attempt : Attempt) : Prop :=
  ∃ path, attempt.outcome = .ok path ∧
    (InDirectory directory path ↔ FlatTwice directory ∨ ¬ Refused before attempt.session)

/-- What holds in every state of a run. -/
structure NamesInv (directory : CString) (state : NamedState) : Prop where
  http : HttpInv state.http
  /-- The sessions that tried to open a file were allocated. -/
  known : ∀ attempt ∈ state.attempts, attempt.session < state.http.world.heap.length
  /-- The session that is there, as long as it has no file. -/
  current : state.http.phase = .running →
    ∀ session sessionName, state.http.httpSession = some session →
    Holds state.http.world session sessionName false →
      NameKept directory (Refused state.attempts session) sessionName
  /-- The requests have written inside their arrays. -/
  written : ∀ result ∈ state.names, ∃ name, result = .ok name
  tried : Past (MadeInside directory) state.attempts

section Runs

variable {directory : CString} {chunkDecode : List UInt8 → Except Fault (List UInt8)}

theorem not_refused_of_known {attempts : List Attempt} {size : Nat}
    (known : ∀ attempt ∈ attempts, attempt.session < size) : ¬ Refused attempts size := by
  rintro ⟨attempt, hattempt, rfl, -⟩
  exact Nat.lt_irrefl _ (known attempt hattempt)

/-- The checked code computes the names of `fileNames`. -/
theorem createFileName_fileNames (outside : Bool) (array : PathArray)
    (directory sessionName fileExtension : CString) (contentEncoding : Option ContentEncoding) :
    createFileName (some outside) array directory sessionName fileExtension contentEncoding =
      .ok (((fileNames directory outside chunkDecode).fullPath sessionName fileExtension).bytes ++
          [0],
        ((fileNames directory outside chunkDecode).openPath
          ((fileNames directory outside chunkDecode).fullPath sessionName fileExtension)
            contentEncoding).bytes) := by
  rw [createFileName_eq]
  cases hneeds : needsExtension (some outside) (builtName directory sessionName)
      fileExtension.bytes with
  | none =>
      unfold needsExtension at hneeds
      split_ifs at hneeds
  | some needs => simp only [fileNames, hneeds, Option.getD_some]

/-- Both names of a response, in terms of the name that the session had. -/
theorem fileNames_eq (outside : Bool) (directory sessionName : CString) {fileExtension : CString}
    (flat : Flat fileExtension.bytes) (contentEncoding : Option ContentEncoding) :
    ∃ tail more, Flat tail ∧ Flat more ∧
      ((fileNames directory outside chunkDecode).fullPath sessionName fileExtension).bytes =
        (directory.bytes ++ (bytesOf "mmt-" ++ (sessionName.bytes ++ tail))).take 254 ∧
      ((fileNames directory outside chunkDecode).openPath
          ((fileNames directory outside chunkDecode).fullPath sessionName fileExtension)
            contentEncoding).bytes =
        (directory.bytes ++ (bytesOf "mmt-" ++ (sessionName.bytes ++ more))).take 254 := by
  rcases storedName_eq ((needsExtension (some outside) (builtName directory sessionName)
    fileExtension.bytes).getD true) directory sessionName flat with ⟨tail, htail, hstored⟩
  rcases openedName_eq hstored contentEncoding with ⟨more, hmore, hopened⟩
  refine ⟨tail, tail ++ more, htail, htail.append hmore, hstored, ?_⟩
  simp only [List.append_assoc] at hopened ⊢
  exact hopened

theorem NamesInv.init : NamesInv directory ⟨freshHttp, [], []⟩ where
  http := httpInv_fresh
  known := List.forall_mem_nil _
  current := by
    intro _ session sessionName hpointer
    cases hpointer
  written := List.forall_mem_nil _
  tried := past_nil

variable {state : NamedState} {next : HttpState} {phase : HttpPhase}

/-- A handler that tries to open no file and keeps the name of the session, or leaves none. -/
theorem NamesInv.quiet (inv : NamesInv directory state) (running : state.http.phase = .running)
    (http : HttpInv next)
    (size : next.world.heap.length = state.http.world.heap.length)
    (pointer : next.httpSession = none ∨ next.httpSession = state.http.httpSession ∧
      ∀ session sessionName, state.http.httpSession = some session →
        Holds next.world session sessionName false →
          Holds state.http.world session sessionName false) :
    NamesInv directory ⟨next, state.names ++ [], state.attempts ++ []⟩ := by
  rw [List.append_nil, List.append_nil]
  refine ⟨http, ?_, ?_, inv.written, inv.tried⟩
  · intro attempt hattempt
    exact Nat.lt_of_lt_of_eq (inv.known attempt hattempt) size.symm
  · intro _ session sessionName hsession hholds
    rcases pointer with hnone | ⟨hsame, hback⟩
    · rw [hnone] at hsession
      cases hsession
    · rw [hsame] at hsession
      exact inv.current running session sessionName hsession
        (hback session sessionName hsession hholds)

/-- The session that is there has a name. -/
theorem HttpInv.exists_holds {state : HttpState} (inv : HttpInv state) {session : Nat}
    (pointer : state.httpSession = some session) :
    ∃ content sessionName, state.world.load session = .ok content ∧
      content.fileName = some sessionName := by
  have hsound := inv.sound
  rw [pointer] at hsound
  rcases hsound with ⟨content, sessionName, hworld, hname⟩
  exact ⟨content, sessionName, hworld.load, hname⟩

theorem KeepsName.back {world target : HttpWorld} {session : Nat} {content : HttpSession}
    {first : CString} (keeps : KeepsName session world target)
    (loaded : world.load session = .ok content) (named : content.fileName = some first)
    {second : CString} {isOpen : Bool} (holds : Holds target session second isOpen) :
    Holds world session second isOpen := by
  rcases keeps.name first content.file.isSome ⟨content, loaded, named, rfl⟩ with
    ⟨kept, hkept, hname, hfile⟩
  rcases holds with ⟨other, hother, hname', hfile'⟩
  rw [hkept] at hother
  cases hother
  rw [hname] at hname'
  cases hname'
  exact ⟨content, loaded, named, hfile.symm.trans hfile'⟩

/-- A request. -/
theorem NamesInv.method (inv : NamesInv directory state)
    (http : HttpInv { next with phase := phase }) {packet : HttpPacket} {unzipped : Bool}
    (handled : httpMethodHandle state.http packet unzipped = .ok next) (array : PathArray) :
    NamesInv directory
      ⟨{ next with phase := phase }, state.names ++ [methodFileName array packet],
        state.attempts ++ []⟩ := by
  rcases httpMethodHandle_ok handled with ⟨hpointer, hsize, hholds⟩
  rw [List.append_nil]
  refine ⟨http, ?_, ?_, ?_, inv.tried⟩
  · intro attempt hattempt
    have hlt := inv.known attempt hattempt
    show attempt.session < next.world.heap.length
    rw [hsize]
    omega
  · intro _ session sessionName hsession hother
    have hnew : next.httpSession = some session := hsession
    rw [hpointer] at hnew
    cases hnew
    have hname : sessionName = requestName packet := by
      rcases hholds with ⟨content, hload, hnamed, -⟩
      rcases hother with ⟨other, hload', hnamed', -⟩
      rw [hload] at hload'
      cases hload'
      exact Option.some.inj (hnamed'.symm.trans hnamed)
    rw [hname]
    refine ⟨fun _ => flat_requestName packet, ?_, fun _ => (flat_requestName packet).take _⟩
    intro hrefused
    exact absurd hrefused (not_refused_of_known inv.known)
  · intro result hresult
    rcases List.mem_append.mp hresult with hbefore | hnew
    · exact inv.written result hbefore
    · rw [List.mem_singleton.mp hnew, methodFileName_eq]
      exact ⟨_, rfl⟩

/-- The path that a response gives to `fopen`. -/
theorem NamesInv.tries (inv : NamesInv directory state) (running : state.http.phase = .running)
    {packet : HttpPacket} {session : Nat} {content : HttpSession} {sessionName : CString}
    (flat : Flat packet.fileExtension.bytes) (pointer : state.http.httpSession = some session)
    (loaded : state.http.world.load session = .ok content) (noFile : content.file = none)
    (named : content.fileName = some sessionName) (opens outside : Bool) (array : PathArray) :
    let attempts := state.attempts ++ [⟨session, (createFileName (some outside) array directory
      sessionName packet.fileExtension packet.contentEncoding).map Prod.snd, opens⟩]
    (∀ attempt ∈ attempts, attempt.session < state.http.world.heap.length) ∧
      Past (MadeInside directory) attempts := by
  have hkept := inv.current running session sessionName pointer
    ⟨content, loaded, named, by rw [noFile]; rfl⟩
  rcases @fileNames_eq .ok outside directory sessionName packet.fileExtension flat
    packet.contentEncoding with ⟨tail, more, -, hmore, -, hopened⟩
  refine ⟨?_, inv.tried.concat ?_⟩
  · intro attempt hattempt
    rcases List.mem_append.mp hattempt with hbefore | hnew
    · exact inv.known attempt hbefore
    · rw [List.mem_singleton.mp hnew]
      exact inside_of_load loaded
  · refine ⟨_, by rw [@createFileName_fileNames .ok]; rfl, ?_⟩
    rw [hopened]
    exact hkept.inDirectory_iff hmore

/-- A response that gives a path to `fopen`. -/
theorem NamesInv.attempt (inv : NamesInv directory state) (running : state.http.phase = .running)
    (http : HttpInv { next with phase := phase }) {packet : HttpPacket}
    {opens unzipped outside : Bool} {session : Nat} {content : HttpSession}
    {sessionName : CString} (flat : Flat packet.fileExtension.bytes)
    (right : sameChars packet.response (bytesOf "200 OK") ≠ false)
    (pointer : state.http.httpSession = some session)
    (loaded : state.http.world.load session = .ok content) (noFile : content.file = none)
    (named : content.fileName = some sessionName)
    (handled : httpResponseHandle (fileNames directory outside chunkDecode) state.http packet opens
      unzipped = .ok next) (array : PathArray) :
    NamesInv directory ⟨{ next with phase := phase }, state.names ++ [], state.attempts ++
      [⟨session, (createFileName (some outside) array directory sessionName packet.fileExtension
        packet.contentEncoding).map Prod.snd, opens⟩]⟩ := by
  rcases httpResponseHandle_ok right pointer loaded noFile named handled with
    ⟨hpointer, hsize, hholds, -⟩
  have hkept := inv.current running session sessionName pointer
    ⟨content, loaded, named, by rw [noFile]; rfl⟩
  rcases inv.tries running flat pointer loaded noFile named opens outside array with
    ⟨hknown, htried⟩
  rcases @fileNames_eq chunkDecode outside directory sessionName packet.fileExtension flat
    packet.contentEncoding with ⟨tail, more, htail, -, hfull, -⟩
  rw [List.append_nil]
  refine ⟨http, ?_, ?_, inv.written, htried⟩
  · intro attempt hattempt
    show attempt.session < next.world.heap.length
    rw [hsize]
    exact hknown attempt hattempt
  · -- the session has no file, so this one was refused
    intro _ other otherName hother hotherHolds
    have hsame : next.httpSession = some other := hother
    rw [hpointer] at hsame
    cases hsame
    rcases hholds with ⟨after, hload, hname, hfile⟩
    rcases hotherHolds with ⟨after', hload', hname', hfile'⟩
    rw [hload] at hload'
    cases hload'
    rw [hname] at hname'
    cases hname'
    have hrefused : Refused (state.attempts ++ [⟨session, (createFileName (some outside) array
        directory sessionName packet.fileExtension packet.contentEncoding).map Prod.snd, opens⟩])
          session :=
      ⟨_, List.mem_append_right _ (List.mem_singleton.mpr rfl), rfl, hfile.symm.trans hfile'⟩
    have hagain := hkept.refuse htail hfull
    exact ⟨fun hnot => absurd hrefused hnot, fun _ => hagain.again trivial, hagain.flat⟩

/-- A path that was opened is the one in the log of the sessions. -/
theorem opened_of_attempted {http : HttpState} {label : NameAct} {attempt : Attempt}
    (listed : attempt ∈ label.attempted directory http) (opened : attempt.opened = true)
    (handled : httpHandle (fileNames directory label.outside chunkDecode) http label.act =
      .ok next) :
    ∃ file path, attempt.outcome = .ok path.bytes ∧
      .opened attempt.session file path ∈ next.world.log := by
  unfold NameAct.attempted at listed
  split at listed
  · rename_i packet opens unzipped hact
    rw [hact] at handled
    split at listed
    · cases listed
    · rename_i hline
      split at listed
      · cases listed
      · rename_i session hpointer
        split at listed
        · cases listed
        · rename_i content hload
          split at listed
          · rename_i sessionName hfile hname
            rw [List.mem_singleton.mp listed] at opened ⊢
            obtain ⟨file, hlogged⟩ :=
              (httpResponseHandle_ok hline hpointer hload hfile hname handled).2.2.2 opened
            refine ⟨file, _, ?_, hlogged⟩
            rw [@createFileName_fileNames chunkDecode]
            rfl
          · cases listed
  · cases listed

/-- The decoder of chunks has left the packet. The path was given to `fopen` before. -/
theorem NamesInv.failed (inv : NamesInv directory state) (running : state.http.phase = .running)
    {fault : HttpFault} (http : HttpInv { state.http with phase := .failed fault })
    (label : NameAct) :
    NamesInv directory ⟨{ state.http with phase := .failed fault }, state.names ++ label.named,
      state.attempts ++ label.attempted directory state.http⟩ := by
  have htries : (∀ attempt ∈ state.attempts ++ label.attempted directory state.http,
      attempt.session < state.http.world.heap.length) ∧
      Past (MadeInside directory) (state.attempts ++ label.attempted directory state.http) := by
    have hnone : (∀ attempt ∈ state.attempts ++ [],
        attempt.session < state.http.world.heap.length) ∧
          Past (MadeInside directory) (state.attempts ++ []) := by
      rw [List.append_nil]
      exact ⟨inv.known, inv.tried⟩
    unfold NameAct.attempted
    split
    · rename_i packet opens unzipped hact
      rcases label.lookedUp packet opens unzipped hact with ⟨contentType, hextension⟩
      have hflat : Flat packet.fileExtension.bytes := by
        rw [hextension]
        exact flat_getExtensionFromContentType contentType
      split_ifs
      · exact hnone
      · split
        · exact hnone
        · rename_i session hpointer
          split
          · exact hnone
          · rename_i content hload
            split
            · rename_i sessionName hfile hname
              exact inv.tries running hflat hpointer hload hfile hname opens _ _
            · exact hnone
    · exact hnone
  refine ⟨http, htries.1, fun going => HttpPhase.noConfusion going, ?_, htries.2⟩
  intro result hresult
  rcases List.mem_append.mp hresult with hbefore | hnew
  · exact inv.written result hbefore
  · unfold NameAct.named at hnew
    split at hnew
    · rw [List.mem_singleton.mp hnew, methodFileName_eq]
      exact ⟨_, rfl⟩
    · cases hnew

theorem NamesInv.step (inv : NamesInv directory state) {label : NameAct} {target : NamedState}
    (enabled : (namedMachine directory chunkDecode).step state label = some target) :
    NamesInv directory target := by
  rcases Option.map_eq_some_iff.mp enabled with ⟨target, hstep, rfl⟩
  have hhttp := inv.http.step hstep
  have hrunning := running_of_enabled hstep
  simp only [httpStep, if_pos hrunning] at hstep
  cases hrun : httpHandle (fileNames directory label.outside chunkDecode) state.http label.act with
  | error fault =>
      rw [hrun] at hstep
      rw [← Option.some.inj hstep] at hhttp ⊢
      exact inv.failed hrunning hhttp label
  | ok next =>
  rw [hrun] at hstep
  rw [← Option.some.inj hstep] at hhttp ⊢
  have hquiet : ∀ other,
      httpHandle (fileNames directory label.outside chunkDecode) state.http other =
      .ok next → ((∃ srcPort data, other = .data srcPort data) ∨
        (∃ unzipped, other = .messageEnd unzipped) ∨ ∃ unzipped, other = .ending unzipped) →
      NamesInv directory ⟨{ next with phase := label.act.phase }, state.names ++ [],
        state.attempts ++ []⟩ := by
    intro other hother hkind
    rcases otherHandler_ok hkind hother with ⟨hsize, hpointer⟩
    refine inv.quiet hrunning hhttp hsize (hpointer.imp_right fun hsame => ⟨hsame.1, ?_⟩)
    intro session sessionName hsession hholds
    rcases inv.http.exists_holds hsession with ⟨content, name, hload, hname⟩
    exact (hsame.2 session hsession).back hload hname hholds
  rcases label with ⟨act, array, outside, lookedUp⟩
  cases act with
  | method packet unzipped => exact inv.method hhttp hrun array
  | data srcPort data => exact hquiet _ hrun (.inl ⟨srcPort, data, rfl⟩)
  | messageEnd unzipped => exact hquiet _ hrun (.inr (.inl ⟨unzipped, rfl⟩))
  | ending unzipped => exact hquiet _ hrun (.inr (.inr ⟨unzipped, rfl⟩))
  | response packet opens unzipped =>
      change httpResponseHandle _ state.http packet opens unzipped = .ok next at hrun
      have hsame : next = state.http → NamesInv directory
          ⟨{ next with phase := .running }, state.names ++ [], state.attempts ++ []⟩ := by
        rintro rfl
        exact inv.quiet hrunning hhttp rfl (.inr ⟨rfl, fun _ _ _ hholds => hholds⟩)
      simp only [NameAct.named, NameAct.attempted]
      by_cases hline : sameChars packet.response (bytesOf "200 OK") = false
      · rw [if_pos hline]
        exact hsame (httpResponseHandle_same (.inl hline) hrun)
      · rw [if_neg hline]
        cases hpointer : state.http.httpSession with
        | none => exact hsame (httpResponseHandle_same (.inr (.inl hpointer)) hrun)
        | some session =>
            rcases inv.http.exists_holds hpointer with ⟨content, sessionName, hload, hname⟩
            simp only [hload, hname]
            cases hfile : content.file with
            | some file =>
                refine hsame (httpResponseHandle_same (.inr (.inr ?_)) hrun)
                exact ⟨session, content, hpointer, hload, by rw [hfile]; rfl⟩
            | none =>
                rcases lookedUp packet opens unzipped rfl with ⟨contentType, hextension⟩
                have hflat : Flat packet.fileExtension.bytes := by
                  rw [hextension]
                  exact flat_getExtensionFromContentType contentType
                exact inv.attempt hrunning hhttp hflat hline hpointer hload hfile hname hrun array

/-- In every run, all writes are inside their arrays and all paths in the directory exactly
when the directory has no slash in the part of it that fits behind itself, or no response
opens a file again after one of its session could not be opened. -/
theorem keepsToDirectory_iff (directory : CString)
    (chunkDecode : List UInt8 → Except Fault (List UInt8)) {state : NamedState}
    (reached : (namedMachine directory chunkDecode).Reachable state) :
    KeepsToDirectory directory state ↔
      FlatTwice directory ∨ NoSecondTry state.attempts := by
  have hinv : NamesInv directory state := by
    refine Machine.Reachable.invariant (NamesInv directory) ?_ ?_ reached
    · rintro start rfl
      exact .init
    · intro before label after hinv hstep
      exact hinv.step hstep
  constructor
  · rintro ⟨-, hall⟩
    by_cases hflat : FlatTwice directory
    · exact .inl hflat
    · right
      intro before attempt after hsplit
      rcases hinv.tried before attempt after hsplit with ⟨path, hpath, hiff⟩
      rcases hall attempt (by rw [hsplit]; simp) with ⟨other, hother, hinside⟩
      rw [hpath] at hother
      cases hother
      exact (hiff.mp hinside).resolve_left hflat
  · intro hright
    refine ⟨hinv.written, ?_⟩
    intro attempt hattempt
    rcases List.append_of_mem hattempt with ⟨before, after, hsplit⟩
    rcases hinv.tried before attempt after hsplit with ⟨path, hpath, hiff⟩
    refine ⟨path, hpath, hiff.mpr (hright.imp_right fun htry => ?_)⟩
    exact htry before attempt after hsplit

end Runs

/-- A page, its request and its response. -/
def page : HttpPacket where
  ts := ⟨0, 0⟩
  sessionId := 1
  host := some (bytesOf "a.fr")
  uri := some (bytesOf "/x")
  response := bytesOf "200 OK"
  contentLength := 0
  fileExtension := getExtensionFromContentType (some (bytesOf "text/html"))
  contentEncoding := none
  transferEncoding := none
  tcpSrcPort := 80
  tcpPayload := none

def pageRequest : NameAct where
  act := .method page false
  array := emptyArray
  outside := false
  lookedUp := by
    intro packet opens unzipped hact
    cases hact

def pageResponse (opens : Bool) : NameAct where
  act := .response page opens false
  array := emptyArray
  outside := false
  lookedUp := by
    intro packet opens' unzipped hact
    cases hact
    exact ⟨some (bytesOf "text/html"), rfl⟩

/-- The sessions of one directory, with a decoder of chunks that is not called. -/
def tmpMachine : Machine NamedState NameAct := namedMachine (.ofText "/tmp/") .ok

def freshNames : NamedState := ⟨freshHttp, [], []⟩

theorem keepsToDirectory_iff_first :
    tmpMachine.Reachable (tmpMachine.after [pageRequest, pageResponse true] freshNames) ∧
      KeepsToDirectory (.ofText "/tmp/")
        (tmpMachine.after [pageRequest, pageResponse true] freshNames) := by
  have hreached : tmpMachine.Reachable
      (tmpMachine.after [pageRequest, pageResponse true] freshNames) :=
    Machine.reachable_after rfl (by decide +kernel)
  refine ⟨hreached, (keepsToDirectory_iff _ _ hreached).mpr (.inr ?_)⟩
  have hlength : (tmpMachine.after [pageRequest, pageResponse true]
      freshNames).attempts.length = 1 := by decide +kernel
  rcases List.length_eq_one_iff.mp hlength with ⟨attempt, hattempt⟩
  rw [hattempt, ← List.nil_append [attempt]]
  exact past_nil.concat (by rintro ⟨other, hother, -⟩; cases hother)

/-- After a file that could not be opened, the next path has the directory twice. -/
theorem not_keepsToDirectory_second :
    ∃ state, tmpMachine.Reachable state ∧
      state.attempts.map (fun attempt => (attempt.outcome, attempt.opened)) =
        [(.ok (bytesOf "/tmp/mmt-1-a.fr-=x.html"), false),
          (.ok (bytesOf "/tmp/mmt-/tmp/mmt-1-a.fr-=x.html"), true)] ∧
      ¬ KeepsToDirectory (.ofText "/tmp/") state := by
  have hpaths : (tmpMachine.after [pageRequest, pageResponse false, pageResponse true]
      freshNames).attempts.map (fun attempt => (attempt.outcome, attempt.opened)) =
        [(.ok (bytesOf "/tmp/mmt-1-a.fr-=x.html"), false),
          (.ok (bytesOf "/tmp/mmt-/tmp/mmt-1-a.fr-=x.html"), true)] := by
    decide +kernel
  refine ⟨_, Machine.reachable_after rfl (by decide +kernel), hpaths, ?_⟩
  rintro ⟨-, hall⟩
  obtain ⟨attempt, hattempt, houtcome⟩ : ∃ attempt ∈ (tmpMachine.after
      [pageRequest, pageResponse false, pageResponse true] freshNames).attempts,
        (attempt.outcome, attempt.opened) =
          (.ok (bytesOf "/tmp/mmt-/tmp/mmt-1-a.fr-=x.html"), true) := by
    apply List.mem_map.mp
    rw [hpaths]
    simp
  rcases hall attempt hattempt with ⟨path, hpath, hinside⟩
  rw [(Prod.mk.inj houtcome).1] at hpath
  have hshape : (bytesOf "/tmp/mmt-/tmp/mmt-1-a.fr-=x.html") =
      ((CString.ofText "/tmp/").bytes ++ (bytesOf "mmt-" ++
        bytesOf "/tmp/mmt-1-a.fr-=x.html")).take 254 := by decide +kernel
  rw [← Except.ok.inj hpath, hshape, inDirectory_take_iff] at hinside
  exact absurd hinside (by decide +kernel)

end MmtProbe.Dpi
