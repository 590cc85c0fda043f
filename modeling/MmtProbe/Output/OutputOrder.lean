/-
# Reports are not mixed

`_write` hands a report to one module after the other, and each of these calls is a step of
its own.  When an output is shared by threads it has a mutex, which is held from the first of
these steps to the last.  So the modules see whole reports, one after the other, and all of
them see the reports in one order, that in which the threads got the mutex.

The machine of the locks, which does not say what is written, is refined: a thread that
writes has the strings that its report consists of and hands them on before it unlocks.  The
results are about runs in which no report leaves its arrays: one that does has no step here.
-/

import MmtProbe.Output.OutputLocks

namespace MmtProbe.Output

open MmtProbe.Math MmtProbe.Dpi MmtProbe.Lib

/-! ## Reports and threads -/

/-- What an output is asked for, with the arrays on the stack of the thread. -/
inductive Request
  | writeReport (channels reportType : UInt32) (ts : Timeval) (messageBody : Option CString)
      (message newMsg : ReportArray)
  | writeReportWithFormat (channels reportType : UInt32) (ts : Timeval)
      (format : Option Formatted) (array message newMsg : ReportArray)
  | write (channels : UInt32) (message : CString) (newMsg : ReportArray)
  | flush

def Request.call : Request → OutputCall
  | .writeReport channels _ _ _ _ _ => .writeReport channels
  | .writeReportWithFormat channels _ _ _ _ _ _ => .writeReportWithFormat channels
  | .write channels _ _ => .write channels
  | .flush => .flush

/-- The strings that are handed on for a request, each with its channel. -/
def SharedOutput.strings (shared : SharedOutput) :
    Request → Except Stop (List (Channel × List UInt8))
  | .writeReport channels reportType ts messageBody message newMsg =>
      (outputWriteReport shared.output channels reportType ts messageBody message newMsg).map
        fun report => (report.map fun report => report.written.sent).getD []
  | .writeReportWithFormat channels reportType ts format array message newMsg =>
      (outputWriteReportWithFormat shared.output channels reportType ts format array message
        newMsg).map fun report => (report.map fun report => report.written.sent).getD []
  | .write channels message newMsg =>
      match shared.output.config with
      | none => .ok []
      | some config =>
          ((write shared.output config channels (message.bytes ++ [0]) newMsg.val).mapError
            .fault).map Written.sent
  | .flush => .ok []

/-- The threads that share an output, with what they hand on. -/
structure SharedRun (T : Type) where
  system : OutputSystem T
  request : T → Request
  /-- What the thread still has to hand on. -/
  rest : T → List (Channel × List UInt8)
  /-- What the modules were given, in this order. -/
  given : List (Channel × List UInt8)
  /-- The requests that were begun to be written. -/
  begun : List (Request × List (Channel × List UInt8))

inductive SharedMove
  | call (request : Request)
  | go (result : Int)
  /-- A string is handed on to its module. -/
  | send
  | release

namespace SharedRun

variable {T : Type} [DecidableEq T]

/-- A thread that writes starts with its first string. -/
def begin (run : SharedRun T) (thread : T) : Option (SharedRun T) :=
  match run.system.place thread, run.system.shared with
  | .leaving call _ true, some shared =>
      if call = .flush then some run
      else
        match shared.strings (run.request thread) with
        | .error _ => none
        | .ok strings =>
            some { run with
              rest := Function.update run.rest thread strings
              begun := run.begun ++ [(run.request thread, strings)] }
  | _, _ => some run

def step (run : SharedRun T) (label : T × SharedMove) : Option (SharedRun T) :=
  match label.2 with
  | .call request =>
      (run.system.step (label.1, .call request.call)).map fun system =>
        { run with system, request := Function.update run.request label.1 request }
  | .release => (run.system.step (label.1, .release)).map fun system => { run with system }
  | .send =>
      match run.rest label.1 with
      | [] => none
      | string :: rest =>
          some { run with
            rest := Function.update run.rest label.1 rest
            given := run.given ++ [string] }
  | .go result =>
      -- an unlock waits for the last string
      if run.rest label.1 = [] then
        (run.system.step (label.1, .go result)).bind fun system =>
          match run.system.place label.1 with
          | .locked _ _ => { run with system }.begin label.1
          | _ => some { run with system }
      else none

end SharedRun

/-- All runs of threads that share an output with a mutex. -/
def sharedMachine (T : Type) [DecidableEq T] : Machine (SharedRun T) (T × SharedMove) where
  init run := ∃ config modules,
    run = ⟨.start T (outputAllocInit config modules true), fun _ => .flush, fun _ => [], [], []⟩
  step := SharedRun.step

/-! ## What is wanted -/

/-- The calls that have returned after they wrote a report. -/
def OutputSystem.written {T : Type} (system : OutputSystem T) : List OutputCall :=
  (system.returned.filter fun call => call.2.2 && call.1 != .flush).map Prod.fst

/-- The thread that has the mutex is in the midst of the last report: the earlier ones were
handed on, and of its own one the strings that were sent. -/
def Unfinished {T : Type} (run : SharedRun T) : Prop :=
  ∃ thread earlier sent, run.system.owner = some thread ∧ run.rest thread ≠ [] ∧
    run.begun = earlier ++ [(run.request thread, sent ++ run.rest thread)] ∧
    run.given = earlier.flatMap Prod.snd ++ sent

/-- The modules were given the strings of whole reports, but for the last one, which the
thread is at that has the mutex; and every call that wrote has one of them, in order. -/
structure NotMixed {T : Type} (run : SharedRun T) : Prop where
  whole : run.given = run.begun.flatMap Prod.snd ∨ Unfinished run
  strings : ∀ shared, run.system.shared = some shared →
    ∀ request strings, (request, strings) ∈ run.begun → shared.strings request = .ok strings
  calls : run.system.written = (run.begun.map fun report => report.1.call) ∨
    ∃ thread, run.system.owner = some thread ∧
      run.system.written ++ [(run.request thread).call] =
        run.begun.map fun report => report.1.call

/-- A function that writes is not called when the output is NULL. -/
def AskedOfOutput {T : Type} (run : SharedRun T) (label : T × SharedMove) : Prop :=
  match label.2 with
  | .call request => request.call ≠ .flush → run.system.shared.isSome = true
  | _ => True

/-! ## Steps of the locks -/

section Locks

variable {T : Type} [DecidableEq T] {system next : OutputSystem T} {thread other : T}

/-- The call that a thread is in. -/
def Place.call : Place → Option OutputCall
  | .outside => none
  | .entered call _ | .locked call _ | .leaving call _ _ => some call
  | .pausing channels | .formatting channels => some (.writeReportWithFormat channels)

theorem proceed_call {shared : SharedOutput} {nested : Bool} {result : Int} {call : OutputCall}
    {place : Place} (proceeds : shared.proceed nested result call = some place) :
    place.call = some call := by
  cases call with
  | writeReport channels =>
      cases proceeds
      rcases report_leaving shared (.writeReport channels) channels result with
        hleaving | ⟨-, hleaving⟩ <;> rw [hleaving] <;> rfl
  | writeReportWithFormat channels =>
      rw [SharedOutput.proceed] at proceeds
      split_ifs at proceeds
      · cases proceeds
        rcases report_leaving shared (.writeReportWithFormat channels) channels result with
          hleaving | ⟨-, hleaving⟩ <;> rw [hleaving] <;> rfl
      · split at proceeds <;> cases proceeds <;> rfl
  | write channels =>
      rcases Option.map_eq_some_iff.mp proceeds with ⟨config, -, rfl⟩
      split_ifs <;> rfl
  | flush =>
      cases proceeds
      rfl

/-- What a step of one thread does to the locks, when an output has a mutex. -/
structure Stepped (system next : OutputSystem T) (thread : T) : Prop where
  shared : next.shared = system.shared
  others : ∀ other, other ≠ thread → next.place other = system.place other
  owner : next.owner = system.owner ∨ system.owner = none ∧ next.owner = some thread ∨
    system.owner = some thread ∧ next.owner = none

theorem moveTo_place_of_ne (system : OutputSystem T) (place : Place) (apart : other ≠ thread) :
    (system.moveTo thread place).place other = system.place other := by
  simp only [OutputSystem.moveTo, Function.update_of_ne apart]

theorem moveTo_stepped (system : OutputSystem T) (thread : T) (place : Place) :
    Stepped system (system.moveTo thread place) thread :=
  ⟨rfl, fun _ hother => moveTo_place_of_ne system place hother, .inl rfl⟩

theorem unlock_stepped (kept : Kept system) (mutex : system.mutex = true)
    (holds : (system.place thread).holds = true) (place : Place) :
    Stepped system (system.unlock thread place) thread :=
  ⟨rfl, fun _ hother => moveTo_place_of_ne system place hother,
    .inr (.inr ⟨(kept.holder mutex thread).mp holds, rfl⟩)⟩

theorem step_stepped (kept : Kept system)
    (mutex : system.shared.isSome = true → system.mutex = true) {move : Move}
    (enabled : system.step (thread, move) = some next) : Stepped system next thread := by
  have hsame : Stepped system system thread := ⟨rfl, fun _ _ => rfl, .inl rfl⟩
  rw [OutputSystem.step] at enabled
  split_ifs at enabled
  cases hplace : system.place thread <;> cases move
  all_goals simp only [hplace, Option.some.injEq, reduceCtorEq] at enabled
  case outside.call call =>
      rw [← enabled, OutputSystem.enter]
      split
      · split_ifs
        · exact ⟨rfl, fun _ _ => rfl, .inl rfl⟩
        · exact ⟨rfl, fun _ _ => rfl, .inl rfl⟩
      · exact ⟨rfl, (moveTo_stepped system thread _).others, .inl rfl⟩
  case outside.release =>
      rw [OutputSystem.release] at enabled
      split at enabled
      · cases enabled
        exact hsame
      · split_ifs at enabled
        cases enabled
        exact ⟨rfl, fun _ _ => rfl, .inl rfl⟩
  case entered.go call nested _ =>
      rw [OutputSystem.lock] at enabled
      split at enabled
      · cases enabled
        exact ⟨rfl, fun _ _ => rfl, .inl rfl⟩
      · split_ifs at enabled with hmutex hfree
        · cases enabled
          exact ⟨rfl, (moveTo_stepped system thread _).others, .inr (.inl ⟨hfree, rfl⟩)⟩
        · cases enabled
          exact moveTo_stepped system thread _
  case locked.go call nested result =>
      rw [← enabled, OutputSystem.proceed]
      split
      · exact ⟨rfl, fun _ _ => rfl, .inl rfl⟩
      · exact moveTo_stepped system thread _
  case pausing.go channels _ =>
      rw [← enabled]
      have hmutex := mutex (kept.given (by rw [hplace]; exact Place.noConfusion))
      exact unlock_stepped kept hmutex (by rw [hplace]; rfl) _
  case formatting.go channels _ =>
      rw [← enabled]
      exact moveTo_stepped system thread _
  case leaving.go call result wrote _ =>
      rw [← enabled]
      have hmutex := mutex (kept.given (by rw [hplace]; exact Place.noConfusion))
      have hunlock := unlock_stepped kept hmutex (by rw [hplace]; rfl) .outside
      exact ⟨rfl, hunlock.others, hunlock.owner⟩

/-- A call begins, when its thread is in none. -/
theorem step_call {call : OutputCall} (enabled : system.step (thread, .call call) = some next) :
    system.place thread = .outside ∧ next.written = system.written ∧
      (next.place thread = .outside ∨ next.place thread = .entered call false) := by
  rw [OutputSystem.step] at enabled
  split_ifs at enabled
  cases hplace : system.place thread
  all_goals simp only [hplace, Option.some.injEq, reduceCtorEq] at enabled
  refine ⟨rfl, ?_⟩
  rw [← enabled, OutputSystem.enter]
  split
  · split_ifs
    · refine ⟨?_, .inl hplace⟩
      simp only [OutputSystem.written, List.filter_append]
      exact congrArg (List.map Prod.fst) (List.append_nil _)
    · exact ⟨rfl, .inl hplace⟩
  · exact ⟨rfl, .inr (Function.update_self thread _ system.place)⟩

theorem step_release (enabled : system.step (thread, .release) = some next) :
    next.place = system.place ∧ next.owner = system.owner ∧ next.written = system.written ∧
      next.shared = system.shared := by
  rw [OutputSystem.step] at enabled
  split_ifs at enabled
  cases hplace : system.place thread
  all_goals simp only [hplace, reduceCtorEq] at enabled
  rw [OutputSystem.release] at enabled
  split at enabled
  · cases enabled
    exact ⟨rfl, rfl, rfl, rfl⟩
  · split_ifs at enabled
    cases enabled
    exact ⟨rfl, rfl, rfl, rfl⟩

end Locks

/-! ## What every step keeps -/

section Order

variable {T : Type} {run target : SharedRun T} {thread : T}

/-- What the thread with the mutex still has to hand on. -/
def SharedRun.pending (run : SharedRun T) : List (Channel × List UInt8) :=
  match run.system.owner with
  | none => []
  | some thread => run.rest thread

/-- The call that is writing at some place. -/
def Place.writing : Place → List OutputCall
  | .leaving call _ true => if call = .flush then [] else [call]
  | _ => []

def OutputSystem.current (system : OutputSystem T) : List OutputCall :=
  match system.owner with
  | none => []
  | some thread => (system.place thread).writing

structure Ordered (run : SharedRun T) : Prop where
  kept : Kept run.system
  mutex : run.system.shared.isSome = true → run.system.mutex = true
  asked : ∀ thread call, (run.system.place thread).call = some call →
    (run.request thread).call = call
  /-- Only a call that writes has something to hand on. -/
  resting : ∀ thread, run.rest thread ≠ [] → (run.system.place thread).writing ≠ []
  /-- It is the end of the last report. -/
  last : ∀ thread, run.rest thread ≠ [] →
    ∃ earlier sent, run.begun = earlier ++ [(run.request thread, sent ++ run.rest thread)]
  whole : run.given ++ run.pending = run.begun.flatMap Prod.snd
  strings : ∀ shared, run.system.shared = some shared →
    ∀ request strings, (request, strings) ∈ run.begun → shared.strings request = .ok strings
  calls : run.system.written ++ run.system.current = run.begun.map fun report => report.1.call

/-- A place at which a call writes is one of this call. -/
theorem writing_cases (place : Place) :
    place.writing = [] ∨ ∃ call, place.writing = [call] ∧ place.call = some call := by
  unfold Place.writing
  split
  · split_ifs
    · exact .inl rfl
    · exact .inr ⟨_, rfl, rfl⟩
  · exact .inl rfl

theorem Ordered.whole_or_unfinished (ordered : Ordered run) :
    run.given = run.begun.flatMap Prod.snd ∨ Unfinished run := by
  have hwhole := ordered.whole
  rw [SharedRun.pending] at hwhole
  cases howner : run.system.owner with
  | none =>
      rw [howner, List.append_nil] at hwhole
      exact .inl hwhole
  | some thread =>
      simp only [howner] at hwhole
      by_cases hrest : run.rest thread = []
      · rw [hrest, List.append_nil] at hwhole
        exact .inl hwhole
      · rcases ordered.last thread hrest with ⟨earlier, sent, hbegun⟩
        refine .inr ⟨thread, earlier, sent, howner, hrest, hbegun, ?_⟩
        rw [hbegun, List.flatMap_append, List.flatMap_singleton, ← List.append_assoc] at hwhole
        exact List.append_cancel_right hwhole

theorem Ordered.notMixed (ordered : Ordered run) : NotMixed run := by
  refine ⟨ordered.whole_or_unfinished, ordered.strings, ?_⟩
  have hcalls := ordered.calls
  rw [OutputSystem.current] at hcalls
  cases howner : run.system.owner with
  | none =>
      rw [howner, List.append_nil] at hcalls
      exact .inl hcalls
  | some thread =>
      simp only [howner] at hcalls
      rcases writing_cases (run.system.place thread) with hnothing | ⟨call, hwriting, hcall⟩
      · rw [hnothing, List.append_nil] at hcalls
        exact .inl hcalls
      · rw [hwriting] at hcalls
        exact .inr ⟨thread, rfl, by rw [ordered.asked thread call hcall]; exact hcalls⟩

/-- A place that writes holds the mutex. -/
theorem holds_of_writing {place : Place} (writes : place.writing ≠ []) : place.holds = true := by
  cases place <;> first | rfl | exact absurd rfl writes

/-- A thread without the mutex has nothing to hand on. -/
theorem Ordered.rest_eq_nil (ordered : Ordered run) (given : run.system.shared.isSome = true)
    {other : T} (without : run.system.owner ≠ some other) : run.rest other = [] := by
  by_contra hrest
  have hholds := holds_of_writing (ordered.resting other hrest)
  exact without ((ordered.kept.holder (ordered.mutex given) other).mp hholds)

theorem current_of_owner {system : OutputSystem T} {place : Place}
    (owner : system.owner = some thread) (placed : system.place thread = place) :
    system.current = place.writing := by
  simp only [OutputSystem.current, owner, placed]

theorem current_of_free {system : OutputSystem T} (free : system.owner = none) :
    system.current = [] := by
  simp only [OutputSystem.current, free]

/-- A step without the mutex does not change what is in progress. -/
theorem Stepped.current {system next : OutputSystem T} (stepped : Stepped system next thread)
    (owner : next.owner = system.owner) (free : system.owner ≠ some thread) :
    next.current = system.current := by
  cases hsystem : system.owner with
  | none => rw [current_of_free hsystem, current_of_free (owner.trans hsystem)]
  | some other =>
      have hother : other ≠ thread := by
        rintro rfl
        exact free hsystem
      rw [current_of_owner hsystem rfl, current_of_owner (owner.trans hsystem) rfl,
        stepped.others other hother]

variable [DecidableEq T]

/-- A step of the locks by a thread that has nothing to hand on, before and behind it. -/
theorem Ordered.quiet (ordered : Ordered run) {next : OutputSystem T}
    (kept : Kept next) (stepped : Stepped run.system next thread)
    (nothing : run.rest thread = []) (request : T → Request)
    (same : ∀ other, other ≠ thread → request other = run.request other)
    (asks : ∀ call, (next.place thread).call = some call → (request thread).call = call)
    (calls : next.written ++ next.current = run.system.written ++ run.system.current) :
    Ordered { run with system := next, request } := by
  refine ⟨kept, ?_, ?_, ?_, ?_, ?_, ?_, calls.trans ordered.calls⟩
  · intro hgiven
    have hbefore : run.system.mutex = true := ordered.mutex (stepped.shared ▸ hgiven)
    rw [OutputSystem.mutex] at hbefore ⊢
    rw [stepped.shared]
    exact hbefore
  · intro other call hcall
    by_cases hother : other = thread
    · rw [hother] at hcall ⊢
      exact asks call hcall
    · have hplace : (run.system.place other).call = some call := by
        rw [← stepped.others other hother]
        exact hcall
      exact (congrArg Request.call (same other hother)).trans (ordered.asked other call hplace)
  · intro other hrest
    have hother : other ≠ thread := fun hsame => hrest (hsame ▸ nothing)
    rw [stepped.others other hother]
    exact ordered.resting other hrest
  · intro other hrest
    have hother : other ≠ thread := fun hsame => hrest (hsame ▸ nothing)
    show ∃ earlier sent, run.begun = earlier ++ [(request other, sent ++ run.rest other)]
    rw [same other hother]
    exact ordered.last other hrest
  · rw [← ordered.whole]
    congr 1
    rw [SharedRun.pending, SharedRun.pending]
    rcases stepped.owner with howner | ⟨hbefore, hafter⟩ | ⟨hbefore, hafter⟩
    · rw [howner]
    · simp only [hbefore, hafter]
      exact nothing
    · simp only [hbefore, hafter]
      exact nothing.symm
  · rw [stepped.shared]
    exact ordered.strings

theorem Ordered.call (ordered : Ordered run) {request : Request}
    (asked : AskedOfOutput run (thread, .call request))
    (enabled : run.step (thread, .call request) = some target) : Ordered target := by
  rcases Option.map_eq_some_iff.mp enabled with ⟨next, hnext, rfl⟩
  rcases step_call hnext with ⟨houtside, hwritten, hplace⟩
  have hkept : Kept next := by
    refine step_kept ordered.kept (fun call hcall hwrites => ?_) hnext
    cases hcall
    exact asked hwrites
  have hstepped := step_stepped ordered.kept ordered.mutex hnext
  have hnothing : run.rest thread = [] := by
    by_contra hrest
    have hwriting := ordered.resting thread hrest
    rw [houtside] at hwriting
    exact hwriting rfl
  have hholds : (run.system.place thread).holds = false := by rw [houtside]; rfl
  have hfree := ordered.kept.not_owner hholds
  refine ordered.quiet hkept hstepped hnothing _
    (fun other hother => Function.update_of_ne hother request run.request) (fun call hcall => ?_) ?_
  · rw [Function.update_self]
    rcases hplace with hplace | hplace <;> rw [hplace] at hcall <;> cases hcall
    rfl
  · rw [hwritten]
    congr 1
    rcases hstepped.owner with howner | ⟨hbefore, hafter⟩ | ⟨hbefore, -⟩
    · exact hstepped.current howner hfree
    · rw [current_of_free hbefore, current_of_owner hafter rfl]
      rcases hplace with hplace | hplace <;> rw [hplace] <;> rfl
    · exact absurd hbefore hfree

theorem Ordered.release (ordered : Ordered run)
    (enabled : run.step (thread, .release) = some target) : Ordered target := by
  rcases Option.map_eq_some_iff.mp enabled with ⟨next, hnext, rfl⟩
  rcases step_release hnext with ⟨hplace, howner, hwritten, hshared⟩
  have hkept : Kept next := by
    refine step_kept ordered.kept (fun call hcall _ => ?_) hnext
    cases hcall
  refine ⟨hkept, ?_, ?_, ?_, ordered.last, ?_, ?_, ?_⟩
  · intro hgiven
    have hbefore : run.system.mutex = true := ordered.mutex (hshared ▸ hgiven)
    rw [OutputSystem.mutex] at hbefore ⊢
    rw [hshared]
    exact hbefore
  · rw [hplace]
    exact ordered.asked
  · rw [hplace]
    exact ordered.resting
  · rw [← ordered.whole, SharedRun.pending, SharedRun.pending, howner]
  · rw [hshared]
    exact ordered.strings
  · rw [← ordered.calls, hwritten, OutputSystem.current, OutputSystem.current, howner, hplace]

/-- A string is handed on by the thread that has the mutex. -/
theorem Ordered.send (ordered : Ordered run)
    (enabled : run.step (thread, .send) = some target) : Ordered target := by
  simp only [SharedRun.step] at enabled
  cases hrest : run.rest thread with
  | nil =>
      rw [hrest] at enabled
      cases enabled
  | cons string rest =>
      rw [hrest] at enabled
      cases enabled
      have hwriting : (run.system.place thread).writing ≠ [] :=
        ordered.resting thread (by rw [hrest]; nofun)
      have hholds := holds_of_writing hwriting
      have hinside : run.system.place thread ≠ .outside := by
        intro houtside
        rw [houtside] at hholds
        cases hholds
      have hgiven := ordered.kept.given hinside
      have howner := (ordered.kept.holder (ordered.mutex hgiven) thread).mp hholds
      refine ⟨ordered.kept, ordered.mutex, ordered.asked, fun other hother => ?_,
        fun other hother => ?_, ?_, ordered.strings, ordered.calls⟩
      · by_cases hsame : other = thread
        · rw [hsame]
          exact hwriting
        · refine ordered.resting other ?_
          rw [← Function.update_of_ne hsame rest run.rest]
          exact hother
      · dsimp only at hother ⊢
        by_cases hsame : other = thread
        · rcases ordered.last thread (by rw [hrest]; exact List.cons_ne_nil _ _) with
            ⟨earlier, sent, hbegun⟩
          refine ⟨earlier, sent ++ [string], ?_⟩
          rw [hsame, Function.update_self, List.append_assoc, List.singleton_append, ← hrest]
          exact hbegun
        · rw [Function.update_of_ne hsame] at hother ⊢
          exact ordered.last other hother
      · rw [← ordered.whole]
        simp only [SharedRun.pending, howner, hrest, Function.update_self, List.append_assoc,
          List.singleton_append]

/-- A call that writes begins with the strings of its request. -/
theorem begin_cases {shared : SharedOutput} (given : run.system.shared = some shared)
    (enabled : run.begin thread = some target) :
    (run.system.place thread).writing = [] ∧ target = run ∨
      ∃ call strings, (run.system.place thread).writing = [call] ∧
        (run.system.place thread).call = some call ∧
        shared.strings (run.request thread) = .ok strings ∧
        target = { run with
          rest := Function.update run.rest thread strings
          begun := run.begun ++ [(run.request thread, strings)] } := by
  rw [SharedRun.begin, given] at enabled
  cases hplace : run.system.place thread with
  | outside | entered | locked | pausing | formatting =>
      rw [hplace] at enabled
      cases enabled
      exact .inl ⟨rfl, rfl⟩
  | leaving call result wrote =>
      rw [hplace] at enabled
      cases wrote with
      | false =>
          cases enabled
          exact .inl ⟨rfl, rfl⟩
      | true =>
          have hbegins : (if call = .flush then some run
              else
                match shared.strings (run.request thread) with
                | .error _ => none
                | .ok strings =>
                    some { run with
                      rest := Function.update run.rest thread strings
                      begun := run.begun ++ [(run.request thread, strings)] }) = some target :=
            enabled
          split_ifs at hbegins with hflush
          · cases hbegins
            exact .inl ⟨if_pos hflush, rfl⟩
          · cases hstrings : shared.strings (run.request thread) with
            | error stop =>
                rw [hstrings] at hbegins
                cases hbegins
            | ok strings =>
                rw [hstrings] at hbegins
                cases hbegins
                exact .inr ⟨call, strings, if_neg hflush, rfl, rfl, rfl⟩

/-- A report is begun by the thread that has the mutex, between two reports. -/
theorem Ordered.begin_write (ordered : Ordered run) {next : OutputSystem T} {call : OutputCall}
    {strings : List (Channel × List UInt8)} {shared : SharedOutput} (kept : Kept next)
    (stepped : Stepped run.system next thread) (given : next.shared = some shared)
    (owner : next.owner = some thread) (before : run.system.owner = some thread)
    (current : run.system.current = []) (written : next.written = run.system.written)
    (nothing : run.rest thread = []) (asked : (run.request thread).call = call)
    (writes : (next.place thread).writing = [call]) (calls : (next.place thread).call = some call)
    (texts : shared.strings (run.request thread) = .ok strings) :
    Ordered { run with
      system := next
      rest := Function.update run.rest thread strings
      begun := run.begun ++ [(run.request thread, strings)] } := by
  have hpending : run.pending = [] := by
    simp only [SharedRun.pending, before]
    exact nothing
  have hwhole := ordered.whole
  rw [hpending, List.append_nil] at hwhole
  have hcalls := ordered.calls
  rw [current, List.append_nil] at hcalls
  have hothers : ∀ other, other ≠ thread → run.rest other = [] := by
    intro other hother
    refine ordered.rest_eq_nil (by rw [← stepped.shared, given]; rfl) fun howner => ?_
    exact hother (Option.some.inj (howner.symm.trans before))
  refine ⟨kept, fun hgiven => ?_, fun other otherCall hother => ?_, fun other hother => ?_,
    fun other hother => ?_, ?_, fun given' hgiven' request texts' hmem => ?_, ?_⟩
  · have hmutex : run.system.mutex = true := ordered.mutex (stepped.shared ▸ hgiven)
    rw [OutputSystem.mutex] at hmutex ⊢
    rw [stepped.shared]
    exact hmutex
  · by_cases hsame : other = thread
    · rw [hsame, calls] at hother
      cases hother
      rw [hsame]
      exact asked
    · rw [stepped.others other hsame] at hother
      exact ordered.asked other otherCall hother
  · dsimp only at hother ⊢
    by_cases hsame : other = thread
    · rw [hsame, writes]
      exact List.cons_ne_nil _ _
    · rw [Function.update_of_ne hsame] at hother
      exact absurd (hothers other hsame) hother
  · dsimp only at hother ⊢
    by_cases hsame : other = thread
    · exact ⟨run.begun, [], by rw [hsame, Function.update_self, List.nil_append]⟩
    · rw [Function.update_of_ne hsame] at hother
      exact absurd (hothers other hsame) hother
  · rw [List.flatMap_append, List.flatMap_singleton, ← hwhole]
    congr 1
    simp only [SharedRun.pending, owner, Function.update_self]
  · rcases List.mem_append.mp hmem with hbefore | hlast
    · exact ordered.strings given' (stepped.shared.symm.trans hgiven') request texts' hbefore
    · rw [List.mem_singleton, Prod.mk.injEq] at hlast
      rw [given] at hgiven'
      rw [hlast.1, hlast.2, ← Option.some.inj hgiven']
      exact texts
  · have hnow : next.current = [call] := (current_of_owner owner rfl).trans writes
    rw [hnow, written, List.map_append, List.map_singleton, ← hcalls]
    exact congrArg _ (congrArg (fun asked => [asked]) asked.symm)

/-- Behind its lock a call begins to write, or has nothing to write. -/
theorem Ordered.proceed (ordered : Ordered run) {call : OutputCall} {nested : Bool}
    {result : Int} (placed : run.system.place thread = .locked call nested)
    (nothing : run.rest thread = [])
    (enabled : { run with
      system := run.system.proceed thread call nested result }.begin thread = some target) :
    Ordered target := by
  have hinside : run.system.place thread ≠ .outside := by rw [placed]; nofun
  have hgiven := ordered.kept.given hinside
  have hholds : (run.system.place thread).holds = true := by rw [placed]; rfl
  have howner := (ordered.kept.holder (ordered.mutex hgiven) thread).mp hholds
  have hkept := ordered.kept.proceed result placed
  rcases Option.isSome_iff_exists.mp hgiven with ⟨shared, hshared⟩
  rcases Option.isSome_iff_exists.mp (proceed_isSome (ordered.kept.configured shared hshared)
    nested result call) with ⟨place, hplace⟩
  have hnext : run.system.proceed thread call nested result =
      run.system.moveTo thread place := by
    rw [OutputSystem.proceed, hshared, Option.bind_some, hplace]
  rw [hnext] at enabled hkept
  have hself : (run.system.moveTo thread place).place thread = place := by
    simp only [OutputSystem.moveTo, Function.update_self]
  have hmoved : (run.system.moveTo thread place).owner = some thread := howner
  have hasked : (run.request thread).call = call :=
    ordered.asked thread call (by rw [placed]; rfl)
  have hcurrent : run.system.current = [] := current_of_owner howner placed
  have hstepped := moveTo_stepped run.system thread place
  have hnow : ({ run with system := run.system.moveTo thread place } : SharedRun T).system.shared =
      some shared := hshared
  rcases begin_cases hnow enabled with ⟨hwriting, htarget⟩ |
    ⟨writing, strings, hwriting, hcall, hstrings, htarget⟩
  · rw [htarget]
    refine ordered.quiet hkept hstepped nothing run.request (fun _ _ => rfl)
      (fun other hother => ?_) ?_
    · rw [hself, proceed_call hplace] at hother
      cases hother
      exact hasked
    · rw [hcurrent, current_of_owner hmoved rfl, hwriting]
      rfl
  · have hsame : writing = call := by
      have hthis : place.call = some writing := hself ▸ hcall
      rw [proceed_call hplace] at hthis
      exact (Option.some.inj hthis).symm
    rw [htarget]
    exact ordered.begin_write hkept hstepped hshared hmoved howner hcurrent rfl nothing
      (hasked.trans hsame.symm) hwriting hcall hstrings

/-- A thread goes on that writes nothing in this step. -/
theorem Ordered.go (ordered : Ordered run) {result : Int}
    (enabled : run.step (thread, .go result) = some target) : Ordered target := by
  simp only [SharedRun.step] at enabled
  split_ifs at enabled with hnothing
  rcases Option.bind_eq_some_iff.mp enabled with ⟨next, hnext, hbegins⟩
  have hkept : Kept next := by
    refine step_kept ordered.kept (fun call hcall _ => ?_) hnext
    cases hcall
  have hstepped := step_stepped ordered.kept ordered.mutex hnext
  rw [OutputSystem.step] at hnext
  split_ifs at hnext
  cases hplace : run.system.place thread
  all_goals
    rw [hplace] at hbegins
    simp only [hplace, Option.some.injEq, reduceCtorEq] at hnext
  case entered call nested =>
      cases hbegins
      have hgiven := ordered.kept.given (by rw [hplace]; exact Place.noConfusion)
      have hmutex := ordered.mutex hgiven
      rcases Option.isSome_iff_exists.mp hgiven with ⟨shared, hshared⟩
      have hlocks : shared.mutex = true := by
        rw [OutputSystem.mutex, hshared] at hmutex
        exact hmutex
      simp only [OutputSystem.lock, hshared, if_pos hlocks] at hnext
      split_ifs at hnext with hfree
      cases hnext
      refine ordered.quiet hkept hstepped hnothing run.request (fun _ _ => rfl)
        (fun other hother => ?_) ?_
      · simp only [OutputSystem.moveTo, Function.update_self] at hother
        cases hother
        exact ordered.asked thread call (by rw [hplace]; rfl)
      · rw [current_of_free hfree, current_of_owner rfl
          (by simp only [OutputSystem.moveTo, Function.update_self]; rfl)]
        rfl
  case locked call nested =>
      rw [← hnext] at hbegins
      exact ordered.proceed hplace hnothing hbegins
  case pausing channels =>
      cases hbegins
      have hgiven := ordered.kept.given (by rw [hplace]; exact Place.noConfusion)
      have howner := (ordered.kept.holder (ordered.mutex hgiven) thread).mp (by rw [hplace]; rfl)
      rw [← hnext] at hkept hstepped ⊢
      refine ordered.quiet hkept hstepped hnothing run.request (fun _ _ => rfl)
        (fun other hother => ?_) ?_
      · simp only [OutputSystem.unlock, OutputSystem.moveTo, Function.update_self] at hother
        cases hother
        exact ordered.asked thread _ (by rw [hplace]; rfl)
      · rw [current_of_owner howner hplace, current_of_free rfl]
        rfl
  case formatting channels =>
      cases hbegins
      have hholds : (run.system.place thread).holds = false := by rw [hplace]; rfl
      have hfree := ordered.kept.not_owner hholds
      rw [← hnext] at hkept hstepped ⊢
      refine ordered.quiet hkept hstepped hnothing run.request (fun _ _ => rfl)
        (fun other hother => ?_) ?_
      · simp only [OutputSystem.moveTo, Function.update_self] at hother
        cases hother
        exact ordered.asked thread _ (by rw [hplace]; rfl)
      · have hcurrent : (run.system.moveTo thread (.entered (.writeReportWithFormat channels)
            true)).current = run.system.current :=
          hstepped.current rfl hfree
        rw [hcurrent]
        rfl
  case leaving call returned wrote =>
      cases hbegins
      have hgiven := ordered.kept.given (by rw [hplace]; exact Place.noConfusion)
      have howner := (ordered.kept.holder (ordered.mutex hgiven) thread).mp (by rw [hplace]; rfl)
      rw [← hnext] at hkept hstepped ⊢
      refine ordered.quiet hkept hstepped hnothing run.request (fun _ _ => rfl)
        (fun other hother => ?_) ?_
      · simp only [OutputSystem.unlock, OutputSystem.moveTo, Function.update_self] at hother
        cases hother
      · rw [current_of_owner howner hplace, current_of_free rfl, List.append_nil]
        simp only [OutputSystem.written, List.filter_append, List.map_append]
        congr 1
        cases wrote with
        | false => rfl
        | true =>
            by_cases hflush : call = .flush
            · simp [Place.writing, hflush]
            · simp [Place.writing, hflush]

/-- The state behind `output_alloc_init`. -/
theorem start_ordered (T : Type) (config : OutputConf) (modules : OutputT) :
    Ordered (⟨.start T (outputAllocInit config modules true), fun _ => .flush, fun _ => [], [],
      []⟩ : SharedRun T) := by
  refine ⟨start_kept config modules true, fun hgiven => ?_, fun thread call hcall => ?_,
    fun thread hrest => absurd rfl hrest, fun thread hrest => absurd rfl hrest, rfl,
    fun shared _ request strings hmem => ?_, rfl⟩
  · have hmutex : ((outputAllocInit config modules true).map SharedOutput.mutex).getD false =
        true := by
      have hsome : (outputAllocInit config modules true).isSome = true := hgiven
      rw [outputAllocInit] at hsome ⊢
      split_ifs at hsome ⊢
      · rfl
      · cases hsome
    exact hmutex
  · cases hcall
  · cases hmem

/-! ## Every run -/

/-- In every run of threads that share an output with a mutex, as long as no report leaves its
arrays, the modules were given whole reports one after the other, but for the last one while
the thread that has the mutex is at it, and every call that has written has its report among
them, in the order in which the calls had the mutex. -/
theorem reports_notMixed
    (reached : (sharedMachine T).ReachableWhen AskedOfOutput run) : NotMixed run := by
  refine Ordered.notMixed (reached.invariant Ordered ?_ ?_)
  · rintro run ⟨config, modules, rfl⟩
    exact start_ordered T config modules
  · rintro run ⟨thread, move⟩ target ordered asked enabled
    cases move with
    | call request => exact ordered.call asked enabled
    | go result => exact ordered.go enabled
    | send => exact ordered.send enabled
    | release => exact ordered.release enabled

/-- A probe that writes CSV to files and to a Redis server, which accepts everything. -/
def fileAndRedis : OutputT :=
  ⟨1, .ofText "eth0", ⟨0, 0⟩, none, some fun _ => 1, none, false, none⟩

def fileAndRedisStart : SharedRun (Fin 2) :=
  ⟨.start (Fin 2) (outputAllocInit ⟨true, .csv⟩ fileAndRedis true), fun _ => .flush, fun _ => [],
    [], []⟩

/-- A string is written to both channels. -/
def writeBoth (text : String) : Request :=
  .write 3 (.ofText text) ⟨List.replicate maxLengthReportMessage 0, List.length_replicate⟩

/-- Both threads ask; the second one gets the mutex and hands on its string, and then the first
one is between its two modules. -/
def writeInTurn : List (Fin 2 × SharedMove) :=
  [(0, .call (writeBoth "a")), (1, .call (writeBoth "b")), (1, .go 2), (1, .go 2), (1, .send),
    (1, .send), (1, .go 2), (0, .go 2), (0, .go 2), (0, .send)]

instance (run : SharedRun (Fin 2)) (label : Fin 2 × SharedMove) :
    Decidable (AskedOfOutput run label) :=
  match label with
  | (_, .call request) =>
      inferInstanceAs (Decidable (request.call ≠ .flush → run.system.shared.isSome = true))
  | (_, .go _) | (_, .send) | (_, .release) => isTrue trivial

theorem reports_notMixed_writeInTurn :
    let run := ((sharedMachine (Fin 2)).restrict AskedOfOutput).after writeInTurn fileAndRedisStart
    run.given = [(.file, [98]), (.redis, [98]), (.file, [97])] ∧
      run.system.written = [.write 3] ∧ NotMixed run := by
  refine ⟨by decide +kernel, by decide +kernel, reports_notMixed ?_⟩
  exact Machine.reachableWhen_after ⟨_, _, rfl⟩ (by decide +kernel)

end Order

end MmtProbe.Output
