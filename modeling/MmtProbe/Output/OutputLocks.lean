/-
# The lock of an output

The threads of a probe may share an output, whose functions are then put one after the other
by a mutex.  Two of them return early when there is nothing to write, and
`output_write_report_with_format` lets go of the mutex before it calls `output_write_report`,
which takes it again.  When all output is disabled there is no output but NULL.

In every run of any threads the mutex is taken and given back in turn, and a thread that is
not in a call does not hold it.  A flush and a release look for NULL first.  The three
functions that write look for the mutex first, and for NULL behind it, so they must not be
called on an output that is disabled.
-/

import Mathlib.Logic.Function.Basic
import MmtProbe.Math.Machine
import MmtProbe.Output.Report

namespace MmtProbe.Output

open MmtProbe.Math

/-! ## The output and its calls -/

/-- An output that is not NULL. -/
structure SharedOutput where
  output : OutputT
  /-- `mutex` is not NULL. -/
  mutex : Bool

/-- `output_alloc_init`, with the modules that were connected; NULL when output is disabled. -/
def outputAllocInit (config : OutputConf) (modules : OutputT) (isMultiThreads : Bool) :
    Option SharedOutput :=
  if config.isEnable then some ⟨{ modules with config := some config }, isMultiThreads⟩ else none

inductive OutputCall where
  | writeReport (channels : UInt32)
  | writeReportWithFormat (channels : UInt32)
  | write (channels : UInt32)
  | flush
deriving DecidableEq, Repr

/-- Where a thread is in a call.  Within `output_write_report_with_format` the call of
`output_write_report` is a nested one. -/
inductive Place where
  | outside
  /-- In front of `__LOCK_IF_NEED`. -/
  | entered (call : OutputCall) (nested : Bool)
  /-- Behind it. -/
  | locked (call : OutputCall) (nested : Bool)
  /-- `output_write_report_with_format`, in front of the unlock in its middle. -/
  | pausing (channels : UInt32)
  /-- Behind that unlock, in front of the nested call. -/
  | formatting (channels : UInt32)
  /-- In front of the last unlock, with the result, and whether something was written. -/
  | leaving (call : OutputCall) (result : Int) (wrote : Bool)
deriving DecidableEq, Repr

/-- A place between a lock and its unlock. -/
def Place.holds : Place → Bool
  | .locked _ _ | .pausing _ | .leaving _ _ _ => true
  | .outside | .entered _ _ | .formatting _ => false

/-- What `output_write_report` does between lock and unlock, when `_write` returns a
result. -/
def SharedOutput.report (shared : SharedOutput) (call : OutputCall) (channels : UInt32)
    (result : Int) : Place :=
  match shared.output.enabledConf channels with
  | none => .leaving call 0 false
  | some _ => .leaving call result true

/-- What a call does behind its lock; `none` is an access through NULL. -/
def SharedOutput.proceed (shared : SharedOutput) (nested : Bool) (result : Int) :
    OutputCall → Option Place
  | .writeReport channels => some (shared.report (.writeReport channels) channels result)
  | .writeReportWithFormat channels =>
      if nested then some (shared.report (.writeReportWithFormat channels) channels result)
      else
        match shared.output.enabledConf channels with
        | none => some (.leaving (.writeReportWithFormat channels) 0 false)
        | some _ => some (.pausing channels)
  | .write channels =>
      -- `config` is not compared with NULL
      shared.output.config.map fun config =>
        if config.isEnable && channels != 0 then .leaving (.write channels) result true
        else .leaving (.write channels) 0 false
  | .flush => some (.leaving .flush 0 true)

/-! ## Threads -/

/-- The threads of a probe and the output that they share. -/
structure OutputSystem (T : Type) where
  shared : Option SharedOutput
  /-- The thread that has locked the mutex. -/
  owner : Option T
  place : T → Place
  /-- How many calls were not left yet. -/
  inside : Nat
  /-- NULL was dereferenced. -/
  crashed : Bool
  /-- The output was released. -/
  released : Bool
  /-- The calls that were left, with their results, and whether something was written. -/
  returned : List (OutputCall × Int × Bool)

/-- A thread calls a function, goes on in it, where a result of `_write` may be needed, or
releases the output. -/
inductive Move where
  | call (call : OutputCall)
  | go (result : Int)
  | release
deriving DecidableEq, Repr

namespace OutputSystem

variable {T : Type} [DecidableEq T]

/-- The state behind `output_alloc_init`. -/
def start (T : Type) (shared : Option SharedOutput) : OutputSystem T :=
  ⟨shared, none, fun _ => .outside, 0, false, false, []⟩

def moveTo (system : OutputSystem T) (thread : T) (place : Place) : OutputSystem T :=
  { system with place := Function.update system.place thread place }

/-- The first access of a call: `output->mutex`, or the comparison of `output` with NULL. -/
def enter (system : OutputSystem T) (thread : T) (call : OutputCall) : OutputSystem T :=
  match system.shared with
  | none =>
      if call = .flush then { system with returned := system.returned ++ [(.flush, 0, false)] }
      else { system with crashed := true }
  | some _ => { system.moveTo thread (.entered call false) with inside := system.inside + 1 }

/-- `__LOCK_IF_NEED`.  There is no step while the mutex is locked, by whatever thread. -/
def lock (system : OutputSystem T) (thread : T) (place : Place) : Option (OutputSystem T) :=
  match system.shared with
  | none => some { system with crashed := true }
  | some shared =>
      if shared.mutex then
        if system.owner = none then some { system.moveTo thread place with owner := some thread }
        else none
      else some (system.moveTo thread place)

/-- Between lock and unlock. -/
def proceed (system : OutputSystem T) (thread : T) (call : OutputCall) (nested : Bool)
    (result : Int) : OutputSystem T :=
  match system.shared.bind fun shared => shared.proceed nested result call with
  | none => { system with crashed := true }
  | some place => system.moveTo thread place

/-- `__UNLOCK_IF_NEED` -/
def unlock (system : OutputSystem T) (thread : T) (place : Place) : OutputSystem T :=
  { system.moveTo thread place with owner := none }

/-- The callers release an output when no call is in progress, and do not use it any more. -/
def release (system : OutputSystem T) : Option (OutputSystem T) :=
  match system.shared with
  | none => some system
  | some _ => if system.inside = 0 then some { system with released := true } else none

/-- One step of one thread. -/
def step (system : OutputSystem T) (label : T × Move) : Option (OutputSystem T) :=
  if system.crashed || system.released then none
  else
    match system.place label.1, label.2 with
    | .outside, .call call => some (system.enter label.1 call)
    | .outside, .release => system.release
    | .entered call nested, .go _ => system.lock label.1 (.locked call nested)
    | .locked call nested, .go result => some (system.proceed label.1 call nested result)
    | .pausing channels, .go _ => some (system.unlock label.1 (.formatting channels))
    | .formatting channels, .go _ =>
        some (system.moveTo label.1 (.entered (.writeReportWithFormat channels) true))
    | .leaving call result wrote, .go _ =>
        some { system.unlock label.1 .outside with
          inside := system.inside - 1
          returned := system.returned ++ [(call, result, wrote)] }
    | _, _ => none

end OutputSystem

/-- All runs of the threads of a probe, with any output. -/
def outputMachine (T : Type) [DecidableEq T] : Machine (OutputSystem T) (T × Move) where
  init system := ∃ config modules isMultiThreads,
    system = .start T (outputAllocInit config modules isMultiThreads)
  step := OutputSystem.step

/-! ## What is wanted -/

/-- A call has nothing to do: there is no output, or none on the channels of the call. -/
def Disabled (shared : Option SharedOutput) : OutputCall → Prop
  | .writeReport channels | .writeReportWithFormat channels | .write channels =>
      ∀ given, shared = some given → given.output.enabledConf channels = none
  | .flush => shared = none

/-- NULL is not dereferenced, calls on a disabled output return 0 and write nothing, a thread
does not lock the mutex that it has locked, and leaves a call without it. -/
structure Balanced {T : Type} (system : OutputSystem T) : Prop where
  noNull : system.crashed = false
  disabled : ∀ call result wrote, (call, result, wrote) ∈ system.returned →
    Disabled system.shared call → result = 0 ∧ wrote = false
  lockedOnce : ∀ thread call nested, system.place thread = .entered call nested →
    system.owner ≠ some thread
  free : ∀ thread, system.place thread = .outside → system.owner ≠ some thread

/-- A function that writes is not called when the output is NULL. -/
def NotOnNull {T : Type} (system : OutputSystem T) (label : T × Move) : Prop :=
  ∀ call, label.2 = .call call → call ≠ .flush → system.shared.isSome = true

/-! ## Between lock and unlock -/

theorem report_leaving (shared : SharedOutput) (call : OutputCall) (channels : UInt32)
    (result : Int) :
    shared.report call channels result = .leaving call 0 false ∨
      shared.output.enabledConf channels ≠ none ∧
        shared.report call channels result = .leaving call result true := by
  rw [SharedOutput.report]
  cases hconf : shared.output.enabledConf channels with
  | none => exact .inl rfl
  | some config => exact .inr ⟨nofun, rfl⟩

/-- A place in front of an unlock, where a disabled call has written nothing. -/
structure Behind (shared : SharedOutput) (place : Place) : Prop where
  holds : place.holds = true
  nothing : ∀ call result wrote, place = .leaving call result wrote →
    Disabled (some shared) call → result = 0 ∧ wrote = false

theorem behind_nothing (shared : SharedOutput) (call : OutputCall) :
    Behind shared (.leaving call 0 false) := by
  refine ⟨rfl, ?_⟩
  rintro left result wrote hsame -
  cases hsame
  exact ⟨rfl, rfl⟩

theorem behind_written {shared : SharedOutput} {call : OutputCall}
    (enabled : ¬ Disabled (some shared) call) (result : Int) :
    Behind shared (.leaving call result true) := by
  refine ⟨rfl, ?_⟩
  rintro left returned wrote hsame hdisabled
  cases hsame
  exact absurd hdisabled enabled

theorem behind_report {shared : SharedOutput} {call : OutputCall} {channels : UInt32}
    (reads : Disabled (some shared) call → shared.output.enabledConf channels = none)
    (result : Int) : Behind shared (shared.report call channels result) := by
  rcases report_leaving shared call channels result with hnone | ⟨henabled, hsome⟩
  · rw [hnone]
    exact behind_nothing shared call
  · rw [hsome]
    exact behind_written (fun hdisabled => henabled (reads hdisabled)) result

/-- Behind its lock a call goes to a place in front of an unlock. -/
theorem proceed_behind {shared : SharedOutput} {nested : Bool} {result : Int} {call : OutputCall}
    {place : Place} (proceeds : shared.proceed nested result call = some place) :
    Behind shared place := by
  cases call with
  | writeReport channels =>
      have hreads : Disabled (some shared) (.writeReport channels) →
          shared.output.enabledConf channels = none := fun hdisabled => hdisabled shared rfl
      rw [← Option.some.inj proceeds]
      exact behind_report hreads result
  | writeReportWithFormat channels =>
      have hreads : Disabled (some shared) (.writeReportWithFormat channels) →
          shared.output.enabledConf channels = none := fun hdisabled => hdisabled shared rfl
      rw [SharedOutput.proceed] at proceeds
      split_ifs at proceeds
      · rw [← Option.some.inj proceeds]
        exact behind_report hreads result
      · cases hconf : shared.output.enabledConf channels with
        | none =>
            rw [hconf] at proceeds
            rw [← Option.some.inj proceeds]
            exact behind_nothing shared _
        | some config =>
            rw [hconf] at proceeds
            rw [← Option.some.inj proceeds]
            exact ⟨rfl, nofun⟩
  | write channels =>
      rcases Option.map_eq_some_iff.mp proceeds with ⟨config, hconfig, hplace⟩
      rw [← hplace]
      split_ifs with henabled
      · apply behind_written
        intro hdisabled
        have hnone := hdisabled shared rfl
        rw [OutputT.enabledConf, hconfig, Option.filter_some, if_pos henabled] at hnone
        cases hnone
      · exact behind_nothing shared _
  | flush =>
      rw [← Option.some.inj proceeds]
      refine ⟨rfl, ?_⟩
      rintro left returned wrote hsame hdisabled
      cases hsame
      cases hdisabled

theorem proceed_isSome {shared : SharedOutput} (configured : shared.output.config.isSome = true)
    (nested : Bool) (result : Int) (call : OutputCall) :
    (shared.proceed nested result call).isSome = true := by
  cases call with
  | writeReport channels => rfl
  | writeReportWithFormat channels =>
      rw [SharedOutput.proceed]
      split_ifs
      · rfl
      · cases shared.output.enabledConf channels <;> rfl
  | write channels =>
      rw [SharedOutput.proceed, Option.isSome_map]
      exact configured
  | flush => rfl

/-! ## What every step keeps -/

variable {T : Type}

/-- There is a mutex. -/
def OutputSystem.mutex (system : OutputSystem T) : Bool :=
  (system.shared.map SharedOutput.mutex).getD false

/-- Exactly the thread that has locked the mutex is between a lock and its unlock. -/
structure Kept (system : OutputSystem T) : Prop where
  noNull : system.crashed = false
  holder : system.mutex = true → ∀ thread,
    (system.place thread).holds = true ↔ system.owner = some thread
  unowned : system.mutex = false → system.owner = none
  configured : ∀ shared, system.shared = some shared → shared.output.config.isSome = true
  nobody : system.shared = none → ∀ thread, system.place thread = .outside
  leaving : ∀ thread call result wrote, system.place thread = .leaving call result wrote →
    Disabled system.shared call → result = 0 ∧ wrote = false
  returned : ∀ call result wrote, (call, result, wrote) ∈ system.returned →
    Disabled system.shared call → result = 0 ∧ wrote = false

variable {system target : OutputSystem T} {thread : T} {place : Place}

/-- A thread that does not hold the mutex is not its owner. -/
theorem Kept.not_owner (kept : Kept system) (free : (system.place thread).holds = false) :
    system.owner ≠ some thread := by
  intro howner
  cases hmutex : system.mutex with
  | true =>
      rw [(kept.holder hmutex thread).mpr howner] at free
      cases free
  | false =>
      rw [kept.unowned hmutex] at howner
      cases howner

theorem Kept.balanced (kept : Kept system) : Balanced system := by
  refine ⟨kept.noNull, kept.returned, ?_, ?_⟩
  · intro thread call nested hplace
    apply kept.not_owner
    rw [hplace]
    rfl
  · intro thread hplace
    apply kept.not_owner
    rw [hplace]
    rfl

theorem start_kept (config : OutputConf) (modules : OutputT) (isMultiThreads : Bool) :
    Kept (.start T (outputAllocInit config modules isMultiThreads)) := by
  refine ⟨rfl, fun _ thread => ?_, fun _ => rfl, ?_, fun _ _ => rfl, nofun, nofun⟩
  · exact iff_of_false nofun nofun
  · intro shared hshared
    have hallocated : outputAllocInit config modules isMultiThreads = some shared := hshared
    rw [outputAllocInit] at hallocated
    split_ifs at hallocated
    cases hallocated
    rfl

/-- A thread that is in a call has an output. -/
theorem Kept.given (kept : Kept system) (inside : system.place thread ≠ .outside) :
    system.shared.isSome = true := by
  cases hshared : system.shared with
  | none => exact absurd (kept.nobody hshared thread) inside
  | some shared => rfl

theorem Kept.release (kept : Kept system) (releases : system.release = some target) :
    Kept target := by
  rw [OutputSystem.release] at releases
  split at releases
  · cases releases
    exact kept
  · split_ifs at releases
    cases releases
    exact { kept with }

section Steps

variable [DecidableEq T]

/-- One thread moves, and the mutex has the owner that its new place asks for. -/
theorem Kept.change {owner : Option T} (kept : Kept system)
    (given : system.shared.isSome = true)
    (own : system.mutex = true → (place.holds = true ↔ owner = some thread))
    (others : system.mutex = true → ∀ other, other ≠ thread →
      (system.owner = some other ↔ owner = some other))
    (unowned : system.mutex = false → owner = none)
    (leaves : ∀ call result wrote, place = .leaving call result wrote →
      Disabled system.shared call → result = 0 ∧ wrote = false) :
    Kept { system.moveTo thread place with owner } := by
  refine ⟨kept.noNull, ?_, unowned, kept.configured, ?_, ?_, kept.returned⟩
  · intro hmutex other
    show (Function.update system.place thread place other).holds = true ↔ owner = some other
    by_cases hsame : other = thread
    · rw [hsame, Function.update_self]
      exact own hmutex
    · rw [Function.update_of_ne hsame, kept.holder hmutex other]
      exact others hmutex other hsame
  · intro hnone
    have hshared : system.shared = none := hnone
    rw [hshared] at given
    cases given
  · intro other call result wrote hplace
    have hthis : Function.update system.place thread place other =
        .leaving call result wrote := hplace
    by_cases hsame : other = thread
    · rw [hsame, Function.update_self] at hthis
      exact leaves call result wrote hthis
    · rw [Function.update_of_ne hsame] at hthis
      exact kept.leaving other call result wrote hthis

/-- A move to a place with the same claim to the mutex. -/
theorem Kept.moveTo (kept : Kept system) (given : system.shared.isSome = true)
    (same : place.holds = (system.place thread).holds)
    (leaves : ∀ call result wrote, place = .leaving call result wrote →
      Disabled system.shared call → result = 0 ∧ wrote = false) :
    Kept (system.moveTo thread place) := by
  refine kept.change given (fun hmutex => ?_) (fun _ _ _ => Iff.rfl) kept.unowned leaves
  rw [same]
  exact kept.holder hmutex thread

/-- The mutex is taken by a thread when no thread has it. -/
theorem Kept.lock (kept : Kept system) (call : OutputCall) (nested : Bool)
    (given : system.shared.isSome = true)
    (locks : system.lock thread (.locked call nested) = some target) : Kept target := by
  rcases Option.isSome_iff_exists.mp given with ⟨shared, hshared⟩
  have hmutex : system.mutex = shared.mutex := by rw [OutputSystem.mutex, hshared]; rfl
  simp only [OutputSystem.lock, hshared] at locks
  split_ifs at locks with hlocked hnobody
  · cases locks
    refine kept.change given (fun _ => iff_of_true rfl rfl) (fun _ other hother => ?_)
      (fun hnone => ?_) nofun
    · rw [hnobody]
      refine iff_of_false nofun fun hsame => ?_
      exact hother (Option.some.inj hsame).symm
    · rw [hmutex, hlocked] at hnone
      cases hnone
  · cases locks
    refine kept.change given (fun htrue => ?_) (fun _ _ _ => Iff.rfl) kept.unowned nofun
    rw [hmutex] at htrue
    exact absurd htrue hlocked

/-- The mutex is given back by the thread that has it. -/
theorem Kept.unlock (kept : Kept system) (held : (system.place thread).holds = true)
    (free : place.holds = false) (given : system.shared.isSome = true) :
    Kept (system.unlock thread place) := by
  refine kept.change given (fun _ => ?_) (fun hmutex other hother => ?_) (fun _ => rfl) ?_
  · rw [free]
    exact iff_of_false nofun nofun
  · rw [(kept.holder hmutex thread).mp held]
    refine iff_of_false (fun hsame => ?_) nofun
    exact hother (Option.some.inj hsame).symm
  · intro call result wrote hplace
    rw [hplace] at free
    cases free

theorem Kept.proceed (kept : Kept system) {call : OutputCall} {nested : Bool} (result : Int)
    (placed : system.place thread = .locked call nested) :
    Kept (system.proceed thread call nested result) := by
  have inside : system.place thread ≠ .outside := by rw [placed]; nofun
  have given := kept.given inside
  rcases Option.isSome_iff_exists.mp given with ⟨shared, hshared⟩
  rcases Option.isSome_iff_exists.mp
    (proceed_isSome (kept.configured shared hshared) nested result call) with ⟨place, hplace⟩
  rw [OutputSystem.proceed, hshared, Option.bind_some, hplace]
  have hbehind := proceed_behind hplace
  refine kept.moveTo given ?_ ?_
  · rw [hbehind.holds, placed]
    rfl
  · rw [hshared]
    exact hbehind.nothing

theorem Kept.enter (kept : Kept system) (call : OutputCall)
    (outside : system.place thread = .outside)
    (written : call ≠ .flush → system.shared.isSome = true) :
    Kept (system.enter thread call) := by
  rw [OutputSystem.enter]
  split
  next hnull =>
    have hflush : call = .flush := by
      by_contra hwrites
      have hsome := written hwrites
      rw [hnull] at hsome
      cases hsome
    rw [if_pos hflush]
    refine { kept with returned := ?_ }
    intro other result wrote hreturned hdisabled
    rcases List.mem_append.mp hreturned with hbefore | hlast
    · exact kept.returned other result wrote hbefore hdisabled
    · cases List.mem_singleton.mp hlast
      exact ⟨rfl, rfl⟩
  next shared hshared =>
    have given : system.shared.isSome = true := by rw [hshared]; rfl
    have moved : Kept (system.moveTo thread (.entered call false)) := by
      refine kept.moveTo given ?_ nofun
      rw [outside]
      rfl
    exact { moved with }

/-- The last unlock of a call. -/
theorem Kept.leave (kept : Kept system) {call : OutputCall} {result : Int} {wrote : Bool}
    (placed : system.place thread = .leaving call result wrote) :
    Kept { system.unlock thread .outside with
      inside := system.inside - 1
      returned := system.returned ++ [(call, result, wrote)] } := by
  have inside : system.place thread ≠ .outside := by rw [placed]; nofun
  have given := kept.given inside
  have held : (system.place thread).holds = true := by rw [placed]; rfl
  have unlocked : Kept (system.unlock thread .outside) := kept.unlock held rfl given
  refine { unlocked with returned := ?_ }
  intro other number written hreturned hdisabled
  rcases List.mem_append.mp hreturned with hbefore | hlast
  · exact kept.returned other number written hbefore hdisabled
  · cases List.mem_singleton.mp hlast
    exact kept.leaving thread call result wrote placed hdisabled

/-- A step keeps the order of the threads, unless a function that writes is called on NULL. -/
theorem step_kept (kept : Kept system) {label : T × Move} (guarded : NotOnNull system label)
    (enabled : system.step label = some target) : Kept target := by
  rcases label with ⟨thread, move⟩
  rw [OutputSystem.step] at enabled
  split_ifs at enabled
  -- a thread has one kind of move in each place, but for a call and a release outside of all
  cases hplace : system.place thread <;> cases move
  all_goals simp only [hplace, Option.some.injEq, reduceCtorEq] at enabled
  case outside.call call =>
      rw [← enabled]
      exact kept.enter call hplace (guarded call rfl)
  case outside.release => exact kept.release enabled
  case entered.go call nested _ =>
      exact kept.lock call nested (kept.given (by rw [hplace]; nofun)) enabled
  case locked.go call nested result =>
      rw [← enabled]
      exact kept.proceed result hplace
  case pausing.go channels _ =>
      rw [← enabled]
      have held : (system.place thread).holds = true := by rw [hplace]; rfl
      exact kept.unlock held rfl (kept.given (by rw [hplace]; nofun))
  case formatting.go channels _ =>
      rw [← enabled]
      refine kept.moveTo (kept.given (by rw [hplace]; nofun)) ?_ nofun
      rw [hplace]
      rfl
  case leaving.go call result wrote _ =>
      rw [← enabled]
      exact kept.leave hplace

/-- A function that writes looks through NULL for the mutex. -/
theorem step_on_null (kept : Kept system) {label : T × Move} (unguarded : ¬ NotOnNull system label)
    (enabled : system.step label = some target) : target.crashed = true := by
  rcases label with ⟨thread, move⟩
  have hcall : ∃ call, move = .call call ∧ call ≠ .flush ∧ system.shared = none := by
    by_contra hnone
    apply unguarded
    intro call hmove hwrites
    by_contra hnull
    exact hnone ⟨call, hmove, hwrites, by simpa using hnull⟩
  rcases hcall with ⟨call, rfl, hwrites, hnull⟩
  rw [OutputSystem.step] at enabled
  split_ifs at enabled
  simp only [kept.nobody hnull thread, OutputSystem.enter, hnull, if_neg hwrites] at enabled
  cases enabled
  rfl

end Steps

/-! ## The calls of a run -/

/-- Along a run of any threads, no call dereferences NULL, calls on a disabled output return 0
and write nothing, and the mutex is never locked twice by a thread and free of it after its
calls, exactly when no function that writes is called on NULL. -/
theorem balanced_iff (T : Type) [DecidableEq T] (config : OutputConf) (modules : OutputT)
    (isMultiThreads : Bool) (labels : List (T × Move)) :
    (outputMachine T).Always Balanced labels
        (.start T (outputAllocInit config modules isMultiThreads)) ↔
      (outputMachine T).Meets NotOnNull labels
        (.start T (outputAllocInit config modules isMultiThreads)) := by
  apply Machine.always_iff_meets_of_invariant (M := outputMachine T)
  · intro system kept
    exact Kept.balanced kept
  · intro system label target kept enabled guarded
    exact step_kept kept guarded enabled
  · intro system label target kept enabled unguarded balanced
    have hcrashed := step_on_null kept unguarded enabled
    rw [balanced.noNull] at hcrashed
    cases hcrashed
  · exact start_kept config modules isMultiThreads

/-- With all output disabled, the first report of a probe is written through NULL. -/
theorem not_balanced : ¬ (outputMachine (Fin 1)).Always Balanced [(0, .call (.writeReport 1))]
    (.start (Fin 1) (outputAllocInit ⟨false, .csv⟩
      ⟨1, .ofText "eth0", ⟨0, 0⟩, none, none, none, false, none⟩ true)) := by
  intro always
  have hlast := always.2 _ rfl
  cases hlast.noNull

end MmtProbe.Output
