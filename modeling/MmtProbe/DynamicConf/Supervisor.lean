/-
# The monitor process and its children

`_create_sub_processes` of `main.c` creates a processing child and, with dynamic
configuration, a control child, waits for them and re-creates those that did not
exit normally.  `children_pids[i]` is positive while a child runs, 0 when it is
to be created and -1 when it is to stay dead; the callback of the bus writes the
first entry through a pointer.

A state holds the monitor (its place in the loop and its variables), the
processes that were forked and not yet waited for, and the bus that they share.
The steps of the monitor are the numbered parts of the loop; children terminate,
subscribe and publish at any moment in between.  `events`, `callers` and `used`
are history.
-/

import MmtProbe.DynamicConf.ReceiveMessage

namespace MmtProbe.DynamicConf

open MmtProbe.Math

/-- The kinds of children, in the order of `children_pids`. -/
inductive Kind where
  | processing
  | control
deriving DecidableEq, Repr

/-- The index of a kind in `children_pids`. -/
def Kind.index : Kind → Nat
  | processing => 0
  | control => 1

/-- `PID_NEED_TO_CREATE` -/
def pidNeedToCreate : Int := 0

/-- `PID_NEED_TO_STOP` -/
def pidNeedToStop : Int := -1

/-- A process that was forked and has not been waited for. -/
structure Proc where
  pid : Nat
  kind : Kind
  /-- `dynamic-config.enable` in its copy of the configuration. -/
  enable : Bool
  /-- It has called `dynamic_conf_agency_start`. -/
  started : Bool
  /-- Once it has terminated, whether it did so with `EXIT_SUCCESS`. -/
  exited : Option Bool
deriving DecidableEq, Repr

/-- The place of the monitor in its loop. -/
inductive Pc where
  /-- 1. create a child process for main processing -/
  | create
  /-- 2. create a control process for dynamic configuration -/
  | createControl
  /-- 3. to 5., from `waitpid` to the test that ends the loop -/
  | wait
  /-- `dynamic_conf_check`, before the callback -/
  | check
  /-- inside `_receive_message` -/
  | receive
  /-- `dynamic_conf_check`, after the callback -/
  | reply (ret : Int)
  /-- behind the loop -/
  | left
  /-- `ABORT( "Cannot wait for children" )` -/
  | aborted
deriving DecidableEq, Repr

/-- What happened to a child. -/
inductive Event where
  | forked
  | reaped (success : Bool)
  /-- It was asked to start again. -/
  | asked
deriving DecidableEq, Repr

/-- The monitor, its children and the bus. -/
structure Supervisor where
  pc : Pc
  childrenPids : Kind → Int
  nbChildrenProcesses : Nat
  /-- `dynamic-config.enable` in the memory of the monitor. -/
  enable : Bool
  procs : List Proc
  bus : BusState
  /-- The latest event comes first. -/
  events : List (Kind × Event)
  /-- The children that called `dynamic_conf_agency_start`, in that order. -/
  callers : List Nat
  /-- The numbers of all children so far. -/
  used : List Nat

/-- The steps, with what their environment decides: process numbers given by
`fork`, the child returned by `waitpid`, bytes received from a client. -/
inductive SupAct where
  | create (pid : Nat)
  | createControl (pid : Nat)
  | wait (child : Nat)
  | check
  | receive
  | reply
  /-- A child terminates. -/
  | exit (pid : Nat) (success : Bool)
  /-- The processing child calls `dynamic_conf_agency_start`. -/
  | agencyStart (pid : Nat)
  /-- The control child processes a command. -/
  | command (pid : Nat) (received : List UInt8)

namespace Supervisor

/-- The state in front of the loop. With dynamic configuration, the bus exists and
the monitor has subscribed to it. -/
def initial (monitor : Nat) (enabled : Bool) : Supervisor where
  pc := .create
  childrenPids := fun _ => pidNeedToCreate
  nbChildrenProcesses := if enabled then 2 else 1
  enable := enabled
  procs := []
  bus := if enabled then BusState.fresh.subscribe monitor true else .fresh
  events := []
  callers := []
  used := []

/-- The kernel gives a child a positive number that no other process has. -/
def Available (s : Supervisor) (monitor pid : Nat) : Prop :=
  0 < pid ∧ pid ≠ monitor ∧ ∀ proc ∈ s.procs, proc.pid ≠ pid

instance (s : Supervisor) (monitor pid : Nat) : Decidable (s.Available monitor pid) :=
  inferInstanceAs (Decidable (_ ∧ _))

/-- `fork`: the child gets a copy of the configuration. -/
def fork (s : Supervisor) (kind : Kind) (pid : Nat) : Supervisor :=
  { s with
    childrenPids := Function.update s.childrenPids kind pid
    procs := ⟨pid, kind, s.enable, false, none⟩ :: s.procs
    events := (kind, .forked) :: s.events
    used := pid :: s.used }

/-- The entry that the loop over `children_pids` updates for a child. -/
def updated (s : Supervisor) (child : Nat) (status : Int) : Kind → Int :=
  if s.childrenPids .processing = child then Function.update s.childrenPids .processing status
  else if 1 < s.nbChildrenProcesses ∧ s.childrenPids .control = child then
    Function.update s.childrenPids .control status
  else s.childrenPids

/-- The test that ends the loop: all counted children need to stop. -/
def allStopped (s : Supervisor) : Bool :=
  s.childrenPids .processing == pidNeedToStop &&
    (s.nbChildrenProcesses == 1 || s.childrenPids .control == pidNeedToStop)

/-- A child was waited for: its entry is updated, then the loop is left or goes on. -/
def reap (s : Supervisor) (proc : Proc) : Supervisor :=
  let status := if proc.exited = some true then pidNeedToStop else pidNeedToCreate
  let s := { s with
    childrenPids := s.updated proc.pid status
    procs := s.procs.filter fun other => other.pid != proc.pid
    events := (proc.kind, .reaped (proc.exited == some true)) :: s.events }
  { s with pc := if s.allStopped then .left else .check }

/-- Change the process with a number. -/
def modify (s : Supervisor) (pid : Nat) (change : Proc → Proc) : Supervisor :=
  { s with procs := s.procs.map fun proc => if proc.pid = pid then change proc else proc }

/-- The running process with a number and a kind. -/
def running (s : Supervisor) (pid : Nat) (kind : Kind) : Option Proc :=
  s.procs.find? fun proc => proc.pid == pid && proc.kind == kind && proc.exited.isNone

/-- Step 1 of the loop. -/
def create (s : Supervisor) (monitor pid : Nat) : Option Supervisor :=
  if s.childrenPids .processing = pidNeedToCreate then
    if s.Available monitor pid then some { s.fork .processing pid with pc := .createControl }
    else none
  else some { s with pc := .createControl }

/-- Step 2 of the loop. -/
def createControl (s : Supervisor) (monitor pid : Nat) : Option Supervisor :=
  if s.enable ∧ s.childrenPids .control = pidNeedToCreate then
    if s.Available monitor pid then some { s.fork .control pid with pc := .wait } else none
  else some { s with pc := .wait }

/-- Steps 3 to 5 of the loop: `waitpid` fails without a child, returns 0 when none
has terminated, and otherwise returns one that has. -/
def wait (s : Supervisor) (child : Nat) : Option Supervisor :=
  if s.procs = [] then some { s with pc := .aborted }
  else if child = 0 then
    if s.procs.all fun proc => proc.exited.isNone then some { s with pc := .check } else none
  else
    (s.procs.find? fun proc => proc.pid == child && proc.exited.isSome).map s.reap

/-- `dynamic_conf_check`, up to the callback. -/
def check (s : Supervisor) (monitor : Nat) : Option Supervisor :=
  if s.enable then
    (busStep s.bus (.checkBegin monitor)).map fun bus =>
      { s with
        bus := bus
        pc := if (bus.inCallback monitor).isSome then .receive else .create }
  else some { s with pc := .create }

/-- The callback returned: it may have written the entry of the processing child. -/
def received (s : Supervisor) (answer : Received) : Supervisor :=
  { s with
    pc := .reply answer.ret
    childrenPids := Function.update s.childrenPids .processing answer.pid
    enable := answer.enable
    events :=
      if answer.signal = some .sigres ∨ answer.pid ≠ s.childrenPids .processing then
        (.processing, .asked) :: s.events
      else s.events }

/-- The callback of the monitor. -/
def receive (s : Supervisor) (build : Build) (monitor : Nat) : Option Supervisor :=
  match s.bus.inCallback monitor with
  | none => none
  | some call =>
      match receiveMessage build call.msg (s.childrenPids .processing) s.enable with
      | .error _ => none
      | .ok answer => some (s.received answer)

/-- `dynamic_conf_check`, after the callback. -/
def reply (s : Supervisor) (monitor : Nat) (ret : Int) : Option Supervisor :=
  (busStep s.bus (.checkEnd monitor ret)).map fun bus => { s with bus := bus, pc := .create }

/-- A child terminates with an exit status or by a signal. -/
def exit (s : Supervisor) (pid : Nat) (success : Bool) : Option Supervisor :=
  if s.procs.any fun proc => proc.pid == pid && proc.exited.isNone then
    some (s.modify pid fun proc => { proc with exited := some success })
  else none

/-- A child has called `mmt_bus_subscribe`. If its number was already in the table,
it exited there. -/
def subscribed (s : Supervisor) (pid : Nat) (bus : BusState) : Supervisor :=
  { s.modify pid fun proc => { proc with
      started := true
      exited := if bus.locked then some true else none } with
    bus := bus
    callers := s.callers ++ [pid] }

/-- `dynamic_conf_agency_start` in the processing child. -/
def agencyStart (s : Supervisor) (pid : Nat) : Option Supervisor :=
  match s.running pid .processing with
  | none => none
  | some proc =>
      if proc.enable && !proc.started then
        (busStep s.bus (.subscribe pid true)).map (s.subscribed pid)
      else none

/-- `_processing` in the control child. -/
def command (s : Supervisor) (build : Build) (pid : Nat) (received : List UInt8) :
    Option Supervisor :=
  if (s.running pid .control).isSome ∧ 1 ≤ received.length ∧ received.length ≤ bufferSize then
    match processing build received with
    | .ok (.publish command) =>
        (busStep s.bus (.publish pid command.message false)).map fun bus => { s with bus := bus }
    | _ => some s
  else none

end Supervisor

/-- One step of the monitor or of a child. -/
def supervisorStep (build : Build) (monitor : Nat) (s : Supervisor) : SupAct → Option Supervisor
  | .create pid => if s.pc = .create then s.create monitor pid else none
  | .createControl pid => if s.pc = .createControl then s.createControl monitor pid else none
  | .wait child => if s.pc = .wait then s.wait child else none
  | .check => if s.pc = .check then s.check monitor else none
  | .receive => if s.pc = .receive then s.receive build monitor else none
  | .reply =>
      match s.pc with
      | .reply ret => s.reply monitor ret
      | _ => none
  | .exit pid success => s.exit pid success
  | .agencyStart pid => s.agencyStart pid
  | .command pid received => s.command build pid received

/-- The monitor and its children, from the start of the loop. -/
def supervisorMachine (build : Build) (monitor : Nat) (enabled : Bool) :
    Machine Supervisor SupAct where
  init s := s = .initial monitor enabled
  step := supervisorStep build monitor

/-! ## What a step can do -/

/-- The effects of the steps. -/
inductive Effect (build : Build) (monitor : Nat) (s : Supervisor) : SupAct → Supervisor → Prop
  | create {pid : Nat} (place : s.pc = .create)
      (need : s.childrenPids .processing = pidNeedToCreate) (available : s.Available monitor pid) :
      Effect build monitor s (.create pid) { s.fork .processing pid with pc := .createControl }
  | keep {pid : Nat} (place : s.pc = .create)
      (kept : s.childrenPids .processing ≠ pidNeedToCreate) :
      Effect build monitor s (.create pid) { s with pc := .createControl }
  | createControl {pid : Nat} (place : s.pc = .createControl) (enable : s.enable = true)
      (need : s.childrenPids .control = pidNeedToCreate) (available : s.Available monitor pid) :
      Effect build monitor s (.createControl pid) { s.fork .control pid with pc := .wait }
  | keepControl {pid : Nat} (place : s.pc = .createControl)
      (kept : ¬ (s.enable = true ∧ s.childrenPids .control = pidNeedToCreate)) :
      Effect build monitor s (.createControl pid) { s with pc := .wait }
  | abort {child : Nat} (place : s.pc = .wait) (nobody : s.procs = []) :
      Effect build monitor s (.wait child) { s with pc := .aborted }
  | goOn {child : Nat} (place : s.pc = .wait) :
      Effect build monitor s (.wait child) { s with pc := .check }
  | reap {child : Nat} {proc : Proc} (place : s.pc = .wait) (listed : proc ∈ s.procs) :
      Effect build monitor s (.wait child) (s.reap proc)
  | check {bus : BusState} (place : s.pc = .check) (enable : s.enable = true)
      (begun : busStep s.bus (.checkBegin monitor) = some bus) :
      Effect build monitor s .check { s with
        bus := bus
        pc := if (bus.inCallback monitor).isSome then .receive else .create }
  | skip (place : s.pc = .check) (disabled : s.enable = false) :
      Effect build monitor s .check { s with pc := .create }
  | receive {call : InCallback} {answer : Received} (place : s.pc = .receive)
      (called : s.bus.inCallback monitor = some call)
      (handled : receiveMessage build call.msg (s.childrenPids .processing) s.enable = .ok answer) :
      Effect build monitor s .receive (s.received answer)
  | reply {ret : Int} {bus : BusState} (place : s.pc = .reply ret)
      (ended : busStep s.bus (.checkEnd monitor ret) = some bus) :
      Effect build monitor s .reply { s with bus := bus, pc := .create }
  | exit {pid : Nat} {success : Bool} :
      Effect build monitor s (.exit pid success)
        (s.modify pid fun proc => { proc with exited := some success })
  | agencyStart {proc : Proc} {bus : BusState} (listed : proc ∈ s.procs)
      (processing : proc.kind = .processing) (running : proc.exited = none)
      (enable : proc.enable = true) (first : proc.started = false)
      (called : busStep s.bus (.subscribe proc.pid true) = some bus) :
      Effect build monitor s (.agencyStart proc.pid) (s.subscribed proc.pid bus)
  | publish {proc : Proc} {received : List UInt8} {command : Command} {bus : BusState}
      (listed : proc ∈ s.procs) (control : proc.kind = .control)
      (server : IsServerCommand build command)
      (called : busStep s.bus (.publish proc.pid command.message false) = some bus) :
      Effect build monitor s (.command proc.pid received) { s with bus := bus }
  | refuse {pid : Nat} {received : List UInt8} :
      Effect build monitor s (.command pid received) s

variable {build : Build} {monitor : Nat} {s target : Supervisor}

/-- After a child was waited for, the loop is left or goes on. -/
theorem Supervisor.reap_pc (s : Supervisor) (proc : Proc) :
    (s.reap proc).pc = .left ∨ (s.reap proc).pc = .check := by
  have hpc : (s.reap proc).pc = if (s.reap proc).allStopped then .left else .check := rfl
  rw [hpc]
  split_ifs
  · exact .inl rfl
  · exact .inr rfl

theorem Supervisor.running_eq_some {pid : Nat} {kind : Kind} {proc : Proc}
    (found : s.running pid kind = some proc) :
    proc ∈ s.procs ∧ proc.pid = pid ∧ proc.kind = kind ∧ proc.exited = none := by
  refine ⟨List.mem_of_find?_eq_some found, ?_⟩
  simpa [and_assoc] using List.find?_some found

/-- Every step has one of the effects. -/
theorem effect_of_step {act : SupAct} (enabled : supervisorStep build monitor s act = some target) :
    Effect build monitor s act target := by
  cases act with
  | create pid =>
      simp only [supervisorStep, Supervisor.create] at enabled
      split_ifs at enabled with hplace hneed havailable
      · cases enabled
        exact .create hplace hneed havailable
      · cases enabled
        exact .keep hplace hneed
  | createControl pid =>
      simp only [supervisorStep, Supervisor.createControl] at enabled
      split_ifs at enabled with hplace hneed havailable
      · cases enabled
        exact .createControl hplace hneed.1 hneed.2 havailable
      · cases enabled
        exact .keepControl hplace hneed
  | wait child =>
      simp only [supervisorStep, Supervisor.wait] at enabled
      split_ifs at enabled with hplace hnobody hzero hall
      · cases enabled
        exact .abort hplace hnobody
      · cases enabled
        exact .goOn hplace
      · obtain ⟨proc, hfound, rfl⟩ := Option.map_eq_some_iff.mp enabled
        exact .reap hplace (List.mem_of_find?_eq_some hfound)
  | check =>
      simp only [supervisorStep, Supervisor.check] at enabled
      split_ifs at enabled with hplace henable
      · obtain ⟨bus, hbus, rfl⟩ := Option.map_eq_some_iff.mp enabled
        exact .check hplace henable hbus
      · cases enabled
        exact .skip hplace (by simpa using henable)
  | receive =>
      simp only [supervisorStep, Supervisor.receive] at enabled
      split_ifs at enabled with hplace
      cases hcall : s.bus.inCallback monitor with
      | none =>
          rw [hcall] at enabled
          cases enabled
      | some call =>
          rw [hcall] at enabled
          cases hanswer : receiveMessage build call.msg (s.childrenPids .processing) s.enable with
          | error fault =>
              simp only [hanswer] at enabled
              cases enabled
          | ok answer =>
              simp only [hanswer] at enabled
              cases enabled
              exact .receive hplace hcall hanswer
  | reply =>
      simp only [supervisorStep] at enabled
      split at enabled
      case h_1 ret hplace =>
          obtain ⟨bus, hbus, rfl⟩ := Option.map_eq_some_iff.mp enabled
          exact .reply hplace hbus
      case h_2 => cases enabled
  | exit pid success =>
      simp only [supervisorStep, Supervisor.exit] at enabled
      split_ifs at enabled
      cases enabled
      exact .exit
  | agencyStart pid =>
      simp only [supervisorStep, Supervisor.agencyStart] at enabled
      cases hrunning : s.running pid .processing with
      | none =>
          rw [hrunning] at enabled
          cases enabled
      | some proc =>
          obtain ⟨hlisted, rfl, hkind, hexited⟩ := Supervisor.running_eq_some hrunning
          simp only [hrunning] at enabled
          split_ifs at enabled with hfirst
          simp only [Bool.and_eq_true, Bool.not_eq_true'] at hfirst
          obtain ⟨bus, hbus, rfl⟩ := Option.map_eq_some_iff.mp enabled
          exact .agencyStart hlisted hkind hexited hfirst.1 hfirst.2 hbus
  | command pid received =>
      simp only [supervisorStep, Supervisor.command] at enabled
      split_ifs at enabled with hready
      obtain ⟨hsome, hfilled, hfits⟩ := hready
      obtain ⟨proc, hrunning⟩ := Option.isSome_iff_exists.mp hsome
      obtain ⟨hlisted, rfl, hkind, -⟩ := Supervisor.running_eq_some hrunning
      split at enabled
      case h_1 command hpublish =>
          obtain ⟨bus, hbus, rfl⟩ := Option.map_eq_some_iff.mp enabled
          exact .publish hlisted hkind ⟨received, hfilled, hfits, hpublish⟩ hbus
      case h_2 =>
          cases enabled
          exact .refuse

end MmtProbe.DynamicConf
