/-
# The message bus

`mmt_bus.c` keeps one message in shared memory, together with a table of
subscribers and one reply code.  Publishers and subscribers run in different
processes and meet only in the sections protected by the mutex, so a run of the
bus is an interleaving of these sections.  The callback of a subscriber runs
between two sections of `mmt_bus_subcriber_check`: a thread that is inside its
callback works on its own copy of a message.

The first part models the sections on the shared memory.  The second part adds
what every thread is doing and, as history, what happened so far; no step looks
at the history.
-/

import Mathlib.Logic.Function.Basic
import MmtProbe.DynamicConf.Server
import MmtProbe.Math.Machine

namespace MmtProbe.DynamicConf

open MmtProbe.Math

/-! ## Shared memory -/

/-- `MMT_BUS_MAX_MESSAGE_SIZE` -/
def busMaxMessageSize : Nat := bufferSize

/-- `DYN_CONF_CMD_REPLY_DO_NOTHING` -/
def replyDoNothing : Int := 1000

/-- `struct subscriber`. Of the callback only its presence matters to the bus. -/
structure Subscriber where
  /-- The thread of the subscriber, or 0 when the slot is free. -/
  pid : Nat
  isConsumed : Bool
  /-- Whether the callback is not `NULL`. -/
  callback : Bool
deriving DecidableEq, Repr

/-- `struct mmt_bus`, with `MMT_BUS_MAX_SUBSCRIBERS` slots. -/
structure Bus where
  nbSubscribers : Nat
  subLst : Fin 3 → Subscriber
  /-- The bytes of the message that are in use. -/
  message : List UInt8
  replyCode : Int

/-- The slots of the table, in the order in which they are searched. -/
def slots : List (Fin 3) := [0, 1, 2]

theorem mem_slots (slot : Fin 3) : slot ∈ slots := by
  revert slot
  decide

namespace Bus

/-- The memory of a new bus is zero. -/
def create : Bus := ⟨0, fun _ => ⟨0, false, false⟩, [], 0⟩

/-- Store a message that no subscriber has consumed. -/
def store (bus : Bus) (message : List UInt8) : Bus :=
  { bus with
    message := message
    replyCode := replyDoNothing
    subLst := fun slot => { bus.subLst slot with isConsumed := false } }

/-- The section of `mmt_bus_publish` that stores a message: nothing is stored
while the previous message waits for a reply. -/
def publish (bus : Bus) (message : List UInt8) : Option Bus :=
  if bus.replyCode ≠ replyDoNothing then some (bus.store message) else none

/-- The slot that `mmt_bus_subcriber_check` and `mmt_bus_unsubscribe` find. Only
the thread itself writes its number into the table or removes it, so the search
is not disturbed by others even where it runs without the mutex. -/
def slotOf (bus : Bus) (thread : Nat) : Option (Fin 3) :=
  slots.find? fun slot => (bus.subLst slot).pid == thread

/-- The section of `mmt_bus_subcriber_check` after the callback. -/
def reply (bus : Bus) (slot : Fin 3) (ret : Int) : Bus :=
  { bus with
    subLst := Function.update bus.subLst slot { bus.subLst slot with isConsumed := true }
    replyCode := if bus.replyCode = replyDoNothing then ret else bus.replyCode }

/-- The outcomes of `mmt_bus_subscribe`. -/
inductive Subscribed where
  | registered (slot : Fin 3) (bus : Bus)
  /-- No slot is free. -/
  | full
  /-- `MY_MISTAKE`: the process exits inside the section. -/
  | mistake

/-- Enter a thread into a slot. It is taken to have consumed the message that is
already there. -/
def register (bus : Bus) (slot : Fin 3) (thread : Nat) (callback : Bool) : Bus :=
  { bus with
    subLst := Function.update bus.subLst slot ⟨thread, true, callback⟩
    nbSubscribers := (bus.nbSubscribers + 1) % 2 ^ 8 }

/-- The section of `mmt_bus_subscribe`: the search ends at the first slot that is
free or that already holds the thread. -/
def subscribe (bus : Bus) (thread : Nat) (callback : Bool) : Subscribed :=
  match slots.find? fun slot =>
      (bus.subLst slot).pid == thread || (bus.subLst slot).pid == 0 with
  | none => .full
  | some slot =>
      if (bus.subLst slot).pid = thread then .mistake
      else .registered slot (bus.register slot thread callback)

/-- Free a slot. -/
def release (bus : Bus) (slot : Fin 3) : Bus :=
  { bus with
    subLst := Function.update bus.subLst slot { bus.subLst slot with pid := 0 }
    nbSubscribers := (bus.nbSubscribers + (2 ^ 8 - 1)) % 2 ^ 8 }

/-- The section of `mmt_bus_unsubscribe`. -/
def unsubscribe (bus : Bus) (thread : Nat) : Option Bus := (bus.slotOf thread).map bus.release

end Bus

/-! ## Threads and history -/

/-- A thread inside its callback: the slot it works for, and its copy of the
message with the number under which that message was accepted. -/
structure InCallback where
  slot : Fin 3
  msg : List UInt8
  serial : Nat

/-- One invocation of a callback. -/
structure Call where
  thread : Nat
  serial : Nat
  bytes : List UInt8
deriving DecidableEq, Repr

/-- The state of the bus and of the threads that use it, and the history. -/
structure BusState where
  bus : Bus
  /-- A process has exited inside a section: the mutex is never free again. -/
  locked : Bool
  inCallback : Nat → Option InCallback
  /-- Publishers that wait for a reply, with the number of their message. -/
  waiting : Nat → Option Nat
  /-- The accepted messages; the number of a message is its position. -/
  accepted : List (List UInt8)
  /-- How many messages had been accepted when a slot was taken. -/
  since : Fin 3 → Nat
  /-- The callbacks that were started. -/
  invoked : List Call
  /-- The callbacks that returned and were marked. -/
  finished : List Call
  /-- Subscribers that had not been called when their message was replaced. -/
  missed : List (Nat × Nat)
  /-- The values that callbacks returned, in the order in which they were given. -/
  answers : List (Call × Int)
  /-- Publisher, number of its message, and the reply it was given. -/
  returned : List (Nat × Nat × Nat)

/-- The sections, with what their environment decides. -/
inductive BusAct where
  | publish (publisher : Nat) (message : List UInt8) (wait : Bool)
  /-- One look at the reply by a publisher that waits for it. -/
  | poll (publisher : Nat)
  | checkBegin (thread : Nat)
  /-- The callback returned `ret`. -/
  | checkEnd (thread : Nat) (ret : Int)
  | subscribe (thread : Nat) (callback : Bool)
  | unsubscribe (thread : Nat)

namespace BusState

/-- Nobody has used the bus yet. -/
def fresh : BusState where
  bus := .create
  locked := false
  inCallback := fun _ => none
  waiting := fun _ => none
  accepted := []
  since := fun _ => 0
  invoked := []
  finished := []
  missed := []
  answers := []
  returned := []

/-- The number of the current message. -/
def serial (s : BusState) : Nat := s.accepted.length - 1

/-- A thread that is inside its callback or waits for a reply does not call the
bus. -/
def idle (s : BusState) (thread : Nat) : Bool :=
  (s.inCallback thread).isNone && (s.waiting thread).isNone

/-- A slot was taken before the current message was accepted. -/
def addressed (s : BusState) (slot : Fin 3) : Bool :=
  (s.bus.subLst slot).pid != 0 && s.since slot < s.accepted.length

/-- The subscribers of the current message whose callback was not started on it. -/
def notInvoked (s : BusState) : List (Nat × Nat) :=
  (slots.filter fun slot => s.addressed slot &&
      !s.invoked.any fun call =>
        call.thread == (s.bus.subLst slot).pid && call.serial == s.serial).map
    fun slot => ((s.bus.subLst slot).pid, s.serial)

/-- A message was stored. -/
def accept (s : BusState) (publisher : Nat) (message : List UInt8) (wait : Bool) (bus : Bus) :
    BusState :=
  { s with
    bus := bus
    accepted := s.accepted ++ [message]
    missed := s.missed ++ s.notInvoked
    waiting := if wait then Function.update s.waiting publisher (some s.accepted.length)
      else s.waiting }

/-- The section of `mmt_bus_publish` that stores a message. -/
def publish (s : BusState) (publisher : Nat) (message : List UInt8) (wait : Bool) : BusState :=
  if busMaxMessageSize < message.length then s
  else
    match s.bus.publish message with
    | none => s
    | some bus => s.accept publisher message wait bus

/-- The section in which a waiting publisher looks at the reply. It is converted
to 16 bits. -/
def poll (s : BusState) (publisher serial : Nat) : BusState :=
  if s.bus.replyCode = replyDoNothing then s
  else { s with
    waiting := Function.update s.waiting publisher none
    returned := s.returned ++ [(publisher, serial, (s.bus.replyCode % 2 ^ 16).toNat)] }

/-- A thread copies the message and starts its callback. -/
def start (s : BusState) (thread : Nat) (slot : Fin 3) : BusState :=
  { s with
    inCallback := Function.update s.inCallback thread (some ⟨slot, s.bus.message, s.serial⟩)
    invoked := s.invoked ++ [⟨thread, s.serial, s.bus.message⟩] }

/-- The section of `mmt_bus_subcriber_check` before the callback. -/
def checkBegin (s : BusState) (thread : Nat) : BusState :=
  match s.bus.slotOf thread with
  | none => s
  | some slot =>
      if (s.bus.subLst slot).callback && !(s.bus.subLst slot).isConsumed then s.start thread slot
      else s

/-- The section of `mmt_bus_subcriber_check` after the callback. -/
def checkEnd (s : BusState) (thread : Nat) (call : InCallback) (ret : Int) : BusState :=
  { s with
    bus := s.bus.reply call.slot ret
    inCallback := Function.update s.inCallback thread none
    finished := s.finished ++ [⟨thread, call.serial, call.msg⟩]
    answers := s.answers ++ [(⟨thread, call.serial, call.msg⟩, ret)] }

/-- The section of `mmt_bus_subscribe`. -/
def subscribe (s : BusState) (thread : Nat) (callback : Bool) : BusState :=
  match s.bus.subscribe thread callback with
  | .registered slot bus => { s with
      bus := bus
      since := Function.update s.since slot s.accepted.length }
  | .full => s
  | .mistake => { s with locked := true }

/-- The section of `mmt_bus_unsubscribe`. -/
def unsubscribe (s : BusState) (thread : Nat) : BusState :=
  match s.bus.unsubscribe thread with
  | none => s
  | some bus => { s with bus := bus }

end BusState

/-- One section. Thread numbers are positive. -/
def busStep (s : BusState) (act : BusAct) : Option BusState :=
  if s.locked then none
  else
    match act with
    | .publish publisher message wait =>
        if s.idle publisher then some (s.publish publisher message wait) else none
    | .poll publisher => (s.waiting publisher).map fun serial => s.poll publisher serial
    | .checkBegin thread =>
        if s.idle thread ∧ thread ≠ 0 then some (s.checkBegin thread) else none
    | .checkEnd thread ret => (s.inCallback thread).map fun call => s.checkEnd thread call ret
    | .subscribe thread callback =>
        if s.idle thread ∧ thread ≠ 0 then some (s.subscribe thread callback) else none
    | .unsubscribe thread =>
        if s.idle thread ∧ thread ≠ 0 then some (s.unsubscribe thread) else none

/-- The bus and the threads that use it. -/
def busMachine : Machine BusState BusAct where
  init s := s = .fresh
  step := busStep

/-- The state after a run from the start, when all its sections are enabled. -/
def busRun (acts : List BusAct) : BusState := busMachine.after acts .fresh

theorem reachable_busRun {acts : List BusAct} (enabled : (busMachine.run acts .fresh).isSome) :
    busMachine.Reachable (busRun acts) :=
  Machine.reachable_after rfl enabled

/-! ## What a section can do -/

namespace Bus

variable {bus : Bus} {thread : Nat} {slot : Fin 3}

theorem publish_eq_some {message : List UInt8} {target : Bus}
    (stored : bus.publish message = some target) :
    bus.replyCode ≠ replyDoNothing ∧ target = bus.store message := by
  unfold publish at stored
  split_ifs at stored with hreply
  exact ⟨hreply, (Option.some.inj stored).symm⟩

theorem pid_of_slotOf_eq_some (found : bus.slotOf thread = some slot) :
    (bus.subLst slot).pid = thread := by
  simpa using List.find?_some found

/-- The search of `mmt_bus_subscribe` ends with a full table, at a slot that holds
the thread, or at a free one. -/
theorem subscribe_cases (bus : Bus) (thread : Nat) (callback : Bool) :
    (bus.subscribe thread callback = .full ∧ ∀ slot, (bus.subLst slot).pid ≠ thread ∧
        (bus.subLst slot).pid ≠ 0) ∨
      (bus.subscribe thread callback = .mistake ∧ ∃ slot, (bus.subLst slot).pid = thread) ∨
      ∃ slot, (bus.subLst slot).pid = 0 ∧ (bus.subLst slot).pid ≠ thread ∧
        bus.subscribe thread callback = .registered slot (bus.register slot thread callback) := by
  unfold subscribe
  cases hfind : slots.find? fun slot =>
      (bus.subLst slot).pid == thread || (bus.subLst slot).pid == 0 with
  | none =>
      refine .inl ⟨rfl, fun slot => ?_⟩
      have hslot := List.find?_eq_none.mp hfind slot (mem_slots slot)
      simpa using hslot
  | some slot =>
      have hslot := List.find?_some hfind
      by_cases hpid : (bus.subLst slot).pid = thread
      · exact .inr (.inl ⟨by simp [hpid], slot, hpid⟩)
      · refine .inr (.inr ⟨slot, ?_, hpid, by simp [hpid]⟩)
        simpa [hpid] using hslot

end Bus

namespace BusState

variable {s target : BusState}

theorem serial_accept (s : BusState) (publisher : Nat) (message : List UInt8) (wait : Bool)
    (bus : Bus) : (s.accept publisher message wait bus).serial = s.accepted.length := by
  simp [accept, serial]

/-- A publication changes nothing or stores its message. -/
theorem publish_cases (s : BusState) (publisher : Nat) (message : List UInt8) (wait : Bool) :
    s.publish publisher message wait = s ∨
      ∃ bus, s.bus.publish message = some bus ∧ message.length ≤ busMaxMessageSize ∧
        s.publish publisher message wait = s.accept publisher message wait bus := by
  unfold publish
  split_ifs with hsize
  · exact .inl rfl
  cases hbus : s.bus.publish message with
  | none => exact .inl rfl
  | some bus => exact .inr ⟨bus, rfl, Nat.le_of_not_lt hsize, rfl⟩

/-- The first section of a check changes nothing or starts the callback. -/
theorem checkBegin_cases (s : BusState) (thread : Nat) :
    s.checkBegin thread = s ∨
      ∃ slot, (s.bus.subLst slot).pid = thread ∧ (s.bus.subLst slot).isConsumed = false ∧
        s.checkBegin thread = s.start thread slot := by
  unfold checkBegin
  cases hslot : s.bus.slotOf thread with
  | none => exact .inl rfl
  | some slot =>
      by_cases hcall : (s.bus.subLst slot).callback && !(s.bus.subLst slot).isConsumed
      · refine .inr ⟨slot, Bus.pid_of_slotOf_eq_some hslot, ?_, by simp only [hcall, if_true]⟩
        simp only [Bool.and_eq_true, Bool.not_eq_true'] at hcall
        exact hcall.2
      · exact .inl (by simp only [hcall]; rfl)

/-- Unsubscribing changes nothing or frees a slot of the thread. -/
theorem unsubscribe_cases (s : BusState) (thread : Nat) :
    s.unsubscribe thread = s ∨
      ∃ slot, (s.bus.subLst slot).pid = thread ∧
        s.unsubscribe thread = { s with bus := s.bus.release slot } := by
  unfold unsubscribe Bus.unsubscribe
  cases hslot : s.bus.slotOf thread with
  | none => exact .inl rfl
  | some slot => exact .inr ⟨slot, Bus.pid_of_slotOf_eq_some hslot, rfl⟩

end BusState

/-- What a step of the bus is, by its label. -/
theorem busStep_eq_some {s target : BusState} {act : BusAct}
    (enabled : busStep s act = some target) :
    s.locked = false ∧
      match act with
      | .publish publisher message wait =>
          s.idle publisher = true ∧ target = s.publish publisher message wait
      | .poll publisher => ∃ serial, s.waiting publisher = some serial ∧
          target = s.poll publisher serial
      | .checkBegin thread => s.idle thread = true ∧ thread ≠ 0 ∧ target = s.checkBegin thread
      | .checkEnd thread ret => ∃ call, s.inCallback thread = some call ∧
          target = s.checkEnd thread call ret
      | .subscribe thread callback =>
          s.idle thread = true ∧ thread ≠ 0 ∧ target = s.subscribe thread callback
      | .unsubscribe thread =>
          s.idle thread = true ∧ thread ≠ 0 ∧ target = s.unsubscribe thread := by
  unfold busStep at enabled
  split_ifs at enabled with hlocked
  refine ⟨by simpa using hlocked, ?_⟩
  cases act with
  | publish publisher message wait =>
      simp only at enabled ⊢
      split_ifs at enabled with hidle
      exact ⟨hidle, (Option.some.inj enabled).symm⟩
  | poll publisher =>
      obtain ⟨serial, hserial, rfl⟩ := Option.map_eq_some_iff.mp enabled
      exact ⟨serial, hserial, rfl⟩
  | checkBegin thread =>
      simp only at enabled ⊢
      split_ifs at enabled with hidle
      exact ⟨hidle.1, hidle.2, (Option.some.inj enabled).symm⟩
  | checkEnd thread ret =>
      obtain ⟨call, hcall, rfl⟩ := Option.map_eq_some_iff.mp enabled
      exact ⟨call, hcall, rfl⟩
  | subscribe thread callback =>
      simp only at enabled ⊢
      split_ifs at enabled with hidle
      exact ⟨hidle.1, hidle.2, (Option.some.inj enabled).symm⟩
  | unsubscribe thread =>
      simp only at enabled ⊢
      split_ifs at enabled with hidle
      exact ⟨hidle.1, hidle.2, (Option.some.inj enabled).symm⟩

end MmtProbe.DynamicConf
