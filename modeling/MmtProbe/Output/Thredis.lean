/-
# Commands to Redis from several threads

`thredis` lets several threads use one connection to a Redis server.  A thread writes its
command under a mutex, puts a record of its own stack at the end of a list, and sleeps on the
condition variable in it.  A reader thread takes the replies from the connection and hands
each of them to the first record of the list, which belongs to the oldest command, because
the server answers in order.  When the connection fails, the reader hands NULL to everyone.

Every lock, unlock, signal and wait is a step of its own, and so is every access to a record.
The client library and the server are in the labels: whether a command could be appended and
flushed, whether input could be read, and whether a reply is there.  What they promise is in
the steps: behind an error nothing is written or read any more, and there are no more replies
than commands, each of them the answer to the command at its place.
-/

import MmtProbe.Math.Machine
import MmtProbe.Math.TailList

namespace MmtProbe.Output

open MmtProbe.Math

/-! ## Threads and records -/

/-- The threads that lock a mutex. -/
inductive Party (T : Type)
  | reader
  | caller (thread : T)
deriving DecidableEq, Repr

/-- `struct redis_wait`, on the stack of the thread that waits; `next` is in the list. -/
structure RedisWait (T R : Type) where
  /-- The call of the thread has not returned. -/
  alive : Bool
  reply : Option R
  mutex : Option (Party T)

/-- Where a thread is in `thredis_command`.  Behind a flush the place has the number of the
command on the connection. -/
inductive CommandPlace (C : Type)
  | outside
  /-- In front of the lock of `thredis->mutex`. -/
  | entering (command : C)
  | checking (command : C)
  | appending (command : C)
  | flushing (command : C)
  /-- In front of an unlock behind which NULL is returned. -/
  | failing
  | pushing (number : Nat)
  /-- In front of the lock of `wait.mutex`. -/
  | locking (number : Nat)
  /-- In front of the unlock of `thredis->mutex`. -/
  | releasing (number : Nat)
  /-- In front of `pthread_cond_wait`. -/
  | waiting (number : Nat)
  | sleeping (number : Nat)
  /-- In `pthread_cond_wait`, which locks `wait.mutex` again. -/
  | woken (number : Nat)
  | unlocking (number : Nat)
  /-- In front of the end of the call and of its record. -/
  | destroying (number : Nat)
deriving DecidableEq, Repr

/-- The number of the command of a call, once it is on the connection. -/
def CommandPlace.number {C : Type} : CommandPlace C → Option Nat
  | .outside | .entering _ | .checking _ | .appending _ | .flushing _ | .failing => none
  | .pushing number | .locking number | .releasing number | .waiting number
  | .sleeping number | .woken number | .unlocking number | .destroying number => some number

/-- A place between lock and unlock of `thredis->mutex`. -/
def CommandPlace.holds {C : Type} : CommandPlace C → Bool
  | .checking _ | .appending _ | .flushing _ | .failing | .pushing _ | .locking _
  | .releasing _ => true
  | .outside | .entering _ | .waiting _ | .sleeping _ | .woken _ | .unlocking _
  | .destroying _ => false

/-- Where the reader thread is in `reader_thread_main`; from `storing` to `unlocking` it is in
`deliver_reply`, behind `pop_waiter`. -/
inductive ReaderPlace (T R : Type)
  | polling
  /-- Behind POLLERR, in front of the lock. -/
  | erred
  /-- Behind POLLIN, in front of the lock. -/
  | readable
  /-- In front of `redisBufferRead`. -/
  | reading
  /-- In front of `redisGetReplyFromReader`. -/
  | taking
  /-- In front of `while (thredis->wait_head)`. -/
  | draining
  | delivering (reply : Option R)
  | storing (thread : T) (reply : Option R)
  | locking (thread : T) (reply : Option R)
  | signalling (thread : T) (reply : Option R)
  | unlocking (thread : T) (reply : Option R)
  | ended

def ReaderPlace.holds {T R : Type} : ReaderPlace T R → Bool
  | .polling | .erred | .readable | .ended => false
  | .reading | .taking | .draining | .delivering _ | .storing _ _ | .locking _ _
  | .signalling _ _ | .unlocking _ _ => true

/-- The reader has found an error: it hands out NULL. -/
def ReaderPlace.failed {T R : Type} : ReaderPlace T R → Bool
  | .polling | .erred | .readable | .reading | .taking => false
  | .draining | .ended => true
  | .delivering reply | .storing _ reply | .locking _ reply | .signalling _ reply
  | .unlocking _ reply => reply.isNone

/-- `struct thredis` with its connection and its threads. -/
structure Thredis (T C R : Type) where
  /-- `redis` is not NULL. -/
  connected : Bool
  /-- `mutex` -/
  owner : Option (Party T)
  /-- `wait_head`, `wait_tail` and the links of the records. -/
  waits : TailList T
  record : T → RedisWait T R
  place : T → CommandPlace C
  reader : ReaderPlace T R
  /-- The client library has met an error. -/
  broken : Bool
  /-- The commands on the connection, and who has sent them. -/
  sent : List (T × C)
  /-- How many replies were handed out. -/
  answered : Nat
  /-- The calls that have returned: the number of the command, if it was sent, and the reply. -/
  returned : List (T × Option Nat × Option R)
  /-- NULL or a record that is gone was accessed. -/
  faulted : Bool

/-- A thread calls `thredis_command`, goes on in it, fails in the client library, or is woken
up without a signal. -/
inductive CommandMove (C : Type)
  | call (command : C)
  | go
  | fail
  | spurious
deriving DecidableEq, Repr

/-- The reader goes on, with what `poll` or the client library answers. -/
inductive ReaderMove
  | poll (error input : Bool)
  | go
  | reply
  | fail
deriving DecidableEq, Repr

inductive ThredisLabel (T C : Type)
  | caller (thread : T) (move : CommandMove C)
  | reader (move : ReaderMove)
deriving DecidableEq, Repr

namespace Thredis

variable {T C R : Type} [DecidableEq T]

def moveTo (thredis : Thredis T C R) (thread : T) (place : CommandPlace C) : Thredis T C R :=
  { thredis with place := Function.update thredis.place thread place }

def setRecord (thredis : Thredis T C R) (thread : T) (record : RedisWait T R) :
    Thredis T C R :=
  { thredis with record := Function.update thredis.record thread record }

/-- A mutex of a record is locked or unlocked. -/
def setMutex (thredis : Thredis T C R) (thread : T) (holder : Option (Party T)) :
    Thredis T C R :=
  thredis.setRecord thread { thredis.record thread with mutex := holder }

def fault (thredis : Thredis T C R) : Thredis T C R := { thredis with faulted := true }

/-! ## `thredis_command` -/

/-- `push_waiter`: the link of the last record is written, unless the list is empty. -/
def pushWaiter (thredis : Thredis T C R) (thread : T) : Thredis T C R :=
  match thredis.waits.tail with
  | .first => { thredis with waits := thredis.waits.push thread }
  | .link last =>
      if (thredis.record last).alive then { thredis with waits := thredis.waits.push thread }
      else thredis.fault

/-- `struct redis_wait wait = { .next = NULL, .reply = NULL, }`, with its mutex. -/
def initWait (thredis : Thredis T C R) (thread : T) : Thredis T C R :=
  { thredis.setRecord thread ⟨true, none, none⟩ with waits := thredis.waits.clear thread }

def lock (thredis : Thredis T C R) (party : Party T) : Option (Thredis T C R) :=
  if thredis.owner = none then some { thredis with owner := some party } else none

def unlock (thredis : Thredis T C R) : Thredis T C R := { thredis with owner := none }

/-- A call returns. -/
def leave (thredis : Thredis T C R) (thread : T) (number : Option Nat) (reply : Option R) :
    Thredis T C R :=
  { thredis.moveTo thread .outside with
    returned := thredis.returned ++ [(thread, number, reply)] }

/-- The stack of a call is given back. -/
def destroy (thredis : Thredis T C R) (thread : T) : Thredis T C R :=
  thredis.setRecord thread { thredis.record thread with alive := false }

/-- One step of a thread in `thredis_command`. -/
def commandStep (thredis : Thredis T C R) (thread : T) :
    CommandPlace C → CommandMove C → Option (Thredis T C R)
  | .outside, .call command => some (thredis.moveTo thread (.entering command))
  | .entering command, .go =>
      (thredis.lock (.caller thread)).map fun locked => locked.moveTo thread (.checking command)
  | .checking command, .go =>
      if thredis.connected then some (thredis.moveTo thread (.appending command))
      else some (thredis.moveTo thread .failing)
  | .appending command, .go => some (thredis.moveTo thread (.flushing command))
  | .appending _, .fail => some { thredis.moveTo thread .failing with broken := true }
  | .flushing command, .go =>
      -- behind an error the client library writes nothing
      if thredis.broken then none
      else
        some { thredis.moveTo thread (.pushing thredis.sent.length) with
          sent := thredis.sent ++ [(thread, command)] }
  | .flushing _, .fail => some { thredis.moveTo thread .failing with broken := true }
  | .failing, .go => some (thredis.unlock.leave thread none none)
  | .pushing number, .go =>
      some (((thredis.initWait thread).pushWaiter thread).moveTo thread (.locking number))
  | .locking number, .go =>
      if (thredis.record thread).mutex = none then
        some ((thredis.setMutex thread (some (.caller thread))).moveTo thread (.releasing number))
      else none
  | .releasing number, .go => some (thredis.unlock.moveTo thread (.waiting number))
  | .waiting number, .go =>
      -- the mutex is given back and the thread sleeps, in one step
      some ((thredis.setMutex thread none).moveTo thread (.sleeping number))
  | .sleeping number, .spurious => some (thredis.moveTo thread (.woken number))
  | .woken number, .go =>
      if (thredis.record thread).mutex = none then
        some ((thredis.setMutex thread (some (.caller thread))).moveTo thread (.unlocking number))
      else none
  | .unlocking number, .go =>
      some ((thredis.setMutex thread none).moveTo thread (.destroying number))
  | .destroying number, .go =>
      some ((thredis.destroy thread).leave thread (some number) (thredis.record thread).reply)
  | _, _ => none

/-! ## The reader -/

/-- `pop_waiter` reads the first record and its link. -/
def popWaiter (thredis : Thredis T C R) (reply : Option R) : Thredis T C R :=
  match thredis.waits.pop with
  | none => thredis.fault
  | some (thread, waits) =>
      if (thredis.record thread).alive then
        { thredis with
          waits := waits
          reader := .storing thread reply
          answered := if reply.isSome then thredis.answered + 1 else thredis.answered }
      else thredis.fault

/-- An access of the reader to a record. -/
def touch (thredis : Thredis T C R) (thread : T) (access : Thredis T C R) : Thredis T C R :=
  if (thredis.record thread).alive then access else thredis.fault

/-- `wait->reply = reply` -/
def store (thredis : Thredis T C R) (thread : T) (reply : Option R) : Thredis T C R :=
  { thredis.setRecord thread { thredis.record thread with reply := reply } with
    reader := .locking thread reply }

/-- `pthread_cond_signal` is lost when the thread does not sleep. -/
def signal (thredis : Thredis T C R) (thread : T) (reply : Option R) : Thredis T C R :=
  match thredis.place thread with
  | .sleeping number =>
      { thredis.moveTo thread (.woken number) with reader := .unlocking thread reply }
  | _ => { thredis with reader := .unlocking thread reply }

/-- The end of `deliver_reply`, behind which one of the two loops goes on. -/
def release (thredis : Thredis T C R) (thread : T) (reply : Option R) : Thredis T C R :=
  { thredis.setMutex thread none with
    reader := if reply.isNone then .draining else .taking }

variable (answer : List C → R)

/-- The answer of the server to the command with some number. -/
def replyTo (thredis : Thredis T C R) (number : Nat) : R :=
  answer ((thredis.sent.take (number + 1)).map Prod.snd)

/-- One step of `reader_thread_main`. -/
def readerStep (thredis : Thredis T C R) :
    ReaderPlace T R → ReaderMove → Option (Thredis T C R)
  | .polling, .poll error input =>
      if error then some { thredis with reader := .erred }
      else if input then some { thredis with reader := .readable }
      else some thredis
  | .erred, .go => (thredis.lock .reader).map fun locked => { locked with reader := .draining }
  | .readable, .go => (thredis.lock .reader).map fun locked => { locked with reader := .reading }
  | .reading, .go => if thredis.broken then none else some { thredis with reader := .taking }
  | .reading, .fail => some { thredis with reader := .draining, broken := true }
  | .taking, .go => some { thredis.unlock with reader := .polling }
  | .taking, .reply =>
      if thredis.answered < thredis.sent.length then
        some { thredis with
          reader := .delivering (some (thredis.replyTo answer thredis.answered)) }
      else none
  | .taking, .fail => some { thredis with reader := .draining, broken := true }
  | .draining, .go =>
      if thredis.waits.head = none then
        some { thredis.unlock with connected := false, reader := .ended }
      else some { thredis with reader := .delivering none }
  | .delivering reply, .go => some (thredis.popWaiter reply)
  | .storing thread reply, .go => some (thredis.touch thread (thredis.store thread reply))
  | .locking thread reply, .go =>
      if (thredis.record thread).alive then
        if (thredis.record thread).mutex = none then
          some { thredis.setMutex thread (some .reader) with reader := .signalling thread reply }
        else none
      else some thredis.fault
  | .signalling thread reply, .go =>
      some (thredis.touch thread (thredis.signal thread reply))
  | .unlocking thread reply, .go =>
      some (thredis.touch thread (thredis.release thread reply))
  | _, _ => none

def step (thredis : Thredis T C R) (label : ThredisLabel T C) : Option (Thredis T C R) :=
  if thredis.faulted then none
  else
    match label with
    | .caller thread move => thredis.commandStep thread (thredis.place thread) move
    | .reader move => thredis.readerStep answer thredis.reader move

end Thredis

/-- `thredis_new` -/
def thredisNew (T C R : Type) : Thredis T C R :=
  ⟨true, none, .empty fun _ => none, fun _ => ⟨false, none, none⟩, fun _ => .outside, .polling,
    false, [], 0, [], false⟩

/-- All runs of the threads that share a connection to a server. -/
def thredisMachine (T : Type) [DecidableEq T] {C R : Type} (answer : List C → R) :
    Machine (Thredis T C R) (ThredisLabel T C) where
  init thredis := thredis = thredisNew T C R
  step := Thredis.step answer

end MmtProbe.Output
