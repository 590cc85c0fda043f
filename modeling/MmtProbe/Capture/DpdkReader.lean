/-
# The DPDK reader

A reader takes packets from the receive queues of a network card and puts them on
the rings of its workers.  For each worker it has a buffer: the packets of several
bursts are collected there and enqueued together, when there are enough of them or
when a second is over.  What a ring does not accept is tried once more and then freed
and counted.

The pointers in a buffer are memory that the ring reads, so the array is modelled
down to its bytes where the code computes an address in it.  What the card delivers,
what the clock says and how much a ring accepts are in the labels.
-/

import MmtProbe.Math.Buffer
import MmtProbe.Math.Machine
import Mathlib.Logic.Function.Basic

namespace MmtProbe.Capture

open MmtProbe.Math

/-- `READER_BURST_SIZE` -/
def readerBurstSize : Nat := 32

/-- `READER_DRAIN_THRESH` -/
def readerDrainThresh : Nat := 256

/-- `struct timespec` -/
structure Timespec where
  tvSec : Int
  tvNsec : Int
deriving DecidableEq, Repr

/-- `_time_to_uint64`: the seconds are in the lower half. -/
def timeToUint64 (time : Timespec) : UInt64 :=
  (UInt32.ofInt time.tvSec).toUInt64 + ((UInt32.ofInt time.tvNsec).toUInt64 <<< 32)

/-- `_tv_sec_from_uint64` -/
def tvSecFromUint64 (val : UInt64) : UInt32 := val.toUInt32

/-- A `struct rte_mbuf`, with the pointer to it. -/
structure Mbuf where
  address : UInt64
  dataLen : UInt16
  udata64 : UInt64
deriving DecidableEq, Repr

/-- `struct _stat` -/
structure Stat where
  packets : UInt64
  bytes : UInt64
deriving DecidableEq, Repr

/-- What the reader has for one of its workers, with what happened to its packets so far:
those that were received, those that were put on the ring, with the `NULL` at the end as
`none`, and those that were freed. -/
structure Lane where
  packets : List Mbuf
  bytesCount : UInt32
  pktsDropped : UInt64
  ring : List (Option UInt64)
  received : List Mbuf
  freed : List Mbuf
deriving DecidableEq, Repr

/-- Where the reader thread is. -/
inductive ReaderPhase (n : Nat) where
  /-- Before the condition of the outer loop. -/
  | top
  /-- In the inner loop, at a worker. -/
  | polling (worker : Fin n) (now : Timespec)
  | ended
deriving DecidableEq, Repr

structure DpdkReader (n : Nat) where
  lanes : Fin n → Lane
  statReceived : Stat
  statDropped : Stat
  phase : ReaderPhase n

/-! ## The code -/

/-- The array of pointers of a buffer, as it stands in memory. -/
def arrayBytes (packets : List Mbuf) : List UInt8 :=
  packets.flatMap fun packet => littleEndian 8 packet.address.toNat

/-- The pointer at a place in memory. -/
def pointerAt (memory : List UInt8) (address : Nat) : UInt64 :=
  UInt64.ofNat (littleValue ((memory.drop address).take 8))

/-- What `rte_ring_sp_enqueue_burst` finds at `(void *) packets + sent`. The cast comes
first, so `sent` counts bytes. -/
def retryPointers (packets : List Mbuf) (sent : Nat) : List UInt64 :=
  (List.range (packets.length - sent)).map fun k => pointerAt (arrayBytes packets) (sent + 8 * k)

/-- The sum of the lengths of some packets. -/
def totalLength (packets : List Mbuf) : Nat := (packets.map fun packet => packet.dataLen.toNat).sum

/-- A buffer is drained: its packets are given to the ring, which accepts `first` of them, and
then, if there are any left, `retry` of what it finds at the second address. The packets that
were not sent are freed. -/
def Lane.drain (lane : Lane) (first retry : Nat) : Lane × Stat :=
  let nbPkts := lane.packets.length
  let ring := lane.ring ++ (lane.packets.take first).map fun packet => some packet.address
  let reset := { lane with packets := [], bytesCount := 0, ring := ring }
  if first < nbPkts then
    let ring := ring ++ ((retryPointers lane.packets first).take retry).map some
    let reset := { reset with ring := ring }
    let sent := first + retry
    if sent < nbPkts then
      let dropped := lane.packets.drop sent
      ({ reset with
          freed := lane.freed ++ dropped
          pktsDropped := lane.pktsDropped + UInt64.ofNat (nbPkts - sent) },
        ⟨UInt64.ofNat (nbPkts - sent), UInt64.ofNat (totalLength dropped)⟩)
    else (reset, ⟨0, 0⟩)
  else (reset, ⟨0, 0⟩)

/-- When a buffer is drained: it is large, or its first packet is from an earlier second. -/
def drains (packets : List Mbuf) (now : Timespec) : Bool :=
  packets.length ≥ readerDrainThresh ||
    match packets with
    | [] => false
    | packet :: _ => now.tvSec > (tvSecFromUint64 packet.udata64).toNat

/-- The packets of a burst, which are stamped with the time, behind those in the buffer. -/
def Lane.receive (lane : Lane) (now : Timespec) (burst : List (UInt64 × UInt16)) : Lane :=
  let packets := burst.map fun mbuf => (⟨mbuf.1, mbuf.2, timeToUint64 now⟩ : Mbuf)
  { lane with
    packets := lane.packets ++ packets
    bytesCount := lane.bytesCount + UInt32.ofNat (totalLength packets)
    received := lane.received ++ packets }

namespace DpdkReader

variable {n : Nat}

/-- One round of the inner loop. -/
def poll (reader : DpdkReader n) (worker : Fin n) (now : Timespec)
    (burst : List (UInt64 × UInt16)) (first retry : Nat) : DpdkReader n :=
  if burst = [] ∧ (reader.lanes worker).packets = [] then reader
  else
    let lane := (reader.lanes worker).receive now burst
    if drains lane.packets now then
      let drained := lane.drain first retry
      { reader with
        lanes := Function.update reader.lanes worker drained.1
        statDropped :=
          ⟨reader.statDropped.packets + drained.2.packets,
            reader.statDropped.bytes + drained.2.bytes⟩
        statReceived :=
          ⟨reader.statReceived.packets + UInt64.ofNat lane.packets.length,
            reader.statReceived.bytes + lane.bytesCount.toUInt64⟩ }
    else { reader with lanes := Function.update reader.lanes worker lane }

/-- The next worker of the inner loop. -/
def advance (worker : Fin n) (now : Timespec) : ReaderPhase n :=
  if h : worker.val + 1 < n then .polling ⟨worker.val + 1, h⟩ now else .top

/-- The first worker of the inner loop. -/
def begin (n : Nat) (now : Timespec) : ReaderPhase n :=
  if h : 0 < n then .polling ⟨0, h⟩ now else .top

/-- Behind the outer loop: a `NULL` is put on every ring, and the buffers are given back. -/
def finish (reader : DpdkReader n) : DpdkReader n :=
  { reader with
    lanes := fun worker =>
      { reader.lanes worker with ring := (reader.lanes worker).ring ++ [none] }
    phase := .ended }

end DpdkReader

/-! ## The machine -/

/-- What happens next in a reader. -/
inductive ReaderAct where
  /-- The outer loop goes on, at some time. -/
  | round (now : Timespec)
  /-- The card delivers a burst; the ring would accept so many, and so many more. -/
  | poll (burst : List (UInt64 × UInt16)) (first retry : Nat)
  /-- `is_continuous` was cleared. -/
  | stop

/-- What the card and a ring may do: no more than they are asked for. -/
def Allowed (lane : Lane) (burst : List (UInt64 × UInt16)) (first retry : Nat) : Prop :=
  burst.length ≤ readerBurstSize ∧ first + retry ≤ lane.packets.length + burst.length

instance (lane : Lane) (burst : List (UInt64 × UInt16)) (first retry : Nat) :
    Decidable (Allowed lane burst first retry) := inferInstanceAs (Decidable (_ ∧ _))

/-- One step of `_reader_thread`. -/
def readerStep {n : Nat} (reader : DpdkReader n) (act : ReaderAct) : Option (DpdkReader n) :=
  match act, reader.phase with
  | .round now, .top => some { reader with phase := DpdkReader.begin n now }
  | .poll burst first retry, .polling worker now =>
      if Allowed (reader.lanes worker) burst first retry then
        some { reader.poll worker now burst first retry with
          phase := DpdkReader.advance worker now }
      else none
  | .stop, .top => some reader.finish
  | _, _ => none

/-- A buffer and a ring before the first packet. -/
def emptyLane : Lane := ⟨[], 0, 0, [], [], []⟩

/-- The reader before the first round. -/
def freshReader (n : Nat) : DpdkReader n := ⟨fun _ => emptyLane, ⟨0, 0⟩, ⟨0, 0⟩, .top⟩

/-- A reader with `n` workers. -/
def readerMachine (n : Nat) : Machine (DpdkReader n) ReaderAct where
  init reader := reader = freshReader n
  step := readerStep

end MmtProbe.Capture
