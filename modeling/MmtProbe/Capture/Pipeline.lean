/-
# The multi-threaded capture pipeline

`pcap_capture.c` with worker threads: the reader takes a packet from libpcap,
copies it into the ring of the worker that its hash number selects and, when the
ring is full, waits (offline) or drops the packet (online).  At the end it pushes
a break packet, whose length is 0, into every ring and joins the workers.  A
worker takes all packets that are available at once and looks for the break
packet only at the last of them.

The rings are those of `SpscRing`, with every access to shared memory a step of
its own.  An element holds the fields of its header and the bytes behind them,
one in each cell.  The timers of a worker do not touch the packets and are left out.
-/

import MmtProbe.Capture.PacketHash
import MmtProbe.Capture.SpscRing

namespace MmtProbe.Capture

open MmtProbe.Math

/-- What the pipeline reads of the configuration. -/
structure PipelineConfig where
  /-- `thread->thread_count`, which is not 0 when worker threads are used. -/
  threadCount : Nat
  positive : 0 < threadCount
  /-- `thread->thread_queue_packet_threshold` -/
  threadQueue : Nat
  /-- `input->snap_len` -/
  snapLen : Nat
  /-- `input->input_mode == OFFLINE_ANALYSIS` -/
  offline : Bool

/-- `BREAK_PCAP_NUMBER` -/
def breakPcapNumber : Nat := 0

/-- The header fields that the reader writes: `len`, `caplen`, `ts`, `user_args`. -/
def headerCells : Nat := 4

/-- The size of an element: `sizeof( pkthdr_t ) + snap_len`. -/
def PipelineConfig.elementSize (config : PipelineConfig) : Nat := headerCells + config.snapLen

/-! ## Packets -/

/-- A packet as libpcap hands it over: `struct pcap_pkthdr` and the data. -/
structure PcapPacket where
  len : Nat
  caplen : Nat
  ts : Nat
  pcapData : Nat → UInt8

/-- A packet as `worker_process_a_packet` sees it. -/
structure Packet where
  len : Nat
  caplen : Nat
  ts : Nat
  userArgs : Nat
  data : List UInt8
deriving DecidableEq, Repr

/-- The copy of a captured packet that the reader makes. -/
def PcapPacket.copy (packet : PcapPacket) : Packet where
  len := packet.len
  caplen := packet.caplen
  ts := packet.ts
  userArgs := 0
  data := (List.range packet.caplen).map packet.pcapData

/-- What the reader puts into a ring. -/
inductive Message where
  | captured (packet : Packet)
  /-- The dummy packet that tells a worker to stop. -/
  | stop
deriving DecidableEq, Repr

/-- The captured packet in a message. -/
def Message.packet? : Message → Option Packet
  | captured packet => some packet
  | stop => none

/-- The cells that the reader writes, in this order. Of the dummy packet only the
length is written. -/
def Message.cells : Message → List (Nat × Nat)
  | captured packet =>
      [(0, packet.len), (1, packet.caplen), (2, packet.ts), (3, packet.userArgs)] ++
        packet.data.mapIdx fun i byte => (headerCells + i, byte.toNat)
  | stop => [(0, breakPcapNumber)]

/-- The packet in an element. -/
def Packet.read (content : List Nat) : Packet where
  len := content.getD 0 0
  caplen := content.getD 1 0
  ts := content.getD 2 0
  userArgs := content.getD 3 0
  data := ((content.drop headerCells).take (content.getD 1 0)).map UInt8.ofNat

/-! ## Workers -/

/-- A worker with its ring. -/
structure Worker where
  fifo : RingState Nat
  /-- The thread has left its loop. -/
  exited : Bool
  /-- `stat.pkt_dropped` -/
  pktDropped : UInt64
  /-- The messages that were successfully pushed, as history. -/
  sent : List Message

namespace Worker

/-- The packets given to `worker_process_a_packet`. -/
def processed (w : Worker) : List Packet := w.fifo.reads.map Packet.read

/-- The packets that were pushed. -/
def given (w : Worker) : List Packet := w.sent.filterMap Message.packet?

/-- An access of the worker to its ring. -/
def consume (w : Worker) (act : ConsumerAct) : Option Worker :=
  (consumerStep w.fifo act).map fun fifo => { w with fifo := fifo }

/-- `_worker_thread`. The length of the last packet of a window is looked at before
the packet is processed. -/
def step (w : Worker) : Option Worker :=
  if w.exited then none
  else
    match w.fifo.consumer with
    | .idle => w.consume .popBulk
    | .reading _ n i e [] =>
        if i + 1 = n ∧ w.fifo.ring.elements e 0 = breakPcapNumber then
          some { w with exited := true }
        else w.consume .advance
    | _ => w.consume .advance

end Worker

/-! ## The reader -/

/-- The place of the reader. -/
inductive Reader (threadCount : Nat) where
  /-- in `pcap_dispatch`, between two packets -/
  | loop
  /-- holding an element of a worker, with the cells that it still has to write -/
  | filling (worker : Fin threadCount) (message : Message) (todo : List (Nat × Nat))
  /-- inside `data_spsc_ring_push_tmp_element` -/
  | pushing (worker : Fin threadCount) (message : Message)
  /-- about to send the dummy packet to a worker -/
  | stopping (next : Nat)
  /-- about to join a worker -/
  | joining (next : Nat)
  /-- all workers have been joined -/
  | joined
deriving DecidableEq

/-- The reader and the workers. -/
structure Pipeline (config : PipelineConfig) where
  reader : Reader config.threadCount
  workers : Fin config.threadCount → Worker
  /-- `traffic_stat.mmt.packets.receive` -/
  receive : UInt64

namespace Pipeline

variable {config : PipelineConfig}

/-- Replace one worker. -/
def setWorker (s : Pipeline config) (worker : Fin config.threadCount) (w : Worker) :
    Pipeline config :=
  { s with workers := Function.update s.workers worker w }

/-- An access of the reader to the ring of a worker. -/
def produce (s : Pipeline config) (worker : Fin config.threadCount) (act : ProducerAct Nat)
    (reader : Reader config.threadCount) : Option (Pipeline config) :=
  (producerStep (s.workers worker).fifo act).map fun fifo =>
    { s.setWorker worker { s.workers worker with fifo := fifo } with reader := reader }

/-- `data_spsc_ring_get_tmp_element`, in front of filling the element. -/
def send (s : Pipeline config) (worker : Fin config.threadCount) (message : Message) :
    Option (Pipeline config) :=
  s.produce worker .getTmpElement (.filling worker message message.cells)

/-- The push returned `QUEUE_SUCCESS`. -/
def delivered (s : Pipeline config) (worker : Fin config.threadCount) (message : Message)
    (fifo : RingState Nat) : Pipeline config :=
  let s := s.setWorker worker
    { s.workers worker with fifo := fifo, sent := (s.workers worker).sent ++ [message] }
  match message with
  | .captured _ => { s with reader := .loop, receive := s.receive + 1 }
  | .stop => { s with reader := .stopping (worker + 1) }

/-- The push returned `QUEUE_FULL`: a captured packet is dropped in online mode,
everything else is pushed again after a while. -/
def refused (s : Pipeline config) (worker : Fin config.threadCount) (message : Message)
    (fifo : RingState Nat) : Pipeline config :=
  match message, config.offline with
  | .captured _, false =>
      { s.setWorker worker { s.workers worker with
          fifo := fifo, pktDropped := (s.workers worker).pktDropped + 1 } with
        reader := .loop
        receive := s.receive + 1 }
  | message, _ =>
      { s.setWorker worker { s.workers worker with fifo := fifo } with
        reader := .filling worker message [] }

/-- A step inside `data_spsc_ring_push_tmp_element`. -/
def push (s : Pipeline config) (worker : Fin config.threadCount) (message : Message) :
    Option (Pipeline config) :=
  (producerStep (s.workers worker).fifo .push).map fun fifo =>
    match fifo.producer with
    | .idle => s.delivered worker message fifo
    | .filling _ => s.refused worker message fifo
    | _ => s.setWorker worker { s.workers worker with fifo := fifo }

/-- The worker that gets a captured packet. -/
def workerFor (config : PipelineConfig) (packet : PcapPacket) : Fin config.threadCount :=
  ⟨workerOf config.threadCount packet.pcapData packet.caplen, Nat.mod_lt _ config.positive⟩

/-- The next step of the reader, outside `pcap_dispatch`. -/
def advance (s : Pipeline config) : Option (Pipeline config) :=
  match s.reader with
  | .loop => none
  | .filling worker message [] => some { s with reader := .pushing worker message }
  | .filling worker message ((offset, value) :: todo) =>
      s.produce worker (.write offset value) (.filling worker message todo)
  | .pushing worker message => s.push worker message
  | .stopping next =>
      if more : next < config.threadCount then s.send ⟨next, more⟩ .stop
      else some { s with reader := .joining 0 }
  | .joining next =>
      if more : next < config.threadCount then
        if (s.workers ⟨next, more⟩).exited then some { s with reader := .joining (next + 1) }
        else none
      else some { s with reader := .joined }
  | .joined => none

end Pipeline

/-- The steps of the pipeline. -/
inductive PipeAct (threadCount : Nat) where
  /-- libpcap hands over a packet. -/
  | capture (packet : PcapPacket)
  /-- The loop around `pcap_dispatch` ends. -/
  | finish
  /-- The reader takes its next step. -/
  | reader
  /-- A worker takes its next step. -/
  | worker (worker : Fin threadCount)

/-- One step of the reader or of a worker. -/
def pipelineStep {config : PipelineConfig} (s : Pipeline config) :
    PipeAct config.threadCount → Option (Pipeline config)
  | .capture packet =>
      match s.reader with
      | .loop =>
          if packet.caplen ≤ config.snapLen then
            s.send (Pipeline.workerFor config packet) (.captured packet.copy)
          else none
      | _ => none
  | .finish =>
      match s.reader with
      | .loop => some { s with reader := .stopping 0 }
      | _ => none
  | .reader => s.advance
  | .worker worker => (s.workers worker).step.map (s.setWorker worker)

/-- A worker whose ring was just built. -/
def Worker.IsFresh (config : PipelineConfig) (w : Worker) : Prop :=
  ∃ data elements q, dataSpscRingInit config.threadQueue config.elementSize data elements = some q ∧
    w = ⟨.fresh q, false, 0, []⟩

/-- The pipeline, from the start of the worker threads. -/
def pipelineMachine (config : PipelineConfig) :
    Machine (Pipeline config) (PipeAct config.threadCount) where
  init s := s.reader = .loop ∧ s.receive = 0 ∧ ∀ worker, (s.workers worker).IsFresh config
  step := pipelineStep

end MmtProbe.Capture
