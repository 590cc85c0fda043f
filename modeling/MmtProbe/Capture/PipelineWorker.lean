/-
# A worker of the capture pipeline

The ring of a worker is a run of the ring machine, so the worker reads the first
ones of the elements that were pushed.  What is left to show is that these
elements hold the captured packets, that the break packet is the last one pushed,
and that the worker meets it at the end of a window, where it looks for it.
-/

import Mathlib.Data.List.Forall2
import MmtProbe.Capture.Pipeline
import MmtProbe.Capture.SpscRingFifo

namespace MmtProbe.Capture

open MmtProbe.Math

universe u

/-! ## What the two sides of a ring leave alone -/

section Ring

variable {β : Type u} {s t : RingState β}

/-- The element that the producer holds. -/
def Producer.tmp? : Producer → Option Nat
  | .idle => none
  | .filling tmp => some tmp
  | .pushing tmp _ => some tmp
  | .reloading tmp _ _ => some tmp
  | .storing tmp _ _ => some tmp
  | .publishing tmp _ _ => some tmp

/-- A consumer that takes packets in bulk only. -/
def Consumer.IsBulk : Consumer β → Prop
  | .idle | .reloading true _ | .fetching _ _ _ | .reading _ _ _ _ _ | .releasing _ _ => True
  | .reloading false _ | .popFetching _ | .popReleasing _ _ | .popReading _ _ => False

theorem bulkWindow_cases (q : DataSpscRing β) (t : Nat) :
    bulkWindow q t = .idle ∨ ∃ n, bulkWindow q t = .fetching t n 0 := by
  unfold bulkWindow
  dsimp only
  split_ifs
  · exact .inr ⟨_, rfl⟩
  · exact .inl rfl
  · exact .inr ⟨_, rfl⟩
  · exact .inl rfl

/-- A step of a consumer that takes packets in bulk: nothing of an element is read,
or the next cell of one, which may complete it. -/
theorem consumerStep_bulk {act : ConsumerAct} (bulk : s.consumer.IsBulk) (notPop : act ≠ .pop)
    (enabled : consumerStep s act = some t) :
    t.consumer.IsBulk ∧
      ((t.reads = s.reads ∧
          ∀ start n i e value buffer, t.consumer ≠ .reading start n i e (value :: buffer)) ∨
        ∃ start n i e buffer, s.consumer = .reading start n i e buffer ∧
          ((t.reads = s.reads ∧
              t.consumer = .reading start n i e (buffer ++ [s.ring.elements e buffer.length])) ∨
            (t.reads = s.reads ++ [buffer ++ [s.ring.elements e buffer.length]] ∧
              ∀ start n i e buffer, t.consumer ≠ .reading start n i e buffer))) := by
  cases act with
  | pop => exact absurd rfl notPop
  | popBulk =>
      cases hc : s.consumer <;> simp only [consumerStep, hc, reduceCtorEq] at enabled
      split_ifs at enabled
      · cases enabled
        exact ⟨trivial, .inl ⟨rfl, by simp⟩⟩
      · cases enabled
        rcases bulkWindow_cases s.ring s.ring.tail with hwindow | ⟨n, hwindow⟩
        all_goals
          rw [hwindow]
          exact ⟨trivial, .inl ⟨rfl, by simp⟩⟩
  | advance =>
      cases hc : s.consumer with
      | idle => simp [consumerStep, hc] at enabled
      | reloading isBulk start =>
          simp only [consumerStep, hc] at enabled
          cases isBulk with
          | false =>
              rw [hc] at bulk
              exact absurd bulk id
          | true =>
              simp only [if_true] at enabled
              split_ifs at enabled
              · cases enabled
                exact ⟨trivial, .inl ⟨rfl, by simp⟩⟩
              · cases enabled
                obtain hwindow | ⟨n, hwindow⟩ :=
                  bulkWindow_cases { s.ring with cachedHead := s.ring.head } start
                all_goals
                  rw [hwindow]
                  exact ⟨trivial, .inl ⟨rfl, by simp⟩⟩
      | fetching start n i =>
          simp only [consumerStep, hc] at enabled
          cases enabled
          exact ⟨trivial, .inl ⟨rfl, by simp⟩⟩
      | reading start n i e buffer =>
          simp only [consumerStep, hc] at enabled
          split_ifs at enabled
          · cases enabled
            exact ⟨trivial, .inr ⟨start, n, i, e, buffer, rfl, .inl ⟨rfl, rfl⟩⟩⟩
          · cases enabled
            exact ⟨trivial, .inr ⟨start, n, i, e, buffer, rfl, .inr ⟨rfl, by simp⟩⟩⟩
          · cases enabled
            exact ⟨trivial, .inr ⟨start, n, i, e, buffer, rfl, .inr ⟨rfl, by simp⟩⟩⟩
      | releasing start n =>
          simp only [consumerStep, hc] at enabled
          cases enabled
          exact ⟨trivial, .inl ⟨rfl, by simp⟩⟩
      | _ =>
          rw [hc] at bulk
          exact absurd bulk id

/-- The consumer and what it has read are as before. -/
structure SameConsumer (s t : RingState β) : Prop where
  consumer : t.consumer = s.consumer
  reads : t.reads = s.reads

/-- The producer, its elements and what it has pushed are as before. -/
structure SameProducer (s t : RingState β) : Prop where
  producer : t.producer = s.producer
  elements : t.ring.elements = s.ring.elements
  pushed : t.pushed = s.pushed

theorem producerStep_getTmpElement (enabled : producerStep s .getTmpElement = some t) :
    SameConsumer s t ∧ t.pushed = s.pushed ∧ ∃ tmp, t.producer.tmp? = some tmp := by
  cases hp : s.producer <;> simp only [producerStep, hp, reduceCtorEq] at enabled
  all_goals
    cases enabled
    exact ⟨⟨rfl, rfl⟩, rfl, _, rfl⟩

theorem producerStep_write {offset : Nat} {byte : β}
    (enabled : producerStep s (.write offset byte) = some t) :
    SameConsumer s t ∧ t.pushed = s.pushed ∧ t.producer = s.producer ∧
      ∃ tmp, s.producer.tmp? = some tmp ∧ t.ring = s.ring.writeElement tmp offset byte := by
  cases hp : s.producer <;> simp only [producerStep, hp, reduceCtorEq] at enabled
  split_ifs at enabled
  cases enabled
  exact ⟨⟨rfl, rfl⟩, rfl, rfl, _, rfl, rfl⟩

/-- A push changes no element. It ends by appending the content of the element that
the producer holds, or the producer keeps the element. -/
theorem producerStep_push (enabled : producerStep s .push = some t) :
    SameConsumer s t ∧ t.ring.elements = s.ring.elements ∧
      ∃ tmp, s.producer.tmp? = some tmp ∧
        ((t.producer = .idle ∧ t.pushed = s.pushed ++ [s.ring.content tmp]) ∨
          (t.producer.tmp? = some tmp ∧ t.pushed = s.pushed)) := by
  cases hp : s.producer with
  | idle => simp [producerStep, hp] at enabled
  | filling tmp =>
      simp only [producerStep, hp] at enabled
      cases enabled
      exact ⟨⟨rfl, rfl⟩, rfl, tmp, rfl, .inr ⟨rfl, rfl⟩⟩
  | pushing tmp val =>
      simp only [producerStep, hp] at enabled
      split_ifs at enabled
      all_goals
        cases enabled
        exact ⟨⟨rfl, rfl⟩, rfl, tmp, rfl, .inr ⟨rfl, rfl⟩⟩
  | reloading tmp val h =>
      simp only [producerStep, hp] at enabled
      split_ifs at enabled
      all_goals
        cases enabled
        exact ⟨⟨rfl, rfl⟩, rfl, tmp, rfl, .inr ⟨rfl, rfl⟩⟩
  | storing tmp val h =>
      simp only [producerStep, hp] at enabled
      cases enabled
      exact ⟨⟨rfl, rfl⟩, rfl, tmp, rfl, .inr ⟨rfl, rfl⟩⟩
  | publishing tmp val h =>
      simp only [producerStep, hp] at enabled
      cases enabled
      exact ⟨⟨rfl, rfl⟩, rfl, tmp, rfl, .inl ⟨rfl, rfl⟩⟩

theorem consumerStep_sameProducer {act : ConsumerAct} (enabled : consumerStep s act = some t) :
    SameProducer s t := by
  cases act <;> cases hc : s.consumer <;>
    simp only [consumerStep, hc, reduceCtorEq] at enabled
  all_goals
    try split_ifs at enabled
    all_goals
      cases enabled
      exact ⟨rfl, rfl, rfl⟩

/-- The size of the elements never changes. -/
theorem elementSize_of_reachable {size elementSize : Nat}
    (reached : (ringMachine β size elementSize).Reachable s) :
    s.ring.elementSize = elementSize := by
  refine reached.invariant (fun s => s.ring.elementSize = elementSize) ?_ ?_
  · rintro _ ⟨data, elements, q, built, rfl⟩
    unfold dataSpscRingInit at built
    split_ifs at built
    cases built
    rfl
  · intro s label t same enabled
    rw [← same]
    rcases label with (_ | ⟨offset, byte⟩ | _) | (_ | _ | _)
    · cases hp : s.producer <;>
        simp only [ringMachine, producerStep, hp, reduceCtorEq] at enabled
      all_goals
        cases enabled
        rfl
    · obtain ⟨-, -, -, tmp, -, hring⟩ := producerStep_write enabled
      rw [hring]
      rfl
    · cases hp : s.producer <;>
        simp only [ringMachine, producerStep, hp, reduceCtorEq] at enabled
      all_goals
        try split_ifs at enabled
        all_goals
          cases enabled
          rfl
    all_goals
      cases hc : s.consumer <;>
        simp only [ringMachine, consumerStep, hc, reduceCtorEq] at enabled
      all_goals
        try split_ifs at enabled
        all_goals
          cases enabled
          rfl

end Ring

/-! ## Packets in elements -/

/-- A captured packet that fits into an element and cannot be taken for the break
packet. -/
def Message.Fits (config : PipelineConfig) : Message → Prop
  | .captured packet => packet.len ≠ breakPcapNumber ∧ packet.data.length = packet.caplen ∧
      packet.caplen ≤ config.snapLen
  | .stop => True

/-- An element holds a message: the cells that the reader writes are there. -/
def Encodes (content : List Nat) (message : Message) : Prop :=
  ∀ cell ∈ message.cells, content[cell.1]? = some cell.2

variable {config : PipelineConfig}

theorem cells_lt {message : Message} (fits : message.Fits config) :
    ∀ cell ∈ message.cells, cell.1 < config.elementSize := by
  intro cell hcell
  unfold PipelineConfig.elementSize headerCells
  cases message with
  | stop =>
      rw [List.mem_singleton.mp hcell]
      omega
  | captured packet =>
      obtain ⟨-, hlength, hcaplen⟩ := fits
      rcases List.mem_append.mp hcell with hheader | hdata
      · simp only [List.mem_cons, List.not_mem_nil, or_false] at hheader
        rcases hheader with rfl | rfl | rfl | rfl <;> omega
      · obtain ⟨i, hi, rfl⟩ := List.mem_mapIdx.mp hdata
        simp only [headerCells]
        omega

/-- No cell is written twice. -/
theorem cells_nodup (message : Message) : (message.cells.map Prod.fst).Nodup := by
  cases message with
  | stop => exact List.nodup_singleton _
  | captured packet =>
      have hdata : (packet.data.mapIdx fun i byte => (headerCells + i, byte.toNat)).map Prod.fst
          = (List.range packet.data.length).map (headerCells + ·) := by
        apply List.ext_getElem
        · simp
        · intro i hi hi'
          simp
      simp only [Message.cells, List.map_append, hdata]
      refine List.nodup_append.mpr ⟨by simp, ?_, ?_⟩
      · exact List.nodup_range.map fun i j h => Nat.add_left_cancel h
      · intro a ha b hb
        obtain ⟨i, -, rfl⟩ := List.mem_map.mp hb
        simp only [List.map_cons, List.map_nil, List.mem_cons, List.not_mem_nil, or_false] at ha
        simp only [headerCells]
        omega

/-- Reading an element gives the captured packet back. -/
theorem read_of_encodes {content : List Nat} {packet : Packet}
    (encodes : Encodes content (.captured packet))
    (fits : (Message.captured packet).Fits config) : Packet.read content = packet := by
  have hcell : ∀ cell ∈ (Message.captured packet).cells, content.getD cell.1 0 = cell.2 := by
    intro cell hmem
    rw [List.getD_eq_getElem?_getD, encodes cell hmem, Option.getD_some]
  have hlen := hcell (0, packet.len) (by simp [Message.cells])
  have hcaplen := hcell (1, packet.caplen) (by simp [Message.cells])
  have hts := hcell (2, packet.ts) (by simp [Message.cells])
  have hargs := hcell (3, packet.userArgs) (by simp [Message.cells])
  simp only at hlen hcaplen hts hargs
  have hdata : ((content.drop headerCells).take packet.caplen).map UInt8.ofNat = packet.data := by
    have hbytes : (content.drop headerCells).take packet.caplen = packet.data.map UInt8.toNat := by
      apply List.ext_getElem?
      intro i
      rcases Nat.lt_or_ge i packet.data.length with hi | hi
      · have hmem : (headerCells + i, (packet.data[i]).toNat) ∈ (Message.captured packet).cells :=
          List.mem_append_right _ (List.mem_mapIdx.mpr ⟨i, hi, rfl⟩)
        rw [List.getElem?_take_of_lt (fits.2.1 ▸ hi), List.getElem?_drop, encodes _ hmem]
        simp [hi]
      · rw [List.getElem?_eq_none, List.getElem?_eq_none]
        · simpa using hi
        · rw [List.length_take]
          exact Nat.min_le_left _ _ |>.trans (fits.2.1 ▸ hi)
    rw [hbytes, List.map_map]
    conv_rhs => rw [← List.map_id packet.data]
    apply List.map_congr_left
    intro byte _
    simp
  simp only [Packet.read, hlen, hcaplen, hts, hargs, hdata]

/-- Reading elements gives the captured packets back. -/
theorem map_read_eq {contents : List (List Nat)} {messages : List Message}
    (encoded : List.Forall₂ Encodes contents messages)
    (fits : ∀ message ∈ messages, message.Fits config) (captured : Message.stop ∉ messages) :
    contents.map Packet.read = messages.filterMap Message.packet? := by
  induction encoded with
  | nil => rfl
  | @cons content message contents messages hencodes _ ih =>
      have hrest := ih (fun m hm => fits m (List.mem_cons_of_mem _ hm))
        fun h => captured (List.mem_cons_of_mem _ h)
      cases message with
      | stop => exact absurd List.mem_cons_self captured
      | captured packet =>
          have hread := read_of_encodes hencodes (fits _ List.mem_cons_self)
          simp [hread, hrest, Message.packet?]

theorem map_captured_filterMap {messages : List Message} (captured : Message.stop ∉ messages) :
    (messages.filterMap Message.packet?).map Message.captured = messages := by
  induction messages with
  | nil => rfl
  | cons message messages ih =>
      have hrest := ih fun h => captured (List.mem_cons_of_mem _ h)
      cases message with
      | stop => exact absurd List.mem_cons_self captured
      | captured packet => simp [Message.packet?, hrest]

/-! ## One worker -/

/-- What holds of a worker and its ring. -/
structure WorkerInv (config : PipelineConfig) (w : Worker) : Prop where
  ring : (ringMachine Nat config.threadQueue config.elementSize).Reachable w.fifo
  encoded : List.Forall₂ Encodes w.fifo.pushed w.sent
  fits : ∀ message ∈ w.sent, message.Fits config
  /-- Nothing is sent behind the break packet. -/
  last : ∀ j : Nat, w.sent[j]? = some .stop → j + 1 = w.sent.length
  bulk : w.fifo.consumer.IsBulk
  /-- A last packet that is being processed was looked at. -/
  checked : ∀ t n i e value buffer, w.fifo.consumer = .reading t n i e (value :: buffer) →
    i + 1 = n → value ≠ breakPcapNumber
  processed : ∀ j < w.fifo.reads.length, ∃ packet, w.sent[j]? = some (.captured packet)
  left : w.exited = true → w.sent[w.fifo.reads.length]? = some .stop

namespace WorkerInv

variable {w : Worker}

theorem fresh (isFresh : w.IsFresh config) : WorkerInv config w := by
  obtain ⟨data, elements, q, hbuilt, rfl⟩ := isFresh
  exact {
    ring := .start ⟨data, elements, q, hbuilt, rfl⟩
    encoded := .nil
    fits := fun _ h => absurd h List.not_mem_nil
    last := fun j h => by simp at h
    bulk := trivial
    checked := nofun
    processed := fun j h => absurd h (Nat.not_lt_zero j)
    left := nofun }

/-- The messages that were read are captured packets. -/
theorem stop_not_mem_take (inv : WorkerInv config w) :
    Message.stop ∉ w.sent.take w.fifo.reads.length := by
  intro hmem
  obtain ⟨j, hj⟩ := List.mem_iff_getElem?.mp hmem
  have hlt : j < w.fifo.reads.length := by
    obtain ⟨hlt, -⟩ := List.getElem?_eq_some_iff.mp hj
    rw [List.length_take] at hlt
    omega
  obtain ⟨packet, hpacket⟩ := inv.processed j hlt
  rw [List.getElem?_take_of_lt hlt, hpacket] at hj
  cases hj

/-- The worker processes the first ones of the messages that were sent. -/
theorem processed_eq (inv : WorkerInv config w) (bounded : config.threadQueue + 4 < 2 ^ 32) :
    w.processed = (w.sent.take w.fifo.reads.length).filterMap Message.packet? := by
  obtain ⟨ct, ch, ring⟩ := ringInv_of_reachable bounded inv.ring
  have hreads : w.fifo.reads = w.fifo.pushed.take w.fifo.reads.length :=
    List.prefix_iff_eq_take.mp ring.reads_eq
  have hencoded := List.forall₂_take w.fifo.reads.length inv.encoded
  rw [← hreads] at hencoded
  exact map_read_eq hencoded (fun m hm => inv.fits m (List.mem_of_mem_take hm))
    inv.stop_not_mem_take

theorem processed_prefix_given (inv : WorkerInv config w)
    (bounded : config.threadQueue + 4 < 2 ^ 32) : w.processed <+: w.given := by
  rw [inv.processed_eq bounded]
  exact (List.take_prefix _ _).filterMap _

/-- A worker that has left processed everything in front of the break packet. -/
theorem sent_eq (inv : WorkerInv config w) (bounded : config.threadQueue + 4 < 2 ^ 32)
    (exited : w.exited = true) : w.sent = w.processed.map .captured ++ [.stop] := by
  have hleft := inv.left exited
  have hlast := inv.last _ hleft
  rw [inv.processed_eq bounded, map_captured_filterMap inv.stop_not_mem_take]
  conv_lhs => rw [← List.take_append_drop w.fifo.reads.length w.sent]
  rw [List.getElem?_eq_getElem (by omega), Option.some.injEq] at hleft
  rw [List.drop_eq_getElem_cons (by omega), hleft, List.drop_eq_nil_of_le (by omega)]

/-- So far, the element that the worker has begun to read holds the message that
comes next. -/
theorem encodes_reading (inv : WorkerInv config w) (bounded : config.threadQueue + 4 < 2 ^ 32)
    {t n i e : Nat} {buffer : List Nat} (reading : w.fifo.consumer = .reading t n i e buffer) :
    (∃ message, w.sent[w.fifo.reads.length]? = some message ∧
      Encodes (w.fifo.ring.content e) message) ∧
      (w.fifo.reads.length + 1 = w.sent.length → i + 1 = n) ∧
      buffer = (w.fifo.ring.content e).take buffer.length := by
  obtain ⟨ct, ch, ring⟩ := ringInv_of_reachable bounded inv.ring
  have hcons := ring.consumer_inv
  simp only [ConsumerInv, reading] at hcons
  obtain ⟨⟨-, hreads, hknown, -⟩, hi, he, -, hbuffer⟩ := hcons
  have hch := ring.ch_le
  have hlength := inv.encoded.length_eq
  have hpushed := ring.content_eq _ le_rfl (by omega : w.fifo.reads.length < w.fifo.pushed.length)
  rw [← he] at hpushed
  refine ⟨?_, fun hlast => by omega, hbuffer⟩
  have hlt : w.fifo.reads.length < w.sent.length := by omega
  refine ⟨w.sent[w.fifo.reads.length], List.getElem?_eq_getElem hlt, ?_⟩
  obtain ⟨hlt', hget⟩ := List.getElem?_eq_some_iff.mp hpushed
  rw [← hget]
  exact inv.encoded.get hlt' hlt

/-- The reader works on the ring without completing a push. -/
theorem produce (inv : WorkerInv config w) {act : ProducerAct Nat} {fifo : RingState Nat}
    (enabled : producerStep w.fifo act = some fifo) (same : SameConsumer w.fifo fifo)
    (pushed : fifo.pushed = w.fifo.pushed) : WorkerInv config { w with fifo := fifo } where
  ring := Machine.ReachableWhen.follow inv.ring (.producer act) trivial enabled
  encoded := by
    rw [pushed]
    exact inv.encoded
  fits := inv.fits
  last := inv.last
  bulk := by
    rw [same.consumer]
    exact inv.bulk
  checked := by
    rw [same.consumer]
    exact inv.checked
  processed := by
    rw [same.reads]
    exact inv.processed
  left := by
    rw [same.reads]
    exact inv.left

/-- The reader completes a push. -/
theorem deliver (inv : WorkerInv config w) {act : ProducerAct Nat} {fifo : RingState Nat}
    (enabled : producerStep w.fifo act = some fifo) (same : SameConsumer w.fifo fifo)
    {content : List Nat} {message : Message} (pushed : fifo.pushed = w.fifo.pushed ++ [content])
    (encodes : Encodes content message) (fits : message.Fits config)
    (fresh : Message.stop ∉ w.sent) :
    WorkerInv config { w with fifo := fifo, sent := w.sent ++ [message] } where
  ring := Machine.ReachableWhen.follow inv.ring (.producer act) trivial enabled
  encoded := by
    rw [pushed]
    exact List.rel_append inv.encoded (.cons encodes .nil)
  fits m hm := by
    rcases List.mem_append.mp hm with hold | hnew
    · exact inv.fits m hold
    · rw [List.mem_singleton.mp hnew]
      exact fits
  last j hj := by
    rw [List.length_append, List.length_singleton]
    rcases Nat.lt_or_ge j w.sent.length with hlt | hge
    · rw [List.getElem?_append_left hlt] at hj
      exact absurd (List.mem_of_getElem? hj) fresh
    · obtain ⟨hlt, -⟩ := List.getElem?_eq_some_iff.mp hj
      rw [List.length_append, List.length_singleton] at hlt
      omega
  bulk := by
    rw [same.consumer]
    exact inv.bulk
  checked := by
    rw [same.consumer]
    exact inv.checked
  processed j hj := by
    rw [same.reads] at hj
    obtain ⟨packet, hpacket⟩ := inv.processed j hj
    refine ⟨packet, ?_⟩
    rw [List.getElem?_append_left (List.getElem?_eq_some_iff.mp hpacket).1]
    exact hpacket
  left hexited := absurd (List.mem_of_getElem? (inv.left hexited)) fresh

/-- The worker reads the length of the break packet and leaves. -/
theorem exit (inv : WorkerInv config w) (bounded : config.threadQueue + 4 < 2 ^ 32)
    {t n i e : Nat} (reading : w.fifo.consumer = .reading t n i e [])
    (isBreak : w.fifo.ring.elements e 0 = breakPcapNumber) :
    WorkerInv config { w with exited := true } := by
  refine { inv with left := fun _ => ?_ }
  obtain ⟨⟨message, hmessage, hencodes⟩, -, -⟩ := inv.encodes_reading bounded reading
  have hcell : (w.fifo.ring.content e)[0]? = some breakPcapNumber := by
    rw [w.fifo.ring.content_getElem? e, isBreak]
    rw [elementSize_of_reachable inv.ring]
    exact Nat.lt_of_lt_of_le (by decide) (Nat.le_add_right headerCells config.snapLen)
  cases message with
  | stop => exact hmessage
  | captured packet =>
      have hlen := hencodes (0, packet.len) (by simp [Message.cells])
      rw [hcell, Option.some.injEq] at hlen
      exact absurd hlen.symm (inv.fits _ (List.mem_of_getElem? hmessage)).1

/-- A packet that was read to its end is a captured one: the break packet would be
the last one of its window and have been noticed. -/
theorem exists_captured (inv : WorkerInv config w) (bounded : config.threadQueue + 4 < 2 ^ 32)
    {t n i e : Nat} {buffer : List Nat} (reading : w.fifo.consumer = .reading t n i e buffer)
    (passed : buffer = [] → i + 1 = n → w.fifo.ring.elements e 0 ≠ breakPcapNumber) :
    ∃ packet, w.sent[w.fifo.reads.length]? = some (.captured packet) := by
  obtain ⟨⟨message, hmessage, hencodes⟩, hwindow, hbuffer⟩ := inv.encodes_reading bounded reading
  cases message with
  | captured packet => exact ⟨packet, hmessage⟩
  | stop =>
      have hlast := hwindow (inv.last _ hmessage)
      have hcell := hencodes (0, breakPcapNumber) (List.mem_singleton.mpr rfl)
      cases buffer with
      | nil =>
          rw [w.fifo.ring.content_getElem? e, Option.some.injEq] at hcell
          · exact absurd hcell (passed rfl hlast)
          · rw [elementSize_of_reachable inv.ring]
            exact Nat.lt_of_lt_of_le (by decide) (Nat.le_add_right headerCells config.snapLen)
      | cons value buffer =>
          have hvalue := congrArg (·[0]?) hbuffer
          simp only [List.getElem?_cons_zero, List.length_cons] at hvalue
          rw [List.getElem?_take_of_lt (by omega), hcell, Option.some.injEq] at hvalue
          exact absurd hvalue (inv.checked t n i e value buffer reading hlast)

/-- The worker works on its ring. -/
theorem consume (inv : WorkerInv config w) (bounded : config.threadQueue + 4 < 2 ^ 32)
    {act : ConsumerAct} {fifo : RingState Nat} (enabled : consumerStep w.fifo act = some fifo)
    (running : w.exited = false) (bulk : act ≠ .pop)
    (passed : ∀ t n i e, w.fifo.consumer = .reading t n i e [] → i + 1 = n →
      w.fifo.ring.elements e 0 ≠ breakPcapNumber) :
    WorkerInv config { w with fifo := fifo } := by
  have hsame := consumerStep_sameProducer enabled
  obtain ⟨hbulk, hread⟩ := consumerStep_bulk inv.bulk bulk enabled
  suffices hconsumer : (∀ t n i e value buffer, fifo.consumer = .reading t n i e (value :: buffer) →
        i + 1 = n → value ≠ breakPcapNumber) ∧
      ∀ j < fifo.reads.length, ∃ packet, w.sent[j]? = some (.captured packet) from {
    ring := Machine.ReachableWhen.follow inv.ring (.consumer act) trivial enabled
    encoded := by
      rw [hsame.pushed]
      exact inv.encoded
    fits := inv.fits
    last := inv.last
    bulk := hbulk
    checked := hconsumer.1
    processed := hconsumer.2
    left := fun hexited => by
      rw [running] at hexited
      cases hexited }
  obtain ⟨hreads, hquiet⟩ | ⟨t, n, i, e, buffer, hreading, ⟨hreads, hmore⟩ | ⟨hreads, hdone⟩⟩ :=
    hread
  · rw [hreads]
    exact ⟨fun t n i e value buffer h => absurd h (hquiet t n i e value buffer), inv.processed⟩
  · rw [hreads]
    refine ⟨fun t' n' i' e' value rest hnext hlast => ?_, inv.processed⟩
    rw [hmore] at hnext
    cases buffer with
    | nil =>
        cases hnext
        exact passed t n i e hreading hlast
    | cons head buffer =>
        cases hnext
        exact inv.checked t n i e value buffer hreading hlast
  · refine ⟨fun t n i e value buffer h => absurd h (hdone t n i e (value :: buffer)),
      fun j hj => ?_⟩
    rw [hreads, List.length_append, List.length_singleton] at hj
    rcases Nat.lt_succ_iff_lt_or_eq.mp hj with hlt | rfl
    · exact inv.processed j hlt
    · apply inv.exists_captured bounded hreading
      intro hempty hlast
      subst hempty
      exact passed t n i e hreading hlast

/-- Every step of the worker keeps its invariant. -/
theorem step (inv : WorkerInv config w) (bounded : config.threadQueue + 4 < 2 ^ 32)
    {target : Worker} (enabled : w.step = some target) :
    WorkerInv config target ∧ SameProducer w.fifo target.fifo ∧ target.sent = w.sent ∧
      target.pktDropped = w.pktDropped ∧ (w.exited = true → target.exited = true) := by
  unfold Worker.step at enabled
  split_ifs at enabled with hexited
  have hrunning : w.exited = false := by simpa using hexited
  -- an access to the ring
  have haccess : ∀ act, w.consume act = some target → act ≠ .pop →
      (∀ t n i e, w.fifo.consumer = .reading t n i e [] → i + 1 = n →
        w.fifo.ring.elements e 0 ≠ breakPcapNumber) →
      WorkerInv config target ∧ SameProducer w.fifo target.fifo ∧ target.sent = w.sent ∧
        target.pktDropped = w.pktDropped ∧ (w.exited = true → target.exited = true) := by
    intro act hconsume hact hpassed
    obtain ⟨fifo, hfifo, rfl⟩ := Option.map_eq_some_iff.mp hconsume
    exact ⟨inv.consume bounded hfifo hrunning hact hpassed, consumerStep_sameProducer hfifo,
      rfl, rfl, id⟩
  split at enabled
  case h_1 hidle =>
      apply haccess .popBulk enabled nofun
      intro t n i e hreading
      rw [hidle] at hreading
      cases hreading
  case h_2 t n i e hreading =>
      split_ifs at enabled with hbreak
      · cases enabled
        exact ⟨inv.exit bounded hreading hbreak.2, ⟨rfl, rfl, rfl⟩, rfl, rfl, fun _ => rfl⟩
      · apply haccess .advance enabled nofun
        intro t' n' i' e' hreading' hlast
        rw [hreading] at hreading'
        cases hreading'
        exact fun h => hbreak ⟨hlast, h⟩
  case h_3 hother =>
      apply haccess .advance enabled nofun
      intro t n i e hreading
      exact absurd hreading (hother t n i e)

end WorkerInv

end MmtProbe.Capture
