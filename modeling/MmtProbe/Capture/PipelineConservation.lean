/-
# No packet is lost or processed twice

The workers are put together with the reader.  A function of the place of the
reader says how many workers were sent the break packet, and another one how many
were joined.  The number of received packets is that of the pushed and the dropped
ones, and a worker that was joined has processed all that were pushed to it.

The break packet is told from a captured one by its length alone.  A captured
packet of length 0 is taken for it when it is the last one of a window.
-/

import MmtProbe.Math.Families
import MmtProbe.Capture.PipelineWorker

namespace MmtProbe.Capture

open MmtProbe.Math

/-- Every packet is processed or dropped, none twice, and the workers leave on the
break packets. -/
structure Conserved {config : PipelineConfig} (s : Pipeline config) : Prop where
  /-- A worker processes the packets that were pushed, in the order of the pushes. -/
  processed : ∀ i, (s.workers i).processed <+: (s.workers i).given
  /-- A worker leaves on the break packet, behind everything pushed before. -/
  leaves : ∀ i, (s.workers i).exited = true →
    (s.workers i).sent = (s.workers i).processed.map .captured ++ [.stop]
  joined : s.reader = .joined → (∀ i, (s.workers i).exited = true) ∧
    s.receive =
      UInt64.ofNat (∑ i, ((s.workers i).processed.length + (s.workers i).pktDropped.toNat))
  offline : config.offline = true → ∀ i, (s.workers i).pktDropped = 0

/-- No captured packet has the length of the break packet. -/
def Unmistakable {config : PipelineConfig} (_ : Pipeline config) :
    PipeAct config.threadCount → Prop
  | .capture packet => packet.len ≠ breakPcapNumber
  | _ => True

instance {config : PipelineConfig} : ∀ (s : Pipeline config) (act : PipeAct config.threadCount),
    Decidable (Unmistakable s act)
  | _, .capture packet => inferInstanceAs (Decidable (packet.len ≠ breakPcapNumber))
  | _, .finish | _, .reader | _, .worker _ => .isTrue trivial

variable {config : PipelineConfig}

/-! ## The whole pipeline -/

namespace Reader

variable {threadCount : Nat}

/-- The message that the reader is about to push, with the cells still to write. -/
def pending? : Reader threadCount → Option (Fin threadCount × Message × List (Nat × Nat))
  | filling worker message todo => some (worker, message, todo)
  | pushing worker message => some (worker, message, [])
  | _ => none

/-- How many workers were sent the break packet. -/
def stopped : Reader threadCount → Nat
  | loop | filling _ (.captured _) _ | pushing _ (.captured _) => 0
  | filling worker .stop _ | pushing worker .stop => worker
  | stopping next => next
  | joining _ | joined => threadCount

/-- How many workers were joined. -/
def joinedCount : Reader threadCount → Nat
  | joining next => next
  | joined => threadCount
  | _ => 0

end Reader

/-- The reader holds an element of the ring into which it has written the cells of
a message that are not left to do. -/
def Holding (fifo : RingState Nat) (message : Message) (todo : List (Nat × Nat)) : Prop :=
  ∃ tmp done, fifo.producer.tmp? = some tmp ∧ message.cells = done ++ todo ∧
    ∀ cell ∈ done, fifo.ring.elements tmp cell.1 = cell.2

/-- What holds of the pipeline. -/
structure PipelineInv (config : PipelineConfig) (s : Pipeline config) : Prop where
  workers : ∀ i, WorkerInv config (s.workers i)
  pending : ∀ i message todo, s.reader.pending? = some (i, message, todo) →
    message.Fits config ∧ Holding (s.workers i).fifo message todo
  stopped : ∀ i, Message.stop ∈ (s.workers i).sent → (i : Nat) < s.reader.stopped
  joined : ∀ i : Fin config.threadCount, (i : Nat) < s.reader.joinedCount →
    (s.workers i).exited = true
  receive : s.receive.toNat =
    (∑ i, ((s.workers i).given.length + (s.workers i).pktDropped.toNat)) % 2 ^ 64
  offline : config.offline = true → ∀ i, (s.workers i).pktDropped = 0

namespace PipelineInv

variable {s : Pipeline config}

theorem initial (isInit : (pipelineMachine config).init s) : PipelineInv config s := by
  obtain ⟨hreader, hreceive, hfresh⟩ := isInit
  have hempty : ∀ i, (s.workers i).given = [] ∧ (s.workers i).sent = [] ∧
      (s.workers i).pktDropped = 0 := by
    intro i
    obtain ⟨data, elements, q, -, hworker⟩ := hfresh i
    rw [hworker]
    exact ⟨rfl, rfl, rfl⟩
  exact {
    workers := fun i => .fresh (hfresh i)
    pending := fun i message todo h => by
      rw [hreader] at h
      cases h
    stopped := fun i h => by
      rw [(hempty i).2.1] at h
      cases h
    joined := fun i h => by
      rw [hreader] at h
      cases h
    receive := by simp [hreceive, hempty]
    offline := fun _ i => (hempty i).2.2 }

/-- The reader goes on without touching a ring. -/
theorem move (inv : PipelineInv config s) {reader : Reader config.threadCount}
    (pending : reader.pending? = none)
    (stopped : ∀ i : Fin config.threadCount, (i : Nat) < s.reader.stopped →
      (i : Nat) < reader.stopped)
    (joined : ∀ i : Fin config.threadCount, (i : Nat) < reader.joinedCount →
      (s.workers i).exited = true) :
    PipelineInv config { s with reader := reader } :=
  { inv with
    pending := fun i message todo h => by
      rw [pending] at h
      cases h
    stopped := fun i h => stopped i (inv.stopped i h)
    joined := joined }

/-- One worker changes, and the reader may go on. -/
theorem set (inv : PipelineInv config s) {i : Fin config.threadCount} {w : Worker}
    {reader : Reader config.threadCount} {receive : UInt64} (worker : WorkerInv config w)
    (pending : ∀ j message todo, reader.pending? = some (j, message, todo) →
      message.Fits config ∧ Holding (Function.update s.workers i w j).fifo message todo)
    (stop : Message.stop ∈ w.sent → (i : Nat) < reader.stopped)
    (stopped : s.reader.stopped ≤ reader.stopped)
    (exited : (s.workers i).exited = true → w.exited = true)
    (joined : reader.joinedCount ≤ s.reader.joinedCount)
    (count : (receive.toNat + ((s.workers i).given.length + (s.workers i).pktDropped.toNat)) %
      2 ^ 64 = (s.receive.toNat + (w.given.length + w.pktDropped.toNat)) % 2 ^ 64)
    (offline : config.offline = true → w.pktDropped = 0) :
    PipelineInv config { s.setWorker i w with reader := reader, receive := receive } where
  workers j := by
    by_cases hj : j = i
    · subst hj
      simpa [Pipeline.setWorker] using worker
    · simpa [Pipeline.setWorker, Function.update_of_ne hj] using inv.workers j
  pending := pending
  stopped j h := by
    by_cases hj : j = i
    · subst hj
      simp only [Pipeline.setWorker, Function.update_self] at h
      exact stop h
    · simp only [Pipeline.setWorker, Function.update_of_ne hj] at h
      exact (inv.stopped j h).trans_le stopped
  joined j h := by
    have hexited := inv.joined j (h.trans_le joined)
    by_cases hj : j = i
    · subst hj
      simpa [Pipeline.setWorker] using exited hexited
    · simpa [Pipeline.setWorker, Function.update_of_ne hj] using hexited
  receive := by
    have hsum := sum_update (fun w : Worker => w.given.length + w.pktDropped.toNat) s.workers i w
    have hreceive := inv.receive
    have hsize := receive.toNat_lt
    simp only [Pipeline.setWorker] at hsum ⊢
    omega
  offline hoffline j := by
    by_cases hj : j = i
    · subst hj
      simpa [Pipeline.setWorker] using offline hoffline
    · simpa [Pipeline.setWorker, Function.update_of_ne hj] using inv.offline hoffline j

/-- The reader works on a ring without completing a push. -/
theorem produce (inv : PipelineInv config s) {i : Fin config.threadCount} {act : ProducerAct Nat}
    {fifo : RingState Nat} {reader : Reader config.threadCount} {message : Message}
    {todo : List (Nat × Nat)} (enabled : producerStep (s.workers i).fifo act = some fifo)
    (same : SameConsumer (s.workers i).fifo fifo) (pushed : fifo.pushed = (s.workers i).fifo.pushed)
    (pending : reader.pending? = some (i, message, todo)) (fits : message.Fits config)
    (holding : Holding fifo message todo) (stopped : s.reader.stopped = reader.stopped) :
    PipelineInv config
      { s.setWorker i { s.workers i with fifo := fifo } with reader := reader } := by
  refine inv.set ((inv.workers i).produce enabled same pushed) ?_ ?_ stopped.le id ?_ rfl
    (fun h => inv.offline h i)
  · intro j message' todo' h
    rw [pending, Option.some.injEq] at h
    cases h
    rw [Function.update_self]
    exact ⟨fits, holding⟩
  · intro h
    rw [← stopped]
    exact inv.stopped i h
  · cases reader with
    | filling => exact Nat.zero_le _
    | pushing => exact Nat.zero_le _
    | _ => cases pending

/-- The reader begins to send a message. -/
theorem send (inv : PipelineInv config s) {i : Fin config.threadCount} {message : Message}
    {target : Pipeline config} (enabled : s.send i message = some target)
    (fits : message.Fits config)
    (stopped : s.reader.stopped = (Reader.filling i message message.cells).stopped) :
    PipelineInv config target := by
  obtain ⟨fifo, hfifo, rfl⟩ := Option.map_eq_some_iff.mp enabled
  obtain ⟨hsame, hpushed, tmp, htmp⟩ := producerStep_getTmpElement hfifo
  exact inv.produce hfifo hsame hpushed rfl fits ⟨tmp, [], htmp, rfl, nofun⟩ stopped

/-- The reader writes the next cell. -/
theorem write (inv : PipelineInv config s) {i : Fin config.threadCount} {message : Message}
    {offset value : Nat} {todo : List (Nat × Nat)} {target : Pipeline config}
    (place : s.reader = .filling i message ((offset, value) :: todo))
    (enabled : s.produce i (.write offset value) (.filling i message todo) = some target) :
    PipelineInv config target := by
  obtain ⟨fifo, hfifo, rfl⟩ := Option.map_eq_some_iff.mp enabled
  obtain ⟨hsame, hpushed, hproducer, tmp, htmp, hring⟩ := producerStep_write hfifo
  obtain ⟨hfits, tmp', done, htmp', hcells, hdone⟩ :=
    inv.pending i message ((offset, value) :: todo) (by rw [place]; rfl)
  rw [htmp, Option.some.injEq] at htmp'
  subst htmp'
  have hnodup := cells_nodup message
  rw [hcells, List.map_append, List.nodup_append] at hnodup
  refine inv.produce hfifo hsame hpushed rfl hfits
    ⟨tmp, done ++ [(offset, value)], ?_, ?_, ?_⟩ ?_
  · rw [hproducer]
    exact htmp
  · rw [hcells, List.append_assoc]
    rfl
  · intro cell hcell
    simp only [hring, DataSpscRing.writeElement]
    rcases List.mem_append.mp hcell with hold | hnew
    · have hne : cell.1 ≠ offset := by
        apply hnodup.2.2
        · exact List.mem_map_of_mem hold
        · exact List.mem_cons_self
      simp only [hne, and_false, if_false]
      exact hdone cell hold
    · rw [List.mem_singleton.mp hnew]
      simp
  · rw [place]
    cases message <;> rfl

/-- The reader calls `data_spsc_ring_push_tmp_element`. -/
theorem call (inv : PipelineInv config s) {i : Fin config.threadCount} {message : Message}
    (place : s.reader = .filling i message []) :
    PipelineInv config { s with reader := .pushing i message } := by
  have hpending := inv.pending
  have hstopped := inv.stopped
  rw [place] at hpending hstopped
  exact { inv with
    pending := hpending
    stopped := fun j h => by
      have hj := hstopped j h
      cases message <;> exact hj
    joined := nofun }

/-- The cells of a message are the content of the element. -/
theorem encodes_content {fifo : RingState Nat} {message : Message} {tmp : Nat}
    (size : fifo.ring.elementSize = config.elementSize) (fits : message.Fits config)
    (written : ∀ cell ∈ message.cells, fifo.ring.elements tmp cell.1 = cell.2) :
    Encodes (fifo.ring.content tmp) message := by
  intro cell hcell
  have hinside : cell.1 < fifo.ring.elementSize := by
    rw [size]
    exact cells_lt fits cell hcell
  rw [fifo.ring.content_getElem? tmp hinside, written cell hcell]

/-- A push was completed. -/
theorem delivered (inv : PipelineInv config s) {i : Fin config.threadCount} {message : Message}
    {fifo : RingState Nat} {content : List Nat} (place : s.reader = .pushing i message)
    (enabled : producerStep (s.workers i).fifo .push = some fifo)
    (same : SameConsumer (s.workers i).fifo fifo)
    (pushed : fifo.pushed = (s.workers i).fifo.pushed ++ [content])
    (encodes : Encodes content message) (fits : message.Fits config) :
    PipelineInv config (s.delivered i message fifo) := by
  have hstopped := inv.stopped i
  rw [place] at hstopped
  cases message with
  | captured packet =>
      have hfresh : Message.stop ∉ (s.workers i).sent :=
        fun h => absurd (hstopped h) (Nat.not_lt_zero _)
      have hworker := (inv.workers i).deliver enabled same pushed encodes fits hfresh
      refine inv.set hworker nofun ?_ ?_ id (Nat.zero_le _) ?_ (fun h => inv.offline h i)
      · intro h
        simp [hfresh] at h
      · rw [place]
        exact Nat.zero_le _
      · have hgiven : ([Message.captured packet].filterMap Message.packet?).length = 1 := rfl
        have hone : (1 : UInt64).toNat = 1 := rfl
        simp only [Worker.given, List.filterMap_append, List.length_append, Pipeline.setWorker,
          UInt64.toNat_add]
        omega
  | stop =>
      have hfresh : Message.stop ∉ (s.workers i).sent :=
        fun h => absurd (hstopped h) (Nat.lt_irrefl _)
      have hworker := (inv.workers i).deliver enabled same pushed encodes fits hfresh
      refine inv.set hworker nofun (fun _ => Nat.lt_succ_self _) ?_ id (Nat.zero_le _) ?_
        (fun h => inv.offline h i)
      · rw [place]
        exact Nat.le_succ _
      · have hgiven : ([Message.stop].filterMap Message.packet?).length = 0 := rfl
        simp only [Worker.given, List.filterMap_append, List.length_append, Pipeline.setWorker,
          hgiven, Nat.add_zero]

/-- A push was refused. -/
theorem refused (inv : PipelineInv config s) {i : Fin config.threadCount} {message : Message}
    {fifo : RingState Nat} (place : s.reader = .pushing i message)
    (enabled : producerStep (s.workers i).fifo .push = some fifo)
    (same : SameConsumer (s.workers i).fifo fifo) (pushed : fifo.pushed = (s.workers i).fifo.pushed)
    (fits : message.Fits config) (holding : Holding fifo message []) :
    PipelineInv config (s.refused i message fifo) := by
  -- the message is pushed again
  have hagain : PipelineInv config { s.setWorker i { s.workers i with fifo := fifo } with
      reader := .filling i message [] } := by
    apply inv.produce enabled same pushed rfl fits holding
    rw [place]
    cases message <;> rfl
  cases message with
  | stop => exact hagain
  | captured packet =>
      cases hoffline : config.offline with
      | true => simpa only [Pipeline.refused, hoffline] using hagain
      | false =>
          have hworker := (inv.workers i).produce enabled same pushed
          have hstopped := inv.stopped i
          rw [place] at hstopped
          simp only [Pipeline.refused, hoffline]
          refine inv.set { hworker with } nofun hstopped ?_ id (Nat.zero_le _) ?_ ?_
          · rw [place]
            exact Nat.zero_le _
          · have hone : (1 : UInt64).toNat = 1 := rfl
            simp only [Worker.given, UInt64.toNat_add]
            omega
          · intro h
            rw [hoffline] at h
            cases h

/-- A step inside `data_spsc_ring_push_tmp_element`. -/
theorem push (inv : PipelineInv config s) {i : Fin config.threadCount} {message : Message}
    {target : Pipeline config} (place : s.reader = .pushing i message)
    (enabled : s.push i message = some target) : PipelineInv config target := by
  obtain ⟨fifo, hfifo, rfl⟩ := Option.map_eq_some_iff.mp enabled
  obtain ⟨hfits, tmp, done, htmp, hcells, hdone⟩ := inv.pending i message [] (by rw [place]; rfl)
  rw [List.append_nil] at hcells
  subst hcells
  obtain ⟨hsame, helements, tmp', htmp', ⟨hidle, hpushed⟩ | ⟨hproducer, hpushed⟩⟩ :=
    producerStep_push hfifo
  all_goals
    rw [htmp, Option.some.injEq] at htmp'
    subst htmp'
  · rw [hidle]
    refine inv.delivered place hfifo hsame hpushed ?_ hfits
    exact encodes_content (elementSize_of_reachable (inv.workers i).ring) hfits hdone
  · have hholding : Holding fifo message [] := by
      refine ⟨tmp, message.cells, hproducer, (List.append_nil _).symm, ?_⟩
      rw [helements]
      exact hdone
    split
    case h_1 hidle =>
        rw [hidle] at hproducer
        cases hproducer
    case h_2 => exact inv.refused place hfifo hsame hpushed hfits hholding
    case h_3 =>
        exact inv.produce hfifo hsame hpushed (by rw [place]; rfl) hfits hholding
          (rfl : s.reader.stopped = s.reader.stopped)

/-- The next step of the reader. -/
theorem advance (inv : PipelineInv config s) {target : Pipeline config}
    (enabled : s.advance = some target) : PipelineInv config target := by
  unfold Pipeline.advance at enabled
  split at enabled
  case h_1 => cases enabled
  case h_2 i message place =>
      cases enabled
      exact inv.call place
  case h_3 i message offset value todo place => exact inv.write place enabled
  case h_4 i message place => exact inv.push place enabled
  case h_5 next place =>
      split_ifs at enabled with hmore
      · apply inv.send enabled trivial
        rw [place]
        rfl
      · cases enabled
        exact inv.move rfl (fun i _ => i.isLt) nofun
  case h_6 next place =>
      have hjoined := inv.joined
      rw [place] at hjoined
      split_ifs at enabled with hmore hexited
      · cases enabled
        refine inv.move rfl (fun i _ => i.isLt) fun i hi => ?_
        rcases Nat.lt_succ_iff_lt_or_eq.mp hi with hlt | heq
        · exact hjoined i hlt
        · obtain rfl : i = ⟨next, hmore⟩ := Fin.ext heq
          exact hexited
      · cases enabled
        refine inv.move rfl (fun i _ => i.isLt) fun i _ => ?_
        exact hjoined i (i.isLt.trans_le (Nat.le_of_not_lt hmore))
  case h_7 => cases enabled

theorem step (inv : PipelineInv config s) (bounded : config.threadQueue + 4 < 2 ^ 32)
    {act : PipeAct config.threadCount} {target : Pipeline config}
      (unmistakable : Unmistakable s act)
    (enabled : pipelineStep s act = some target) : PipelineInv config target := by
  cases act with
  | capture packet =>
      simp only [pipelineStep] at enabled
      split at enabled
      case h_1 place =>
          split_ifs at enabled with hcaplen
          refine inv.send enabled ⟨unmistakable, ?_, hcaplen⟩ ?_
          · simp [PcapPacket.copy]
          · rw [place]
            rfl
      case h_2 => cases enabled
  | finish =>
      simp only [pipelineStep] at enabled
      split at enabled
      case h_1 place =>
          cases enabled
          refine inv.move rfl (fun i h => ?_) nofun
          rw [place] at h
          exact h
      case h_2 => cases enabled
  | reader => exact inv.advance enabled
  | worker i =>
      obtain ⟨w, hw, rfl⟩ := Option.map_eq_some_iff.mp enabled
      obtain ⟨hworker, hsame, hsent, hdropped, hexited⟩ := (inv.workers i).step bounded hw
      refine inv.set hworker (fun j message todo h => ?_) ?_ le_rfl hexited le_rfl ?_ ?_
      · obtain ⟨hfits, tmp, done, htmp, hcells, hdone⟩ := inv.pending j message todo h
        refine ⟨hfits, tmp, done, ?_, hcells, ?_⟩
        · by_cases hj : j = i
          · subst hj
            rw [Function.update_self, hsame.producer]
            exact htmp
          · rw [Function.update_of_ne hj]
            exact htmp
        · by_cases hj : j = i
          · subst hj
            rw [Function.update_self, hsame.elements]
            exact hdone
          · rw [Function.update_of_ne hj]
            exact hdone
      · rw [hsent]
        exact inv.stopped i
      · rw [Worker.given, Worker.given, hsent, hdropped]
      · rw [hdropped]
        exact fun h => inv.offline h i

/-- The counts agree when the workers have left. -/
theorem conserved (inv : PipelineInv config s) (bounded : config.threadQueue + 4 < 2 ^ 32) :
    Conserved s where
  processed i := (inv.workers i).processed_prefix_given bounded
  leaves i := (inv.workers i).sent_eq bounded
  joined hjoined := by
    have hexited : ∀ i, (s.workers i).exited = true := by
      intro i
      apply inv.joined i
      rw [hjoined]
      exact i.isLt
    refine ⟨hexited, ?_⟩
    apply UInt64.toNat_inj.mp
    rw [inv.receive, UInt64.toNat_ofNat']
    congr 1
    apply Finset.sum_congr rfl
    intro i _
    have hsent := (inv.workers i).sent_eq bounded (hexited i)
    have hgiven : (s.workers i).given = (s.workers i).processed := by
      conv_lhs => rw [Worker.given, hsent]
      simp [List.filterMap_map, Function.comp_def, Message.packet?]
    rw [hgiven]
  offline := inv.offline

end PipelineInv

/-- As long as no captured packet has length 0, and the size of the rings is one for
which they are lossless, the pipeline conserves packets. -/
theorem conserved_of_unmistakable (bounded : config.threadQueue + 4 < 2 ^ 32) {s : Pipeline config}
    (reached : (pipelineMachine config).ReachableWhen Unmistakable s) : Conserved s := by
  have inv : PipelineInv config s := by
    refine Machine.ReachableWhen.invariant (PipelineInv config) ?_ ?_ reached
    · intro s isInit
      exact .initial isInit
    · intro s act target inv unmistakable enabled
      exact inv.step bounded unmistakable enabled
  exact inv.conserved bounded

/-! ## Small runs -/

/-- Two threads, online, with the smallest packets that are balanced by their
addresses.  The rings hold one packet each. -/
def twoThreads : PipelineConfig where
  threadCount := 2
  positive := Nat.two_pos
  threadQueue := 2
  snapLen := 38
  offline := false

/-- The two threads in front of the first packet. -/
def twoThreadsStart : Pipeline twoThreads where
  reader := .loop
  workers := fun _ => ⟨.fresh ⟨4, 42, 0, 0, 0, 0, fun _ => 0, fun _ _ => 0⟩, false, 0, []⟩
  receive := 0

theorem init_twoThreadsStart : (pipelineMachine twoThreads).init twoThreadsStart :=
  ⟨rfl, rfl, fun _ => ⟨fun _ => 0, fun _ _ => 0, _, rfl, rfl⟩⟩

def firstThread : Fin twoThreads.threadCount := ⟨0, Nat.two_pos⟩

def secondThread : Fin twoThreads.threadCount := ⟨1, Nat.one_lt_two⟩

/-- A packet of one byte, which goes to the first thread. -/
def shortPacket (byte : UInt8) : PcapPacket := ⟨60, 1, 7, fun _ => byte⟩

/-- An IPv4 packet from 0.0.0.2, which goes to the second thread. -/
def ipPacket : PcapPacket :=
  ⟨60, 38, 8, fun i => if i = 12 then 8 else if i = 29 then 2 else 0⟩

/-- A packet is captured, and the reader takes some steps for it. -/
def captureFor (packet : PcapPacket) (steps : Nat) : List (PipeAct twoThreads.threadCount) :=
  .capture packet :: List.replicate steps .reader

/-- Two packets fill the rings and a third is dropped.  The first thread makes room for
a fourth, everything is processed, and the threads are stopped and joined. -/
def fourPackets : List (PipeAct twoThreads.threadCount) :=
  captureFor (shortPacket 42) 10 ++ captureFor ipPacket 47 ++ captureFor (shortPacket 43) 9 ++
    List.replicate 46 (.worker firstThread) ++ captureFor (shortPacket 44) 11 ++
    List.replicate 46 (.worker firstThread) ++ List.replicate 46 (.worker secondThread) ++
    [.finish] ++ List.replicate 17 .reader ++ List.replicate 4 (.worker firstThread) ++
    List.replicate 4 (.worker secondThread) ++ List.replicate 3 .reader

theorem conserved_of_unmistakable_fourPackets :
    ∃ s, (pipelineMachine twoThreads).ReachableWhen Unmistakable s ∧ s.reader = .joined ∧
      s.receive = 4 ∧
      (s.workers firstThread).processed = [⟨60, 1, 7, 0, [42]⟩, ⟨60, 1, 7, 0, [44]⟩] ∧
      (s.workers firstThread).pktDropped = 1 ∧
      (s.workers secondThread).processed = [ipPacket.copy] ∧
      (s.workers secondThread).pktDropped = 0 ∧ Conserved s := by
  have reached : (pipelineMachine twoThreads).ReachableWhen Unmistakable
      (((pipelineMachine twoThreads).restrict Unmistakable).after fourPackets
        twoThreadsStart) :=
    Machine.reachableWhen_after init_twoThreadsStart (by decide +kernel)
  exact ⟨_, reached, by decide +kernel, by decide +kernel, by decide +kernel,
    by decide +kernel, by decide +kernel, by decide +kernel,
    conserved_of_unmistakable (by decide) reached⟩

/-- One thread, offline, with packets of one byte. A ring of this size holds one. -/
def oneThread : PipelineConfig where
  threadCount := 1
  positive := Nat.one_pos
  threadQueue := 2
  snapLen := 1
  offline := true

/-- The pipeline in front of the first packet. -/
def oneThreadStart : Pipeline oneThread where
  reader := .loop
  workers := fun _ => ⟨.fresh ⟨4, 5, 0, 0, 0, 0, fun _ => 0, fun _ _ => 0⟩, false, 0, []⟩
  receive := 0

theorem init_oneThreadStart : (pipelineMachine oneThread).init oneThreadStart :=
  ⟨rfl, rfl, fun _ => ⟨fun _ => 0, fun _ _ => 0, _, rfl, rfl⟩⟩

/-- A packet of one byte is captured and pushed. -/
def captureOne (len : Nat) : List (PipeAct 1) :=
  .capture ⟨len, 1, 7, fun _ => 42⟩ :: List.replicate 10 .reader

/-- The worker meets a captured packet of length 0 at the end of a window. -/
def emptyPacket : List (PipeAct 1) := captureOne 0 ++ List.replicate 4 (.worker 0)

/-- It leaves without a break packet. -/
theorem not_conserved_emptyPacket :
    ∃ s, (pipelineMachine oneThread).Reachable s ∧ ¬ Conserved s := by
  refine ⟨(pipelineMachine oneThread).after emptyPacket oneThreadStart,
    Machine.reachable_after init_oneThreadStart (by decide +kernel), fun hconserved => ?_⟩
  have hsent := hconserved.leaves (0 : Fin 1) (by decide +kernel)
  have hstop : Message.stop ∈
      (((pipelineMachine oneThread).after emptyPacket oneThreadStart).workers
        (0 : Fin 1)).sent := by
    rw [hsent]
    simp
  exact absurd hstop (by decide +kernel)

end MmtProbe.Capture
