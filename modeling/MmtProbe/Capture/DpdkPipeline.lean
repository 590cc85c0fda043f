/-
# The reader and the workers of DPDK together

A worker takes pointers off its ring by bursts, processes the packets one after the other
and gives each of them back to its pool when it is done with it.  It leaves its loop behind
a burst that ends with the `NULL` of the reader.

The reader is the machine of its own module, with what it has put on each ring.  How much of
this a worker finds when it looks is in the label, so the `NULL`s of several workers, which
the reader puts there one after the other, may be seen one after the other.  The timers, to
which a worker turns between two bursts, and the prefetching have no part here.
-/

import MmtProbe.Capture.DpdkReaderConservation
import Mathlib.Algebra.Order.BigOperators.Group.Finset

namespace MmtProbe.Capture

open MmtProbe.Math
open scoped List

/-- `WORKER_BURST_SIZE` -/
def workerBurstSize : Nat := 64

/-- What stands on a ring, as a pointer. -/
def ringPointer (entry : Option UInt64) : UInt64 := entry.getD 0

/-- Where a worker thread is. -/
inductive DpdkPlace where
  /-- Before the condition of the outer loop. -/
  | top
  /-- Before the condition of the inner loop. -/
  | processing (i : Nat)
  /-- Behind `worker_process_a_packet`. -/
  | freeing (i : Nat)
  | ended
deriving DecidableEq, Repr

/-- What `_worker_thread` has of its own, with what it has done so far: how much it took off
its ring, what it processed and what it freed, and whether it went through `NULL`. -/
structure DpdkWorker where
  isContinuous : Bool
  packets : List UInt64
  nbRx : Nat
  place : DpdkPlace
  taken : Nat
  processed : List UInt64
  freed : List UInt64
  faulted : Bool
deriving DecidableEq, Repr

namespace DpdkWorker

/-- `rte_ring_sc_dequeue_burst`, which finds so much on the ring, and the test for `NULL`. -/
def dequeue (worker : DpdkWorker) (ring : List (Option UInt64)) (count : Nat) :
    Option DpdkWorker :=
  if worker.place = .top ∧ worker.isContinuous = true ∧ count ≤ workerBurstSize ∧
      worker.taken + count ≤ ring.length then
    let packets := ((ring.drop worker.taken).take count).map ringPointer
    let atEnd := packets.getLast? = some 0
    some { worker with
      packets := packets
      isContinuous := !decide atEnd
      nbRx := if atEnd then count - 1 else count
      place := .processing 0
      taken := worker.taken + count }
  else none

/-- Every other step of the thread. -/
def go (worker : DpdkWorker) : Option DpdkWorker :=
  match worker.place with
  | .top => if worker.isContinuous then none else some { worker with place := .ended }
  | .processing i =>
      if i < worker.nbRx then
        let packet := worker.packets[i]?.getD 0
        if packet = 0 then some { worker with faulted := true }
        else some { worker with processed := worker.processed ++ [packet], place := .freeing i }
      else some { worker with place := .top }
  | .freeing i =>
      some { worker with
        freed := worker.freed ++ [worker.packets[i]?.getD 0]
        place := .processing (i + 1) }
  | .ended => none

end DpdkWorker

/-- A reader and its workers. -/
structure DpdkPipeline (n : Nat) where
  reader : DpdkReader n
  workers : Fin n → DpdkWorker

/-- What happens next. -/
inductive DpdkAct (n : Nat) where
  | reader (act : ReaderAct)
  /-- A worker looks at its ring and finds so much. -/
  | dequeue (worker : Fin n) (count : Nat)
  | go (worker : Fin n)

namespace DpdkPipeline

variable {n : Nat}

def setWorker (pipeline : DpdkPipeline n) (worker : Fin n) (state : DpdkWorker) :
    DpdkPipeline n :=
  { pipeline with workers := Function.update pipeline.workers worker state }

def step (pipeline : DpdkPipeline n) : DpdkAct n → Option (DpdkPipeline n)
  | .reader act => (readerStep pipeline.reader act).map fun reader => { pipeline with reader }
  | .dequeue worker count =>
      ((pipeline.workers worker).dequeue (pipeline.reader.lanes worker).ring count).map
        (pipeline.setWorker worker)
  | .go worker => (pipeline.workers worker).go.map (pipeline.setWorker worker)

end DpdkPipeline

/-- A worker in front of its loop. -/
def freshDpdkWorker : DpdkWorker := ⟨true, [], 0, .top, 0, [], [], false⟩

def freshDpdkPipeline (n : Nat) : DpdkPipeline n := ⟨freshReader n, fun _ => freshDpdkWorker⟩

/-- All runs of a reader with its workers. -/
def dpdkMachine (n : Nat) : Machine (DpdkPipeline n) (DpdkAct n) where
  init pipeline := pipeline = freshDpdkPipeline n
  step := DpdkPipeline.step

/-! ## What is wanted -/

/-- What happens to the packets of a reader and its workers. -/
structure DpdkConserved {n : Nat} (pipeline : DpdkPipeline n) : Prop where
  noFault : ∀ worker, (pipeline.workers worker).faulted = false
  /-- A worker processes what is on its ring, in order, and so in the order of reception. -/
  order : ∀ worker,
    (pipeline.workers worker).processed <+: (pipeline.reader.lanes worker).enqueued ∧
      (pipeline.workers worker).processed.Sublist
        (addresses (pipeline.reader.lanes worker).received)
  /-- A packet is freed behind its processing. -/
  freed : ∀ worker, (pipeline.workers worker).processed = (pipeline.workers worker).freed ∨
    ∃ packet, (pipeline.workers worker).processed = (pipeline.workers worker).freed ++ [packet]
  /-- Each packet was processed, or is on the ring, or was freed by the reader, or is in its
  buffer, and each of them once. -/
  once : ∀ worker,
    ((pipeline.workers worker).processed ++
      (pipeline.reader.lanes worker).enqueued.drop (pipeline.workers worker).processed.length ++
      addresses (pipeline.reader.lanes worker).freed ++
      addresses (pipeline.reader.lanes worker).packets).Perm
        (addresses (pipeline.reader.lanes worker).received)
  /-- When a worker has ended, so has the reader, and all packets are back in their pool. -/
  ended : ∀ worker, (pipeline.workers worker).place = .ended →
    pipeline.reader.phase = .ended ∧
      ((pipeline.workers worker).freed ++
        addresses (pipeline.reader.lanes worker).freed).Perm
          (addresses (pipeline.reader.lanes worker).received)

/-- The reader loses nothing, and a packet of the card is not at `NULL`. -/
def GivesPackets {n : Nat} (pipeline : DpdkPipeline n) : DpdkAct n → Prop
  | .reader act => LosesNothing pipeline.reader act ∧
      match act with
      | .poll burst _ _ => ∀ mbuf ∈ burst, mbuf.1 ≠ 0
      | .round _ | .stop => True
  | .dequeue _ _ | .go _ => True

instance {n : Nat} (pipeline : DpdkPipeline n) (act : DpdkAct n) :
    Decidable (GivesPackets pipeline act) :=
  match act with
  | .reader (.poll burst first retry) =>
      -- the addresses are looked through as the list has them
      @instDecidableAnd (LosesNothing pipeline.reader (.poll burst first retry)) _ inferInstance
        (List.decidableBAll (fun mbuf => mbuf.1 ≠ 0) burst)
  | .reader (.round now) =>
      inferInstanceAs (Decidable (LosesNothing pipeline.reader (.round now) ∧ True))
  | .reader .stop => inferInstanceAs (Decidable (LosesNothing pipeline.reader .stop ∧ True))
  | .dequeue _ _ => isTrue trivial
  | .go _ => isTrue trivial

/-! ## What is on a ring -/

/-- A ring has the pointers to packets, and behind them a `NULL` when the reader has ended. -/
def RingOf (lane : Lane) (closing : Prop) : Prop :=
  (lane.ring = lane.enqueued.map some ∧ ¬ closing ∨
    lane.ring = lane.enqueued.map some ++ [none] ∧ closing) ∧
  ∀ mbuf ∈ lane.received, mbuf.address ≠ 0

section Rings

variable {n : Nat} {lane after : Lane} {reader target : DpdkReader n}

/-- Some more pointers are put on a ring. -/
theorem RingOf.append (form : RingOf lane False) {more : List UInt64} {burst : List Mbuf}
    (ring : after.ring = lane.ring ++ more.map some)
    (received : after.received = lane.received ++ burst)
    (real : ∀ mbuf ∈ burst, mbuf.address ≠ 0) : RingOf after False := by
  rcases form with ⟨⟨hring, -⟩ | ⟨-, hover⟩, hreal⟩
  · constructor
    · refine .inl ⟨?_, id⟩
      rw [Lane.enqueued, ring, List.filterMap_append, filterMap_id_map_some, List.map_append]
      exact congrArg (· ++ _) hring
    · intro mbuf listed
      rw [received, List.mem_append] at listed
      exact listed.elim (hreal mbuf) (real mbuf)
  · exact hover.elim

theorem drain_ring (lane : Lane) (first retry : Nat) :
    (lane.drain first retry).1.received = lane.received ∧
      ∃ more : List UInt64,
        (lane.drain first retry).1.ring = lane.ring ++ more.map some := by
  have hmap : ((lane.packets.take first).map fun packet => some packet.address) =
      ((addresses lane.packets).take first).map some := by
    simp [addresses, List.map_take, Function.comp_def]
  unfold Lane.drain
  rw [hmap]
  dsimp only
  split_ifs
  · refine ⟨rfl, (addresses lane.packets).take first ++
      (retryPointers lane.packets first).take retry, ?_⟩
    rw [List.map_append, ← List.append_assoc]
  · refine ⟨rfl, (addresses lane.packets).take first ++
      (retryPointers lane.packets first).take retry, ?_⟩
    rw [List.map_append, ← List.append_assoc]
  · exact ⟨rfl, _, rfl⟩

/-- What one round of the inner loop does to the ring of a worker. -/
theorem poll_ring (reader : DpdkReader n) (worker : Fin n) (now : Timespec)
    (burst : List (UInt64 × UInt16)) (first retry : Nat) (real : ∀ mbuf ∈ burst, mbuf.1 ≠ 0)
    (other : Fin n) :
    ∃ (more : List UInt64) (new : List Mbuf),
      ((reader.poll worker now burst first retry).lanes other).ring =
        (reader.lanes other).ring ++ more.map some ∧
      ((reader.poll worker now burst first retry).lanes other).received =
        (reader.lanes other).received ++ new ∧ ∀ mbuf ∈ new, mbuf.address ≠ 0 := by
  have hsame : ∃ (more : List UInt64) (new : List Mbuf),
      (reader.lanes other).ring = (reader.lanes other).ring ++ more.map some ∧
      (reader.lanes other).received = (reader.lanes other).received ++ new ∧
        ∀ mbuf ∈ new, mbuf.address ≠ 0 :=
    ⟨[], [], (List.append_nil _).symm, (List.append_nil _).symm, by simp⟩
  have hnew : ∀ mbuf ∈ burst.map fun mbuf => (⟨mbuf.1, mbuf.2, timeToUint64 now⟩ : Mbuf),
      mbuf.address ≠ 0 := by
    intro mbuf listed
    rcases List.mem_map.mp listed with ⟨delivered, hdelivered, rfl⟩
    exact real delivered hdelivered
  unfold DpdkReader.poll
  dsimp only
  split_ifs
  · exact hsame
  · by_cases hother : other = worker
    · rcases drain_ring ((reader.lanes worker).receive now burst) first retry with
        ⟨hreceived, more, hring⟩
      rw [hother]
      simp only [Function.update_self]
      exact ⟨more, _, hring, hreceived, hnew⟩
    · simp only [Function.update_of_ne hother]
      exact hsame
  · by_cases hother : other = worker
    · rw [hother]
      simp only [Function.update_self]
      exact ⟨[], _, (List.append_nil _).symm, rfl, hnew⟩
    · simp only [Function.update_of_ne hother]
      exact hsame

/-- A step of the reader only adds to the rings, and keeps their form. -/
theorem readerStep_rings {act : ReaderAct}
    (real : match act with
      | .poll burst _ _ => ∀ mbuf ∈ burst, mbuf.1 ≠ 0
      | .round _ | .stop => True)
    (form : ∀ worker, RingOf (reader.lanes worker) (reader.phase = .ended))
    (enabled : readerStep reader act = some target) (worker : Fin n) :
    RingOf (target.lanes worker) (target.phase = .ended) ∧
      (reader.lanes worker).ring <+: (target.lanes worker).ring := by
  have hform := form worker
  unfold readerStep at enabled
  split at enabled
  next now hphase =>
    cases enabled
    simp only [hphase, reduceCtorEq, begin_ne_ended] at hform ⊢
    exact ⟨hform, List.prefix_rfl⟩
  next burst first retry polled now hphase =>
    split_ifs at enabled
    cases enabled
    simp only [hphase, reduceCtorEq, advance_ne_ended] at hform ⊢
    rcases poll_ring reader polled now burst first retry real worker with
      ⟨more, new, hring, hreceived, hnew⟩
    refine ⟨hform.append hring hreceived hnew, ?_⟩
    rw [hring]
    exact List.prefix_append _ _
  next hphase =>
    cases enabled
    simp only [hphase, reduceCtorEq] at hform
    rcases hform with ⟨⟨hring, -⟩ | ⟨-, hover⟩, hreal⟩
    · refine ⟨⟨.inr ⟨?_, rfl⟩, hreal⟩, List.prefix_append _ _⟩
      rw [DpdkReader.finish, enqueued_concat_none]
      exact congrArg (· ++ [none]) hring
    · exact hover.elim
  next => cases enabled

/-- What is at the start of a ring. -/
theorem RingOf.take_cases {closing : Prop} (form : RingOf lane closing) (count : Nat) :
    (∃ pointers, pointers <+: lane.enqueued ∧ lane.ring.take count = pointers.map some) ∨
      closing ∧ lane.ring.take count = lane.enqueued.map some ++ [none] := by
  rcases form.1 with ⟨hring, -⟩ | ⟨hring, hover⟩
  · refine .inl ⟨lane.enqueued.take count, List.take_prefix _ _, ?_⟩
    rw [hring, List.map_take]
  · by_cases hall : lane.enqueued.length < count
    · refine .inr ⟨hover, ?_⟩
      rw [hring]
      exact List.take_of_length_le (by simp; omega)
    · refine .inl ⟨lane.enqueued.take count, List.take_prefix _ _, ?_⟩
      rw [hring, List.take_append_of_le_length (by simp; omega), List.map_take]

/-- When a `NULL` was taken off a ring, everything was. -/
theorem RingOf.of_take {closing : Prop} (form : RingOf lane closing) {count : Nat}
    {pointers : List UInt64} (taken : lane.ring.take count = pointers.map some ++ [none]) :
    closing ∧ pointers = lane.enqueued := by
  rcases form.take_cases count with ⟨listed, -, htake⟩ | ⟨hover, htake⟩
  · have hnone : none ∈ listed.map some := by
      rw [← htake, taken]
      exact List.mem_append_right _ (List.mem_singleton_self _)
    simp at hnone
  · rw [taken, List.append_cancel_right_eq] at htake
    exact ⟨hover, List.map_injective_iff.mpr (Option.some_injective _) htake⟩

/-- No packet on a ring is at `NULL`. -/
theorem RingOf.real {closing : Prop} (form : RingOf lane closing) (inv : LaneInv lane)
    {pointer : UInt64} (listed : pointer ∈ lane.enqueued) : pointer ≠ 0 := by
  rcases List.mem_map.mp (inv.order.subset listed) with ⟨mbuf, hmbuf, rfl⟩
  exact form.2 mbuf hmbuf

end Rings

/-! ## A worker at its ring -/

namespace DpdkWorker

/-- The packets of a burst that are not processed yet. -/
def rest (worker : DpdkWorker) : List UInt64 :=
  match worker.place with
  | .processing i => (worker.packets.take worker.nbRx).drop i
  | .freeing i => (worker.packets.take worker.nbRx).drop (i + 1)
  | .top | .ended => []

/-- The packet that was processed and not freed yet. -/
def held (worker : DpdkWorker) : List UInt64 :=
  match worker.place with
  | .freeing i => [worker.packets[i]?.getD 0]
  | .top | .processing _ | .ended => []

end DpdkWorker

/-- How far a worker has come on its ring. -/
structure WorkerBond (ring : List (Option UInt64)) (worker : DpdkWorker) : Prop where
  within : worker.taken ≤ ring.length
  dequeued : ring.take worker.taken = (worker.processed ++ worker.rest).map some ++
    if worker.isContinuous then [] else [none]
  freed : worker.processed = worker.freed ++ worker.held
  inside : worker.nbRx ≤ worker.packets.length
  noFault : worker.faulted = false
  left : worker.place = .ended → worker.isContinuous = false

section Workers

variable {lane : Lane} {closing : Prop} {worker next : DpdkWorker}

theorem WorkerBond.grow {ring longer : List (Option UInt64)} (bond : WorkerBond ring worker)
    (grows : ring <+: longer) : WorkerBond longer worker where
  within := bond.within.trans grows.length_le
  dequeued := by
    rcases grows with ⟨more, rfl⟩
    rw [List.take_append_of_le_length bond.within]
    exact bond.dequeued
  freed := bond.freed
  inside := bond.inside
  noFault := bond.noFault
  left := bond.left

/-- A burst is taken off the ring. -/
theorem WorkerBond.dequeue (bond : WorkerBond lane.ring worker) (form : RingOf lane closing)
    (inv : LaneInv lane) {count : Nat} (enabled : worker.dequeue lane.ring count = some next) :
    WorkerBond lane.ring next := by
  rw [DpdkWorker.dequeue] at enabled
  split_ifs at enabled with hready
  rcases hready with ⟨hplace, hgoing, -, havailable⟩
  have hbefore : lane.ring.take worker.taken = worker.processed.map some := by
    rw [bond.dequeued, DpdkWorker.rest, hplace, hgoing]
    simp
  have hsplit : lane.ring.take (worker.taken + count) =
      worker.processed.map some ++ (lane.ring.drop worker.taken).take count := by
    rw [List.take_add, hbefore]
  have hcount : ((lane.ring.drop worker.taken).take count).length = count := by
    rw [List.length_take, List.length_drop]
    omega
  have hfreed : worker.processed = worker.freed := by
    rw [bond.freed, DpdkWorker.held, hplace]
    exact List.append_nil _
  generalize hburst : (lane.ring.drop worker.taken).take count = burst at *
  -- the burst has the pointers to packets, and the NULL at the end or not
  have hcases : (∃ packets : List UInt64,
      burst = packets.map some ∧ ∀ packet ∈ packets, packet ≠ 0) ∨
        ∃ packets : List UInt64, burst = packets.map some ++ [none] := by
    rcases form.take_cases (worker.taken + count) with ⟨pointers, hsent, htake⟩ | ⟨-, htake⟩
    · rw [hsplit] at htake
      rcases List.map_eq_append_iff.mp htake.symm with ⟨front, packets, rfl, -, hpackets⟩
      refine .inl ⟨packets, hpackets.symm, fun packet listed => ?_⟩
      exact form.real inv (hsent.subset (List.mem_append_right _ listed))
    · rw [hsplit] at htake
      rcases List.eq_nil_or_concat burst with hnil | ⟨front, entry, hconcat⟩
      · rw [hnil, List.append_nil] at htake
        have hnone : none ∈ worker.processed.map some := by
          rw [htake]
          exact List.mem_append_right _ (List.mem_singleton_self _)
        simp at hnone
      · rw [hconcat, List.concat_eq_append, ← List.append_assoc] at htake
        rcases List.append_inj' htake rfl with ⟨hfront, hentry⟩
        rcases List.map_eq_append_iff.mp hfront.symm with ⟨-, packets, -, -, hpackets⟩
        refine .inr ⟨packets, ?_⟩
        rw [hconcat, List.concat_eq_append, hentry, hpackets]
  cases enabled
  rcases hcases with ⟨packets, rfl, hreal⟩ | ⟨packets, rfl⟩
  · have hpackets : (packets.map some).map ringPointer = packets := by
      simp [ringPointer, Function.comp_def]
    have hlast : packets.getLast? ≠ some 0 := by
      intro hzero
      exact hreal 0 (List.mem_of_getLast? hzero) rfl
    have hlength : packets.length = count := by rw [← hcount, List.length_map]
    constructor
    · exact havailable
    · rw [hsplit]
      simp only [hpackets, hlast, DpdkWorker.rest, List.drop_zero, List.map_append,
        decide_false, Bool.not_false, if_true, if_false, List.append_nil]
      rw [List.take_of_length_le (Nat.le_of_eq hlength)]
    · simp only [DpdkWorker.held, List.append_nil]
      exact hfreed
    · simp only [hpackets, if_neg hlast, hlength, Nat.le_refl]
    · exact bond.noFault
    · simp
  · have hpackets : (packets.map some ++ [none]).map ringPointer = packets ++ [0] := by
      simp [ringPointer, Function.comp_def]
    have hlast : (packets ++ [0]).getLast? = some (0 : UInt64) := List.getLast?_concat
    have hlength : packets.length = count - 1 := by
      rw [← hcount, List.length_append, List.length_map]
      rfl
    constructor
    · exact havailable
    · rw [hsplit]
      simp only [hpackets, hlast, DpdkWorker.rest, List.drop_zero, List.map_append,
        decide_true, Bool.not_true, Bool.false_eq_true, if_true, if_false, List.append_assoc]
      rw [List.take_left' hlength]
    · simp only [DpdkWorker.held, List.append_nil]
      exact hfreed
    · simp only [hpackets, if_pos hlast, ← hlength, List.length_append]
      omega
    · exact bond.noFault
    · simp

/-- Every other step of a worker. -/
theorem WorkerBond.go (bond : WorkerBond lane.ring worker) (form : RingOf lane closing)
    (inv : LaneInv lane) (enabled : worker.go = some next) : WorkerBond lane.ring next := by
  rcases bond with ⟨hwithin, hdequeued, hfreed, hinside, hnoFault, hleft⟩
  unfold DpdkWorker.go at enabled
  split at enabled
  next hplace =>
    split_ifs at enabled with hgoing
    cases enabled
    simp only [DpdkWorker.rest, DpdkWorker.held, hplace] at hdequeued hfreed
    exact ⟨hwithin, hdequeued, hfreed, hinside, hnoFault, fun _ => by simpa using hgoing⟩
  next i hplace =>
    simp only [DpdkWorker.rest, DpdkWorker.held, hplace] at hdequeued hfreed
    dsimp only at enabled
    split_ifs at enabled with hi hzero
    · -- the packet is one of those on the ring
      exfalso
      have hfirst : worker.packets[i]?.getD 0 ∈ (worker.packets.take worker.nbRx).drop i := by
        have hlt : i < (worker.packets.take worker.nbRx).length := by
          rw [List.length_take]
          omega
        rw [List.drop_eq_getElem_cons hlt, List.getElem_take,
          List.getElem?_eq_getElem (by omega), Option.getD_some]
        exact List.mem_cons_self
      rw [hzero] at hfirst
      have hlisted : some (0 : UInt64) ∈ lane.ring.take worker.taken := by
        rw [hdequeued]
        exact List.mem_append_left _ (List.mem_map_of_mem (List.mem_append_right _ hfirst))
      have henqueued : (0 : UInt64) ∈ lane.enqueued :=
        List.mem_filterMap.mpr ⟨some 0, List.mem_of_mem_take hlisted, rfl⟩
      exact form.real inv henqueued rfl
    · cases enabled
      have hlt : i < (worker.packets.take worker.nbRx).length := by
        rw [List.length_take]
        omega
      have hpacket : (worker.packets.take worker.nbRx).drop i =
          worker.packets[i]?.getD 0 :: (worker.packets.take worker.nbRx).drop (i + 1) := by
        rw [List.drop_eq_getElem_cons hlt, List.getElem_take,
          List.getElem?_eq_getElem (by omega), Option.getD_some]
      refine ⟨hwithin, ?_, ?_, hinside, hnoFault, by simp⟩
      · simp only [DpdkWorker.rest]
        rw [hdequeued, hpacket, List.append_assoc]
        rfl
      · simp only [DpdkWorker.held]
        rw [hfreed, List.append_nil]
    · cases enabled
      have hnothing : (worker.packets.take worker.nbRx).drop i = [] :=
        List.drop_eq_nil_of_le (by rw [List.length_take]; omega)
      rw [hnothing] at hdequeued
      exact ⟨hwithin, hdequeued, hfreed, hinside, hnoFault, by simp⟩
  next i hplace =>
    simp only [DpdkWorker.rest, DpdkWorker.held, hplace] at hdequeued hfreed
    cases enabled
    refine ⟨hwithin, hdequeued, ?_, hinside, hnoFault, by simp⟩
    simp only [DpdkWorker.held, List.append_nil]
    exact hfreed
  next => cases enabled

end Workers

/-! ## The pipeline -/

variable {n : Nat} {pipeline target : DpdkPipeline n}

/-- What holds in every state of a run. -/
structure DpdkInv (pipeline : DpdkPipeline n) : Prop where
  reader : ReaderInv pipeline.reader
  rings : ∀ worker,
    RingOf (pipeline.reader.lanes worker) (pipeline.reader.phase = .ended)
  bonds : ∀ worker,
    WorkerBond (pipeline.reader.lanes worker).ring (pipeline.workers worker)

theorem dpdkInv_fresh (n : Nat) : DpdkInv (freshDpdkPipeline n) where
  reader := readerInv_fresh n
  rings _ := ⟨.inl ⟨rfl, by simp [freshDpdkPipeline, freshReader]⟩, by
    simp [freshDpdkPipeline, freshReader, emptyLane]⟩
  bonds _ := ⟨Nat.le_refl 0, rfl, rfl, Nat.le_refl 0, rfl, by
    simp [freshDpdkPipeline, freshDpdkWorker]⟩

/-- One worker makes a step. -/
theorem DpdkInv.setWorker (inv : DpdkInv pipeline) {worker : Fin n} {next : DpdkWorker}
    (bond : WorkerBond (pipeline.reader.lanes worker).ring next) :
    DpdkInv (pipeline.setWorker worker next) where
  reader := inv.reader
  rings := inv.rings
  bonds other := by
    by_cases hother : other = worker
    · rw [hother]
      simp only [DpdkPipeline.setWorker, Function.update_self]
      exact bond
    · simp only [DpdkPipeline.setWorker, Function.update_of_ne hother]
      exact inv.bonds other

theorem DpdkInv.step (inv : DpdkInv pipeline) {act : DpdkAct n}
    (gives : GivesPackets pipeline act) (enabled : pipeline.step act = some target) :
    DpdkInv target := by
  cases act with
  | reader act =>
      rcases Option.map_eq_some_iff.mp enabled with ⟨next, hnext, rfl⟩
      have hrings := readerStep_rings gives.2 inv.rings hnext
      exact ⟨inv.reader.step gives.1 hnext, fun worker => (hrings worker).1,
        fun worker => (inv.bonds worker).grow (hrings worker).2⟩
  | dequeue worker count =>
      rcases Option.map_eq_some_iff.mp enabled with ⟨next, hnext, rfl⟩
      exact inv.setWorker
        ((inv.bonds worker).dequeue (inv.rings worker) (inv.reader.lanes worker) hnext)
  | go worker =>
      rcases Option.map_eq_some_iff.mp enabled with ⟨next, hnext, rfl⟩
      exact inv.setWorker
        ((inv.bonds worker).go (inv.rings worker) (inv.reader.lanes worker) hnext)

theorem dpdkInv_of_reachableWhen
    (reached : (dpdkMachine n).ReachableWhen GivesPackets pipeline) : DpdkInv pipeline := by
  apply reached.invariant DpdkInv
  · rintro start rfl
    exact dpdkInv_fresh n
  · intro before act after inv gives enabled
    exact inv.step gives enabled

/-- What a worker has processed is at the start of what is on its ring. -/
theorem DpdkInv.processed_prefix (inv : DpdkInv pipeline) (worker : Fin n) :
    (pipeline.workers worker).processed <+: (pipeline.reader.lanes worker).enqueued := by
  have hdequeued := (inv.bonds worker).dequeued
  have hlisted : ((pipeline.reader.lanes worker).ring.take
      (pipeline.workers worker).taken).filterMap id =
        (pipeline.workers worker).processed ++ (pipeline.workers worker).rest := by
    rw [hdequeued, List.filterMap_append, filterMap_id_map_some]
    split_ifs <;> simp
  refine (List.prefix_append _ (pipeline.workers worker).rest).trans ?_
  rw [← hlisted]
  exact (List.take_prefix _ _).filterMap id

/-- When a worker has left its loop, all of its packets are freed. -/
theorem DpdkInv.of_ended (inv : DpdkInv pipeline) {worker : Fin n}
    (ended : (pipeline.workers worker).place = .ended) :
    pipeline.reader.phase = .ended ∧
      (pipeline.workers worker).freed = (pipeline.reader.lanes worker).enqueued := by
  have hdequeued := (inv.bonds worker).dequeued
  have hfreed := (inv.bonds worker).freed
  rw [(inv.bonds worker).left ended, DpdkWorker.rest, ended] at hdequeued
  rw [DpdkWorker.held, ended] at hfreed
  simp only [List.append_nil, Bool.false_eq_true, if_false] at hdequeued hfreed
  rcases (inv.rings worker).of_take hdequeued with ⟨hover, hall⟩
  exact ⟨hover, hfreed ▸ hall⟩

theorem DpdkInv.conserved (inv : DpdkInv pipeline) : DpdkConserved pipeline where
  noFault worker := (inv.bonds worker).noFault
  order worker := ⟨inv.processed_prefix worker,
    (inv.processed_prefix worker).sublist.trans (inv.reader.lanes worker).order⟩
  freed worker := by
    have hfreed := (inv.bonds worker).freed
    unfold DpdkWorker.held at hfreed
    split at hfreed
    · exact .inr ⟨_, hfreed⟩
    · exact .inl (hfreed.trans (List.append_nil _))
    · exact .inl (hfreed.trans (List.append_nil _))
    · exact .inl (hfreed.trans (List.append_nil _))
  once worker := by
    have hall : (pipeline.workers worker).processed ++
        (pipeline.reader.lanes worker).enqueued.drop (pipeline.workers worker).processed.length =
        (pipeline.reader.lanes worker).enqueued :=
      List.prefix_iff_eq_append.mp (inv.processed_prefix worker)
    rw [hall]
    exact (inv.reader.lanes worker).once
  ended worker ended := by
    rcases inv.of_ended ended with ⟨hover, hfreed⟩
    have honce := (inv.reader.lanes worker).once
    rw [inv.reader.done hover worker] at honce
    rw [hfreed]
    refine ⟨hover, ?_⟩
    simpa [addresses] using honce

/-- In every run of a reader that loses nothing with its workers, each packet that was received
is processed by its worker in order, or freed by the reader, and is freed once. -/
theorem dpdkConserved_of_givesPackets
    (reached : (dpdkMachine n).ReachableWhen GivesPackets pipeline) : DpdkConserved pipeline := by
  exact (dpdkInv_of_reachableWhen reached).conserved

/-- The workers of a reader that has two. -/
def firstWorker : Fin 2 := ⟨0, Nat.two_pos⟩

def secondWorker : Fin 2 := ⟨1, Nat.one_lt_two⟩

/-- Three packets for the first worker, of which the ring accepts two, and one for the second,
which goes on at the second try.  The first worker looks at an empty ring, and the second is
done with its packet when the reader ends. -/
def fourReceived : List (DpdkAct 2) :=
  [.reader (.round ⟨0, 0⟩), .reader (.poll [(0x10, 60), (0x20, 80)] 0 0),
    .dequeue firstWorker 0, .reader (.poll [(0x30, 60)] 0 0), .go firstWorker,
    .reader (.round ⟨1, 0⟩), .reader (.poll [(0x40, 60)] 2 0), .reader (.poll [] 0 1),
    .dequeue secondWorker 1, .dequeue firstWorker 2, .go secondWorker, .go firstWorker,
    .go firstWorker, .go secondWorker, .go secondWorker, .reader .stop,
    .dequeue secondWorker 1, .go firstWorker, .go firstWorker, .go firstWorker,
    .go secondWorker, .go secondWorker, .dequeue firstWorker 1, .go firstWorker,
    .go firstWorker]

theorem dpdkConserved_of_givesPackets_fourReceived :
    let pipeline :=
      ((dpdkMachine 2).restrict GivesPackets).after fourReceived (freshDpdkPipeline 2)
    ((pipeline.workers firstWorker).place, (pipeline.workers firstWorker).freed,
        addresses (pipeline.reader.lanes firstWorker).freed) = (.ended, [0x10, 0x20], [0x40]) ∧
      ((pipeline.workers secondWorker).place, (pipeline.workers secondWorker).freed,
        addresses (pipeline.reader.lanes secondWorker).freed) = (.ended, [0x30], []) ∧
      DpdkConserved pipeline :=
  ⟨by decide +kernel, by decide +kernel, dpdkConserved_of_givesPackets
    (Machine.reachableWhen_after rfl (by decide +kernel))⟩

/-! ## The workers get to their end -/

/-- A step that is not one of the reader. -/
def DpdkAct.OfWorkers : DpdkAct n → Prop
  | .reader _ => False
  | .dequeue _ _ | .go _ => True

/-- What a worker still has to do, when nothing more is put on its ring. -/
def DpdkWorker.left (ring : List (Option UInt64)) (worker : DpdkWorker) : Nat :=
  4 * (ring.length - worker.taken) +
    match worker.place with
    | .top => 1
    | .processing _ => 2 * worker.rest.length + 2
    | .freeing _ => 2 * worker.rest.length + 3
    | .ended => 0

theorem length_rest_le (worker : DpdkWorker) : worker.rest.length ≤ worker.nbRx := by
  unfold DpdkWorker.rest
  split
  · rw [List.length_drop, List.length_take]
    omega
  · rw [List.length_drop, List.length_take]
    omega
  · exact Nat.zero_le _
  · exact Nat.zero_le _

/-- A burst of at least one packet is progress. -/
theorem dequeue_left {ring : List (Option UInt64)} {worker next : DpdkWorker} {count : Nat}
    (enabled : worker.dequeue ring count = some next) (found : 0 < count) :
    next.left ring < worker.left ring := by
  rw [DpdkWorker.dequeue] at enabled
  split_ifs at enabled with hready
  rcases hready with ⟨hplace, -, -, havailable⟩
  have hrest : next.rest.length ≤ count := by
    refine (length_rest_le next).trans ?_
    cases enabled
    dsimp only
    split_ifs <;> omega
  have hnext : next.place = .processing 0 ∧ next.taken = worker.taken + count := by
    cases enabled
    exact ⟨rfl, rfl⟩
  simp only [DpdkWorker.left, hnext, hplace]
  omega

/-- So is every other step of a worker that has not gone through `NULL`. -/
theorem go_left {ring : List (Option UInt64)} {worker next : DpdkWorker}
    (enabled : worker.go = some next) (noFault : next.faulted = false)
    (inside : worker.nbRx ≤ worker.packets.length) :
    next.left ring < worker.left ring := by
  unfold DpdkWorker.go at enabled
  dsimp only at enabled
  split at enabled
  next hplace =>
    split_ifs at enabled
    cases enabled
    simp [DpdkWorker.left, hplace]
  next i hplace =>
    split_ifs at enabled with hi hzero
    · cases enabled
      exact absurd noFault (by simp)
    · cases enabled
      simp only [DpdkWorker.left, DpdkWorker.rest, hplace, List.length_drop, List.length_take]
      omega
    · cases enabled
      simp only [DpdkWorker.left, hplace]
      omega
  next i hplace =>
    cases enabled
    simp only [DpdkWorker.left, DpdkWorker.rest, hplace]
    omega
  next => cases enabled

/-- When the reader has ended, a worker that has not can go on. -/
theorem DpdkInv.progress (inv : DpdkInv pipeline) (closing : pipeline.reader.phase = .ended)
    {worker : Fin n} (going : (pipeline.workers worker).place ≠ .ended) :
    ∃ act next, act.OfWorkers ∧
      pipeline.step act = some (pipeline.setWorker worker next) ∧
      next.left (pipeline.reader.lanes worker).ring <
        (pipeline.workers worker).left (pipeline.reader.lanes worker).ring := by
  have hbond := inv.bonds worker
  by_cases hlooks : (pipeline.workers worker).place = .top ∧
      (pipeline.workers worker).isContinuous = true
  · -- the NULL is still on the ring
    rcases hlooks with ⟨hplace, hgoing⟩
    have hmore : (pipeline.workers worker).taken <
        (pipeline.reader.lanes worker).ring.length := by
      by_contra hall
      have hdequeued := hbond.dequeued
      rw [List.take_of_length_le (Nat.not_lt.mp hall), hgoing] at hdequeued
      rcases (inv.rings worker).1 with ⟨-, hnot⟩ | ⟨hring, -⟩
      · exact hnot closing
      · have hnone : none ∈ ((pipeline.workers worker).processed ++
            (pipeline.workers worker).rest).map some := by
          rw [if_pos rfl, List.append_nil] at hdequeued
          rw [← hdequeued, hring]
          exact List.mem_append_right _ (List.mem_singleton_self _)
        simp at hnone
    have henabled : ∃ next, (pipeline.workers worker).dequeue
        (pipeline.reader.lanes worker).ring 1 = some next := by
      rw [DpdkWorker.dequeue, if_pos ⟨hplace, hgoing, by decide, hmore⟩]
      exact ⟨_, rfl⟩
    rcases henabled with ⟨next, hnext⟩
    refine ⟨.dequeue worker 1, next, trivial, ?_, dequeue_left hnext Nat.one_pos⟩
    rw [DpdkPipeline.step, hnext, Option.map_some]
  · have henabled : ∃ next, (pipeline.workers worker).go = some next := by
      unfold DpdkWorker.go
      split
      next hplace =>
        rw [if_neg fun hgoing => hlooks ⟨hplace, hgoing⟩]
        exact ⟨_, rfl⟩
      next =>
        dsimp only
        split_ifs <;> exact ⟨_, rfl⟩
      next => exact ⟨_, rfl⟩
      next hplace => exact absurd hplace going
    rcases henabled with ⟨next, hnext⟩
    have hbond := hbond.go (inv.rings worker) (inv.reader.lanes worker) hnext
    refine ⟨.go worker, next, trivial, ?_,
      go_left hnext hbond.noFault (inv.bonds worker).inside⟩
    rw [DpdkPipeline.step, hnext, Option.map_some]

/-- What all the workers still have to do. -/
def DpdkPipeline.left (pipeline : DpdkPipeline n) : Nat :=
  ∑ worker, (pipeline.workers worker).left (pipeline.reader.lanes worker).ring

/-- One worker has less to do. -/
theorem setWorker_left {worker : Fin n} {next : DpdkWorker}
    (less : next.left (pipeline.reader.lanes worker).ring <
      (pipeline.workers worker).left (pipeline.reader.lanes worker).ring) :
    (pipeline.setWorker worker next).left < pipeline.left := by
  apply Finset.sum_lt_sum
  · intro other _
    by_cases hother : other = worker
    · rw [hother]
      simp only [DpdkPipeline.setWorker, Function.update_self]
      exact Nat.le_of_lt less
    · simp only [DpdkPipeline.setWorker, Function.update_of_ne hother]
      exact Nat.le_refl _
  · refine ⟨worker, Finset.mem_univ _, ?_⟩
    simp only [DpdkPipeline.setWorker, Function.update_self]
    exact less

/-- The workers get to their end when the reader is at its own. -/
theorem DpdkInv.drains (inv : DpdkInv pipeline) (closing : pipeline.reader.phase = .ended) :
    ∃ acts target, (∀ act ∈ acts, act.OfWorkers) ∧
      (dpdkMachine n).run acts pipeline = some target ∧ target.reader = pipeline.reader ∧
      DpdkInv target ∧ ∀ worker, (target.workers worker).place = .ended := by
  induction hleft : pipeline.left using Nat.strongRecOn generalizing pipeline with
  | _ left ih =>
      by_cases hdone : ∀ worker, (pipeline.workers worker).place = .ended
      · exact ⟨[], pipeline, by simp, rfl, rfl, inv, hdone⟩
      · rcases not_forall.mp hdone with ⟨worker, hgoing⟩
        rcases inv.progress closing hgoing with ⟨act, next, hworkers, henabled, hless⟩
        have hgives : GivesPackets pipeline act := by
          cases act with
          | reader act => exact hworkers.elim
          | dequeue worker count => trivial
          | go worker => trivial
        rcases ih _ (hleft ▸ setWorker_left hless) (inv.step hgives henabled) closing rfl with
          ⟨acts, target, hacts, hrun, hreader, hinv, hended⟩
        refine ⟨act :: acts, target, ?_, ?_, hreader, hinv, hended⟩
        · rintro other (_ | ⟨_, hlisted⟩)
          · exact hworkers
          · exact hacts other hlisted
        · rw [Machine.run_cons]
          exact Option.bind_eq_some_iff.mpr ⟨_, henabled, hrun⟩

/-- In every state of such a run with a reader that has ended, the workers can go on by
themselves until each of them has left its loop, and then every packet that was received is
back in its pool, freed once. -/
theorem dpdkWorkers_drain
    (reached : (dpdkMachine n).ReachableWhen GivesPackets pipeline)
    (closing : pipeline.reader.phase = .ended) :
    ∃ acts target, (∀ act ∈ acts, act.OfWorkers) ∧
      (dpdkMachine n).run acts pipeline = some target ∧ target.reader = pipeline.reader ∧
      ∀ worker, (target.workers worker).place = .ended ∧
        ((target.workers worker).freed ++ addresses (pipeline.reader.lanes worker).freed).Perm
          (addresses (pipeline.reader.lanes worker).received) := by
  rcases (dpdkInv_of_reachableWhen reached).drains closing with
    ⟨acts, target, hacts, hrun, hreader, hinv, hended⟩
  refine ⟨acts, target, hacts, hrun, hreader, fun worker => ⟨hended worker, ?_⟩⟩
  have hfreed := (hinv.conserved.ended worker (hended worker)).2
  rw [hreader] at hfreed
  exact hfreed

/-- Two workers, of which one has a packet, when the reader has ended. -/
def readerLeft : List (DpdkAct 2) :=
  [.reader (.round ⟨0, 0⟩), .reader (.poll [(0x10, 60)] 0 0), .reader (.poll [] 0 0),
    .reader (.round ⟨1, 0⟩), .reader (.poll [] 1 0), .reader (.poll [] 0 0), .reader .stop]

theorem dpdkWorkers_drain_readerLeft :
    let pipeline := ((dpdkMachine 2).restrict GivesPackets).after readerLeft (freshDpdkPipeline 2)
    ∃ acts target, (∀ act ∈ acts, act.OfWorkers) ∧
      (dpdkMachine 2).run acts pipeline = some target ∧ target.reader = pipeline.reader ∧
      ∀ worker, (target.workers worker).place = .ended ∧
        ((target.workers worker).freed ++ addresses (pipeline.reader.lanes worker).freed).Perm
          (addresses (pipeline.reader.lanes worker).received) :=
  dpdkWorkers_drain (Machine.reachableWhen_after rfl (by decide +kernel)) (by decide +kernel)

end MmtProbe.Capture
