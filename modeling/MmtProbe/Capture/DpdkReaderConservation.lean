/-
# What a DPDK reader does with its packets

A packet that was received is put on the ring of its worker or freed, once and not
both; the counters count this, and no buffer runs over.  Two things in the code are
against it.  The second try of an enqueue adds the number of packets that were sent to
a pointer without a type, so it finds parts of pointers, or packets that are on the
ring already.  And the buffers are given back at the end whatever is in them.  The
result is about all runs in which neither of the two shows.
-/

import MmtProbe.Capture.DpdkReader
import MmtProbe.Math.Families
import Mathlib.Data.List.Perm.Basic

namespace MmtProbe.Capture

open MmtProbe.Math
open scoped List

/-! ## What is wanted, and when it holds -/

/-- The pointers that were put on a ring. -/
def Lane.enqueued (lane : Lane) : List UInt64 := lane.ring.filterMap id

/-- The pointers of some packets. -/
def addresses (packets : List Mbuf) : List UInt64 := packets.map Mbuf.address

structure ReaderOk {n : Nat} (reader : DpdkReader n) : Prop where
  /-- Packets are put on the ring of their worker in the order of their reception. -/
  order : ∀ worker,
    (reader.lanes worker).enqueued.Sublist (addresses (reader.lanes worker).received)
  /-- Each packet is on the ring, or freed, or waiting, and each of them once. -/
  once : ∀ worker, ((reader.lanes worker).enqueued ++ addresses (reader.lanes worker).freed ++
    addresses (reader.lanes worker).packets).Perm (addresses (reader.lanes worker).received)
  /-- No packet is on the ring and freed. -/
  apart : ∀ worker, (addresses (reader.lanes worker).received).Nodup →
    ∀ address ∈ (reader.lanes worker).enqueued, address ∉ addresses (reader.lanes worker).freed
  pktsDropped : ∀ worker, (reader.lanes worker).pktsDropped =
    UInt64.ofNat (reader.lanes worker).freed.length
  statDropped : reader.statDropped.packets =
    UInt64.ofNat (∑ worker, (reader.lanes worker).freed.length)
  statReceived : reader.statReceived.packets =
    UInt64.ofNat (∑ worker, (reader.lanes worker).enqueued.length) + reader.statDropped.packets
  /-- There is room for another burst behind the packets of a buffer. -/
  room : ∀ worker, (reader.lanes worker).packets.length + readerBurstSize ≤
    readerDrainThresh + readerBurstSize
  /-- Nothing waits when the thread ends. -/
  done : reader.phase = .ended → ∀ worker, (reader.lanes worker).packets = []

/-- A second try is made from the start of the array, or adds nothing, or is not made. -/
def RetriesCleanly (nbPkts first retry : Nat) : Prop := first = 0 ∨ retry = 0 ∨ nbPkts ≤ first

/-- The condition on one step: a batch that is drained is retried cleanly, and the thread
leaves its loop when nothing waits. -/
def LosesNothing {n : Nat} (reader : DpdkReader n) : ReaderAct → Prop
  | .round _ => True
  | .poll burst first retry =>
      match reader.phase with
      | .polling worker now =>
          drains ((reader.lanes worker).receive now burst).packets now = true →
            RetriesCleanly ((reader.lanes worker).packets.length + burst.length) first retry
      | _ => True
  | .stop => ∀ worker, (reader.lanes worker).packets = []

instance (nbPkts first retry : Nat) : Decidable (RetriesCleanly nbPkts first retry) :=
  inferInstanceAs (Decidable (_ ∨ _ ∨ _))

instance {n : Nat} (reader : DpdkReader n) (act : ReaderAct) :
    Decidable (LosesNothing reader act) :=
  match act with
  | .round _ => isTrue trivial
  | .poll burst first retry =>
      match hphase : reader.phase with
      | .polling worker now =>
          decidable_of_iff
            (drains ((reader.lanes worker).receive now burst).packets now = true →
              RetriesCleanly ((reader.lanes worker).packets.length + burst.length) first retry)
            (by rw [LosesNothing, hphase])
      | .top => isTrue (by rw [LosesNothing, hphase]; trivial)
      | .ended => isTrue (by rw [LosesNothing, hphase]; trivial)
  | .stop => inferInstanceAs (Decidable (∀ worker, (reader.lanes worker).packets = []))

/-! ## One buffer -/

variable {lane : Lane} {now : Timespec} {burst : List (UInt64 × UInt16)} {first retry : Nat}

theorem drop_arrayBytes (packets : List Mbuf) (k : Nat) :
    (arrayBytes packets).drop (8 * k) = arrayBytes (packets.drop k) := by
  induction k generalizing packets with
  | zero => simp
  | succ k ih =>
      cases packets with
      | nil => simp [arrayBytes]
      | cons packet packets =>
          have hfirst : arrayBytes (packet :: packets) =
              littleEndian 8 packet.address.toNat ++ arrayBytes packets := rfl
          have hpast : (littleEndian 8 packet.address.toNat).length ≤ 8 * (k + 1) := by
            rw [length_littleEndian]
            omega
          rw [hfirst, List.drop_append, length_littleEndian, List.drop_eq_nil_of_le hpast,
            show 8 * (k + 1) - 8 = 8 * k by omega, ih]
          rfl

theorem pointerAt_arrayBytes {packets : List Mbuf} {k : Nat} (inside : k < packets.length) :
    pointerAt (arrayBytes packets) (8 * k) = packets[k].address := by
  have hdrop : packets.drop k = packets[k] :: packets.drop (k + 1) :=
    List.drop_eq_getElem_cons inside
  have hbytes : (arrayBytes (packets.drop k)).take 8 =
      littleEndian 8 packets[k].address.toNat := by
    rw [hdrop]
    exact List.take_left' (length_littleEndian _ _)
  have hlt : packets[k].address.toNat < 256 ^ 8 := packets[k].address.toNat_lt
  rw [pointerAt, drop_arrayBytes, hbytes, littleValue_littleEndian hlt, UInt64.ofNat_toNat]

/-- From the start of the array the second try finds the packets. -/
theorem retryPointers_zero (packets : List Mbuf) : retryPointers packets 0 = addresses packets := by
  apply List.ext_getElem
  · simp [retryPointers, addresses]
  · intro k inside _
    have hk : k < packets.length := by simpa [retryPointers] using inside
    simp [retryPointers, addresses, pointerAt_arrayBytes hk]

/-- What a drain does to a buffer: some packets from the start are put on the ring, the
others are freed and counted. -/
structure BatchSettled (before after : Lane) (dropped : Stat) (sent : Nat) : Prop where
  packets : after.packets = []
  received : after.received = before.received
  enqueued : after.enqueued = before.enqueued ++ addresses (before.packets.take sent)
  freed : after.freed = before.freed ++ before.packets.drop sent
  pktsDropped : after.pktsDropped =
    before.pktsDropped + UInt64.ofNat (before.packets.drop sent).length
  dropped : dropped.packets = UInt64.ofNat (before.packets.drop sent).length

theorem filterMap_id_map_some (pointers : List UInt64) :
    (pointers.map some).filterMap id = pointers := by
  simp [List.filterMap_map]

theorem filterMap_id_map_address (packets : List Mbuf) :
    (packets.map fun packet => some packet.address).filterMap id = addresses packets := by
  simp [List.filterMap_map, addresses]

/-- A clean retry puts packets on the ring that follow those of the first try. -/
theorem Lane.drained (allowed : first + retry ≤ lane.packets.length)
    (clean : RetriesCleanly lane.packets.length first retry) :
    ∃ sent, BatchSettled lane (lane.drain first retry).1 (lane.drain first retry).2 sent := by
  by_cases hall : first < lane.packets.length
  · refine ⟨first + retry, ?_⟩
    -- what the two tries put on the ring is a prefix of the packets
    have hring : addresses (lane.packets.take first) ++
        (retryPointers lane.packets first).take retry =
        addresses (lane.packets.take (first + retry)) := by
      rcases clean with hzero | hnone | hdone
      · rw [hzero, retryPointers_zero]
        simp [addresses]
      · rw [hnone]
        simp
      · omega
    by_cases hsent : first + retry < lane.packets.length
    · rw [Lane.drain, if_pos hall, if_pos hsent]
      constructor
      · rfl
      · rfl
      · simp only [Lane.enqueued, List.filterMap_append, filterMap_id_map_address,
          filterMap_id_map_some, List.append_assoc, hring]
      · rfl
      · rw [List.length_drop]
      · rw [List.length_drop]
    · have hnothing : lane.packets.drop (first + retry) = [] :=
        List.drop_eq_nil_of_le (by omega)
      rw [Lane.drain, if_pos hall, if_neg hsent]
      constructor
      · rfl
      · rfl
      · simp only [Lane.enqueued, List.filterMap_append, filterMap_id_map_address,
          filterMap_id_map_some, List.append_assoc, hring]
      · rw [hnothing, List.append_nil]
      · simp [hnothing]
      · simp [hnothing]
  · have hnothing : lane.packets.drop first = [] := List.drop_eq_nil_of_le (by omega)
    refine ⟨first, ?_⟩
    rw [Lane.drain, if_neg hall]
    constructor
    · rfl
    · rfl
    · simp only [Lane.enqueued, List.filterMap_append, filterMap_id_map_address]
    · rw [hnothing, List.append_nil]
    · simp [hnothing]
    · simp [hnothing]

/-- What holds of the packets of one worker. -/
structure LaneInv (lane : Lane) : Prop where
  settled : ∃ settled, addresses lane.received = settled ++ addresses lane.packets ∧
    lane.enqueued.Sublist settled ∧ (lane.enqueued ++ addresses lane.freed).Perm settled
  counted : lane.pktsDropped = UInt64.ofNat lane.freed.length
  short : lane.packets.length < readerDrainThresh

theorem addresses_append (front back : List Mbuf) :
    addresses (front ++ back) = addresses front ++ addresses back := List.map_append

/-- A burst is added behind the packets that wait. -/
theorem LaneInv.receive (inv : LaneInv lane) (now : Timespec) (burst : List (UInt64 × UInt16))
    (few : (lane.receive now burst).packets.length < readerDrainThresh) :
    LaneInv (lane.receive now burst) where
  settled := by
    rcases inv.settled with ⟨settled, hreceived, hsublist, hperm⟩
    refine ⟨settled, ?_, hsublist, hperm⟩
    simp only [Lane.receive, addresses_append, hreceived, List.append_assoc]
  counted := inv.counted
  short := few

/-- A batch is settled when it is drained. -/
theorem LaneInv.drained {after : Lane} {dropped : Stat} {sent : Nat} (inv : LaneInv lane)
    (drained : BatchSettled (lane.receive now burst) after dropped sent) : LaneInv after where
  settled := by
    rcases inv.settled with ⟨settled, hreceived, hsublist, hperm⟩
    have henqueued : after.enqueued = lane.enqueued ++
        addresses ((lane.receive now burst).packets.take sent) := drained.enqueued
    have hfreed : after.freed = lane.freed ++ (lane.receive now burst).packets.drop sent :=
      drained.freed
    have hbatch : addresses after.received =
        settled ++ addresses (lane.receive now burst).packets := by
      rw [drained.received]
      simp only [Lane.receive, addresses_append, hreceived, List.append_assoc]
    generalize (lane.receive now burst).packets = batch at henqueued hfreed hbatch
    have hsplit : addresses batch = addresses (batch.take sent) ++ addresses (batch.drop sent) := by
      rw [← addresses_append, List.take_append_drop]
    refine ⟨settled ++ addresses batch, ?_, ?_, ?_⟩
    · rw [hbatch, drained.packets]
      simp [addresses]
    · rw [henqueued]
      exact hsublist.append ((List.take_sublist _ _).map _)
    · rw [henqueued, hfreed, addresses_append, hsplit]
      calc
        _ ~ lane.enqueued ++ (addresses lane.freed ++
            (addresses (batch.take sent) ++ addresses (batch.drop sent))) := by
          rw [List.append_assoc]
          apply List.Perm.append_left
          rw [← List.append_assoc, ← List.append_assoc]
          exact List.Perm.append_right _ List.perm_append_comm
        _ ~ _ := by
          rw [← List.append_assoc]
          exact hperm.append_right _
  counted := by
    rw [drained.pktsDropped, drained.freed, List.length_append, UInt64.ofNat_add]
    exact congrArg (· + _) inv.counted
  short := by
    rw [drained.packets]
    decide

theorem LaneInv.order (inv : LaneInv lane) : lane.enqueued.Sublist (addresses lane.received) := by
  rcases inv.settled with ⟨settled, hreceived, hsublist, -⟩
  rw [hreceived]
  exact hsublist.trans (List.sublist_append_left _ _)

theorem LaneInv.once (inv : LaneInv lane) :
    (lane.enqueued ++ addresses lane.freed ++ addresses lane.packets).Perm
      (addresses lane.received) := by
  rcases inv.settled with ⟨settled, hreceived, -, hperm⟩
  rw [hreceived]
  exact hperm.append_right _

theorem LaneInv.apart (inv : LaneInv lane) (distinct : (addresses lane.received).Nodup) :
    ∀ address ∈ lane.enqueued, address ∉ addresses lane.freed := by
  have hnodup := inv.once.nodup_iff.mpr distinct
  rw [List.nodup_append] at hnodup
  have hapart := (List.nodup_append.mp hnodup.1).2.2
  intro address listed freed
  exact hapart address listed address freed rfl

/-! ## The reader -/

variable {n : Nat} {reader : DpdkReader n}

/-- What holds in every state of a run: the lanes are sound, the totals are those of the lanes,
and nothing waits at the end. -/
structure ReaderInv (reader : DpdkReader n) : Prop where
  lanes : ∀ worker, LaneInv (reader.lanes worker)
  dropped : reader.statDropped.packets =
    UInt64.ofNat (∑ worker, (reader.lanes worker).freed.length)
  received : reader.statReceived.packets =
    UInt64.ofNat (∑ worker, (reader.lanes worker).enqueued.length) + reader.statDropped.packets
  done : reader.phase = .ended → ∀ worker, (reader.lanes worker).packets = []

theorem ReaderInv.readerOk (inv : ReaderInv reader) : ReaderOk reader where
  order worker := (inv.lanes worker).order
  once worker := (inv.lanes worker).once
  apart worker := (inv.lanes worker).apart
  pktsDropped worker := (inv.lanes worker).counted
  statDropped := inv.dropped
  statReceived := inv.received
  room worker := by
    have := (inv.lanes worker).short
    omega
  done := inv.done

theorem readerInv_fresh (n : Nat) : ReaderInv (freshReader n) where
  lanes _ := ⟨⟨[], rfl, .refl _, .refl _⟩, rfl, show 0 < readerDrainThresh by decide⟩
  dropped := by simp [freshReader, emptyLane]
  received := by simp [freshReader, emptyLane, Lane.enqueued]
  done := by simp [freshReader]

/-- One lane is replaced: some more packets were sent and some more were freed. -/
theorem ReaderInv.replace (inv : ReaderInv reader) {worker : Fin n} {after : Lane}
    (sound : LaneInv after) {sent freed : Nat}
    (henqueued : after.enqueued.length = (reader.lanes worker).enqueued.length + sent)
    (hfreed : after.freed.length = (reader.lanes worker).freed.length + freed)
    {target : DpdkReader n} (lanes : target.lanes = Function.update reader.lanes worker after)
    (dropped : target.statDropped.packets = reader.statDropped.packets + UInt64.ofNat freed)
    (received : target.statReceived.packets =
      reader.statReceived.packets + UInt64.ofNat (sent + freed))
    (going : target.phase ≠ .ended) : ReaderInv target where
  lanes other := by
    rw [lanes]
    by_cases hsame : other = worker
    · rw [hsame, Function.update_self]
      exact sound
    · rw [Function.update_of_ne hsame]
      exact inv.lanes other
  dropped := by
    rw [dropped, lanes, sum_update_add (fun lane : Lane => lane.freed.length) _ _ hfreed,
      UInt64.ofNat_add, inv.dropped]
  received := by
    rw [received, dropped, lanes,
      sum_update_add (fun lane : Lane => lane.enqueued.length) _ _ henqueued, UInt64.ofNat_add,
      UInt64.ofNat_add, inv.received]
    ac_rfl
  done h := absurd h going

/-- One round of the inner loop. -/
theorem ReaderInv.poll (inv : ReaderInv reader) (worker : Fin n) (now : Timespec)
    (allowed : Allowed (reader.lanes worker) burst first retry)
    (clean : drains ((reader.lanes worker).receive now burst).packets now = true →
      RetriesCleanly ((reader.lanes worker).packets.length + burst.length) first retry)
    {phase : ReaderPhase n} (going : phase ≠ .ended) :
    ReaderInv { reader.poll worker now burst first retry with phase := phase } := by
  have hlength : ((reader.lanes worker).receive now burst).packets.length =
      (reader.lanes worker).packets.length + burst.length := by
    simp [Lane.receive]
  by_cases hnothing : burst = [] ∧ (reader.lanes worker).packets = []
  · rw [DpdkReader.poll, if_pos hnothing]
    exact ⟨inv.lanes, inv.dropped, inv.received, fun h => absurd h going⟩
  · by_cases hdrains : drains ((reader.lanes worker).receive now burst).packets now = true
    · have hdrained : ∃ sent, BatchSettled ((reader.lanes worker).receive now burst)
          (((reader.lanes worker).receive now burst).drain first retry).1
          (((reader.lanes worker).receive now burst).drain first retry).2 sent := by
        apply Lane.drained
        · rw [hlength]
          exact allowed.2
        · rw [hlength]
          exact clean hdrains
      rcases hdrained with ⟨sent, drained⟩
      have hbatch :
          (addresses (((reader.lanes worker).receive now burst).packets.take sent)).length +
          (((reader.lanes worker).receive now burst).packets.drop sent).length =
          ((reader.lanes worker).receive now burst).packets.length := by
        simp only [addresses, List.length_map, List.length_take, List.length_drop]
        omega
      apply inv.replace ((inv.lanes worker).drained drained)
        (by rw [drained.enqueued, List.length_append]; rfl)
        (by rw [drained.freed, List.length_append]; rfl)
      · simp only [DpdkReader.poll, if_neg hnothing, if_pos hdrains]
      · simp only [DpdkReader.poll, if_neg hnothing, if_pos hdrains, drained.dropped]
      · simp only [DpdkReader.poll, if_neg hnothing, if_pos hdrains, hbatch]
      · exact going
    · have hfew : ((reader.lanes worker).receive now burst).packets.length < readerDrainThresh := by
        by_contra hmany
        exact hdrains (by simp [drains, Nat.not_lt.mp hmany])
      have henqueued : ((reader.lanes worker).receive now burst).enqueued.length =
          (reader.lanes worker).enqueued.length + 0 := rfl
      have hfreed : ((reader.lanes worker).receive now burst).freed.length =
          (reader.lanes worker).freed.length + 0 := rfl
      apply inv.replace ((inv.lanes worker).receive now burst hfew) henqueued hfreed
      · simp only [DpdkReader.poll, if_neg hnothing, if_neg hdrains]
      · simp [DpdkReader.poll, if_neg hnothing, if_neg hdrains]
      · simp [DpdkReader.poll, if_neg hnothing, if_neg hdrains]
      · exact going

theorem advance_ne_ended (worker : Fin n) (now : Timespec) :
    DpdkReader.advance worker now ≠ .ended := by
  rw [DpdkReader.advance]
  split_ifs <;> simp

theorem begin_ne_ended (n : Nat) (now : Timespec) : DpdkReader.begin n now ≠ .ended := by
  rw [DpdkReader.begin]
  split_ifs <;> simp

/-- The `NULL` on a ring is no packet. -/
theorem enqueued_concat_none (lane : Lane) :
    Lane.enqueued { lane with ring := lane.ring ++ [none] } = lane.enqueued := by
  simp [Lane.enqueued]

theorem ReaderInv.finish (inv : ReaderInv reader)
    (empty : ∀ worker, (reader.lanes worker).packets = []) : ReaderInv reader.finish where
  lanes worker := by
    rcases inv.lanes worker with ⟨hsettled, hcounted, hshort⟩
    constructor
    · rw [DpdkReader.finish, enqueued_concat_none]
      exact hsettled
    · exact hcounted
    · exact hshort
  dropped := inv.dropped
  received := by
    simp only [DpdkReader.finish, enqueued_concat_none]
    exact inv.received
  done _ := empty

/-- One step that meets the condition keeps the invariant. -/
theorem ReaderInv.step (inv : ReaderInv reader) {act : ReaderAct} {target : DpdkReader n}
    (meets : LosesNothing reader act) (enabled : readerStep reader act = some target) :
    ReaderInv target := by
  unfold readerStep at enabled
  split at enabled
  next now hphase =>
    cases enabled
    exact ⟨inv.lanes, inv.dropped, inv.received, fun h => absurd h (begin_ne_ended n now)⟩
  next burst first retry worker now hphase =>
    split_ifs at enabled with allowed
    cases enabled
    rw [LosesNothing, hphase] at meets
    exact inv.poll worker now allowed meets (advance_ne_ended worker now)
  next hphase =>
    cases enabled
    exact inv.finish meets
  next => cases enabled

/-- In every run whose drains are retried cleanly and that ends with empty buffers, each packet
is put on the ring of its worker or freed, once, and the counters say so. -/
theorem readerOk_of_losesNothing
    (reached : (readerMachine n).ReachableWhen LosesNothing reader) : ReaderOk reader := by
  have hinv : ReaderInv reader := by
    apply reached.invariant ReaderInv
    · rintro start rfl
      exact readerInv_fresh n
    · intro before act after inv meets enabled
      exact inv.step meets enabled
  exact hinv.readerOk

/-- Two packets, of which the ring accepts none at first and one then. -/
def oneDropped : List ReaderAct :=
  [.round ⟨0, 0⟩, .poll [(0x10, 60), (0x20, 80)] 0 0, .round ⟨1, 0⟩, .poll [] 0 1, .stop]

theorem readerOk_of_losesNothing_oneDropped :
    (((readerMachine 1).restrict LosesNothing).run oneDropped (freshReader 1)).isSome = true ∧
      ReaderOk (((readerMachine 1).restrict LosesNothing).after oneDropped (freshReader 1)) := by
  have hrun : (((readerMachine 1).restrict LosesNothing).run oneDropped
      (freshReader 1)).isSome = true := by decide +kernel
  exact ⟨hrun, readerOk_of_losesNothing (Machine.reachableWhen_after rfl hrun)⟩

/-- Two packets, of which the ring accepts one at first and one then. -/
def twoTries : List ReaderAct :=
  [.round ⟨0, 0⟩, .poll [(0x10, 60), (0x20, 80)] 0 0, .round ⟨1, 0⟩, .poll [] 1 1, .stop]

/-- One packet that was received less than a second before the end. -/
def oneWaits : List ReaderAct := [.round ⟨0, 0⟩, .poll [(0x10, 60)] 0 0, .stop]

/-- The second try puts an address on the ring that no packet has, and a packet that waits at the
end is neither sent nor freed. -/
theorem not_readerOk_twoTries_oneWaits :
    ((readerMachine 1).Reachable ((readerMachine 1).after twoTries (freshReader 1)) ∧
      ¬ReaderOk ((readerMachine 1).after twoTries (freshReader 1))) ∧
    (readerMachine 1).Reachable ((readerMachine 1).after oneWaits (freshReader 1)) ∧
      ¬ReaderOk ((readerMachine 1).after oneWaits (freshReader 1)) := by
  have htries : ((readerMachine 1).run twoTries (freshReader 1)).isSome = true := by decide +kernel
  have hwaits : ((readerMachine 1).run oneWaits (freshReader 1)).isSome = true := by decide +kernel
  refine ⟨⟨Machine.reachable_after rfl htries, ?_⟩, Machine.reachable_after rfl hwaits, ?_⟩
  · intro ok
    -- the bytes of the two pointers, from the second byte on
    have hring : (((readerMachine 1).after twoTries (freshReader 1)).lanes 0).enqueued =
        [0x10, 0x2000000000000000] := by decide +kernel
    have hreceived :
        addresses (((readerMachine 1).after twoTries (freshReader 1)).lanes 0).received =
        [0x10, 0x20] := by decide +kernel
    have horder := ok.order 0
    rw [hring, hreceived] at horder
    revert horder
    decide
  · intro ok
    exact absurd (ok.done (by decide +kernel) 0) (by decide +kernel)

end MmtProbe.Capture
