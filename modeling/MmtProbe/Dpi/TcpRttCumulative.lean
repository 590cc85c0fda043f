/-
# Acknowledgements are not cumulative

In TCP an acknowledgement number covers all the data before it.  The round-trip times
are computed with another convention: a packet with `len` bytes at `seq` is expected to
be acknowledged by `seq + len + 1`, exactly this number is looked for, and the packets
before it are found by the same rule from the sequence number of the one that was
found.

A number therefore removes the packets it covers only when these stand in a row in the
list, the first of them ends one byte before the number, and each of the others ends one
byte before the beginning of its predecessor in the list.
-/

import MmtProbe.Dpi.TcpRtt
import MmtProbe.Math.Trace
import Mathlib.Data.List.Induction
import Mathlib.Tactic.Tauto

namespace MmtProbe.Dpi

open MmtProbe.Math MmtProbe.Configure

/-! ## Captured segments -/

/-- A captured TCP segment.  The payload fits in the 16 bits of the lengths of IP.  What
else the handler sees of the packet is arbitrary. -/
structure Segment where
  direction : Bool
  seq : UInt32
  /-- The acknowledgement number, when the segment carries one. -/
  ack : Option UInt32
  len : UInt16
  rest : PacketInfo
deriving DecidableEq, Repr

/-- What the handler sees of a segment.  The field of a segment without an
acknowledgement is 0. -/
def Segment.captured (seg : Segment) : PacketInfo :=
  { seg.rest with
    direction := seg.direction
    tcp := { seg.rest.tcp with
      seqNb := some seg.seq
      ackNb := some (seg.ack.getD 0)
      payloadLen := some seg.len.toUInt32 } }

/-- The lists after a segment and the returned counter, which is 0 without a call. -/
def Segment.addTo (seg : Segment) (rtt : TcpRtt) : TcpRtt × UInt32 :=
  match rttCall .captor seg.captured with
  | none => (rtt, 0)
  | some call => ((call.addTo rtt).1, (call.addTo rtt).2.1)

/-- The segments of a connection, from a session without statistics. -/
def captorRun (segments : List Segment) : QosStat :=
  segments.foldl (fun qos seg => qos.receive .captor seg.captured) .zero

theorem rttCall_captured (seg : Segment) :
    rttCall .captor seg.captured =
      if seg.ack.getD 0 ≠ 0 ∧ seg.seq ≠ 0 then
        some ⟨seg.direction, seg.ack.getD 0, seg.seq, seg.len, seg.rest.ts⟩
      else none := by
  simp [rttCall, rttNumbers, Segment.captured]

theorem QosStat.moments_tcpRtt (qos : QosStat) (info : PacketInfo) :
    (qos.moments info).tcpRtt = qos.tcpRtt := by
  unfold QosStat.moments
  split_ifs <;> rfl

/-- The callback leaves the lists that the call leaves. -/
theorem QosStat.receive_captured (qos : QosStat) (seg : Segment) :
    (qos.receive .captor seg.captured).tcpRtt = (seg.addTo qos.tcpRtt).1 := by
  unfold QosStat.receive Segment.addTo
  simp only [QosStat.moments_tcpRtt, QosStat.addRtt_eq]
  cases rttCall .captor seg.captured <;> rfl

/-- A segment as a call, or the reason why there is none. -/
theorem Segment.addTo_cases (seg : Segment) (rtt : TcpRtt) {ack : UInt32}
    (carries : seg.ack = some ack) :
    ((ack = 0 ∨ seg.seq = 0) ∧ seg.addTo rtt = (rtt, 0)) ∨
      ack ≠ 0 ∧ seg.seq ≠ 0 ∧ ∃ call : RttCall, call.direction = seg.direction ∧
        call.ackNum = ack ∧ seg.addTo rtt = ((call.addTo rtt).1, (call.addTo rtt).2.1) := by
  unfold Segment.addTo
  rw [rttCall_captured, carries, Option.getD_some]
  by_cases hcalled : ack ≠ 0 ∧ seg.seq ≠ 0
  · rw [if_pos hcalled]
    exact Or.inr ⟨hcalled.1, hcalled.2, _, rfl, rfl, rfl⟩
  · rw [if_neg hcalled]
    exact Or.inl ⟨by tauto, rfl⟩

theorem Segment.addTo_ordered {rtt : TcpRtt} (seg : Segment) (ordered : rtt.Ordered) :
    (seg.addTo rtt).1.Ordered := by
  unfold Segment.addTo
  cases rttCall .captor seg.captured with
  | none => exact ordered
  | some call => exact call.addTo_ordered ordered

theorem captorRun_ordered (segments : List Segment) : (captorRun segments).tcpRtt.Ordered := by
  unfold captorRun
  induction segments using List.reverseRecOn with
  | nil => exact ordered_empty
  | append_singleton segments seg ih =>
      rw [List.foldl_concat, QosStat.receive_captured]
      exact seg.addTo_ordered ih

/-! ## What is acknowledged -/

/-- The data of a packet end at or before a number, in the arithmetic of sequence
numbers. -/
def PktNode.AckedBy (ack : UInt32) (p : PktNode) : Prop :=
  (ack - (p.seqNumber + p.dataLen.toUInt32)).toNat < 2 ^ 31

instance (ack : UInt32) (p : PktNode) : Decidable (p.AckedBy ack) :=
  inferInstanceAs (Decidable (_ < _))

/-- The packets of a list whose data are acknowledged. -/
def acked (ack : UInt32) (list : List PktNode) : List PktNode :=
  list.filter fun p => p.AckedBy ack

/-- After a segment no packet remains that it acknowledges, and the returned counter is
the number of those that were there. -/
def Cumulative (seg : Segment) (rtt : TcpRtt) : Prop :=
  ∀ ack ∈ seg.ack, acked ack ((seg.addTo rtt).1.get (!seg.direction)) = [] ∧
    (seg.addTo rtt).2.toNat = (acked ack (rtt.get (!seg.direction))).length

/-- The acknowledged packets stand in a row and form a chain that the packet behind them
does not continue.  There are none when one of the two numbers of the segment is 0. -/
def AcksChain (seg : Segment) (rtt : TcpRtt) : Prop :=
  ∀ ack ∈ seg.ack,
    (∃ front back, rtt.get (!seg.direction) =
      front ++ acked ack (rtt.get (!seg.direction)) ++ back ∧
      Chained ack (acked ack (rtt.get (!seg.direction))) ∧
      Breaks (chainEnd ack (acked ack (rtt.get (!seg.direction)))) back) ∧
    (ack = 0 ∨ seg.seq = 0 → acked ack (rtt.get (!seg.direction)) = [])

variable {ack : UInt32} {p : PktNode} {list : List PktNode}

theorem mem_acked : p ∈ acked ack list ↔ p ∈ list ∧ p.AckedBy ack := by
  simp [acked]

theorem acked_append (front back : List PktNode) :
    acked ack (front ++ back) = acked ack front ++ acked ack back :=
  List.filter_append ..

theorem acked_eq_nil : acked ack list = [] ↔ ∀ p ∈ list, ¬ p.AckedBy ack := by
  simp [acked, List.filter_eq_nil_iff]

/-- In the code's convention a packet is acknowledged by the number behind its data. -/
theorem ackedBy_of_number (expected : p.expectedAckNumber = ack) : p.AckedBy ack := by
  unfold PktNode.AckedBy
  rw [← expected, PktNode.expectedAckNumber, UInt32.add_comm, UInt32.add_sub_cancel]
  decide

/-- At most half of the numbers are acknowledged. -/
theorem length_acked_le (sorted : Descending PktNode.number list) :
    (acked ack list).length ≤ 2 ^ 31 := by
  have hsorted : Descending PktNode.number (acked ack list) := sorted.sublist List.filter_sublist
  have hdistinct : ((acked ack list).map fun p =>
      (ack - (p.seqNumber + p.dataLen.toUInt32)).toNat).Nodup := by
    rw [List.Nodup, List.pairwise_map]
    apply hsorted.imp
    intro p q hlt heq
    have hends : p.seqNumber + p.dataLen.toUInt32 = q.seqNumber + q.dataLen.toUInt32 := by
      have hsub := UInt32.toNat_inj.mp heq
      exact (UInt32.sub_right_inj ack).mp hsub
    apply hlt.ne
    rw [PktNode.number_eq_iff, PktNode.expectedAckNumber, PktNode.expectedAckNumber, hends]
  rw [← List.length_map]
  apply length_le_of_nodup hdistinct
  intro n hn
  rcases List.mem_map.mp hn with ⟨p, hp, rfl⟩
  exact (mem_acked.mp hp).2

/-! ## When an acknowledgement is cumulative -/

/-- Nothing is acknowledged, and nothing is removed. -/
theorem acksChain_of_acked_eq_nil {seg : Segment} {rtt : TcpRtt} (carries : seg.ack = some ack)
    (none : acked ack (rtt.get (!seg.direction)) = []) : AcksChain seg rtt := by
  intro other hother
  rw [carries] at hother
  cases hother
  rw [none]
  refine ⟨⟨rtt.get (!seg.direction), [], by simp, trivial, ?_⟩, fun _ => rfl⟩
  intro p hp
  cases hp

theorem acksChain_of_cumulative {seg : Segment} {rtt : TcpRtt} (ordered : rtt.Ordered)
    (cumulative : Cumulative seg rtt) : AcksChain seg rtt := by
  cases hack : seg.ack with
  | none =>
      intro ack hmem
      rw [hack] at hmem
      cases hmem
  | some ack =>
      rcases cumulative ack hack with ⟨hremains, hcounter⟩
      rcases seg.addTo_cases rtt hack with
        ⟨-, hnone⟩ | ⟨hnonzero, hseq, call, hdirection, hnum, hcall⟩
      · rw [hnone] at hremains
        exact acksChain_of_acked_eq_nil hack hremains
      · rw [hcall] at hremains hcounter
        rcases call.addTo_cases rtt with ⟨-, hsame, -⟩ |
          ⟨-, front, p, chain, back, hlist, hchained, hbroken, hcut, hreturned, -⟩
        · rw [hdirection] at hsame
          rw [hsame] at hremains
          exact acksChain_of_acked_eq_nil hack hremains
        · rw [hdirection] at hlist hcut
          rw [hnum] at hchained hbroken
          rw [hcut, acked_append, List.append_eq_nil_iff] at hremains
          have hacked : acked ack (rtt.get (!seg.direction)) = acked ack (p :: chain) := by
            rw [hlist, acked_append, acked_append, hremains.1, hremains.2, List.nil_append,
              List.append_nil]
          have hp : p ∈ acked ack (p :: chain) :=
            mem_acked.mpr ⟨List.mem_cons_self .., ackedBy_of_number hchained.1⟩
          -- the counter would be 0 only if every number were in the chain
          have hlength : (acked ack (p :: chain)).length = (p :: chain).length := by
            have hrun : Descending PktNode.number (p :: chain) := by
              apply (ordered (!seg.direction)).sublist
              rw [hlist, List.append_assoc]
              exact (List.sublist_append_left _ _).trans (List.sublist_append_right _ _)
            have hle : (p :: chain).length ≤ 2 ^ 32 := hrun.length_le fun q _ => q.number_lt
            have hpos : 0 < (acked ack (p :: chain)).length := List.length_pos_of_mem hp
            rw [hreturned, UInt32.toNat_ofNat', hacked] at hcounter
            omega
          have hall : acked ack (p :: chain) = p :: chain :=
            List.filter_sublist.eq_of_length hlength
          intro other hother
          rw [hack] at hother
          cases hother
          rw [hacked, hall]
          refine ⟨⟨front, back, hlist, hchained, hbroken⟩, ?_⟩
          rintro (hzero | hzero)
          · exact absurd hzero hnonzero
          · exact absurd hzero hseq

theorem cumulative_of_acksChain {seg : Segment} {rtt : TcpRtt} (ordered : rtt.Ordered)
    (acksChain : AcksChain seg rtt) : Cumulative seg rtt := by
  intro ack hack
  rcases acksChain ack hack with ⟨⟨front, back, hlist, hchained, hbroken⟩, hskipped⟩
  have hlength := @length_acked_le ack _ (ordered (!seg.direction))
  have hparts : acked ack front = [] ∧ acked ack back = [] := by
    have hself : acked ack (acked ack (rtt.get (!seg.direction))) =
        acked ack (rtt.get (!seg.direction)) := by simp [acked]
    have hsum := congrArg (fun list => (acked ack list).length) hlist
    simp only [acked_append, hself, List.length_append] at hsum
    exact ⟨List.length_eq_zero_iff.mp (by omega), List.length_eq_zero_iff.mp (by omega)⟩
  cases hchain : acked ack (rtt.get (!seg.direction)) with
  | nil =>
      rcases seg.addTo_cases rtt hack with ⟨-, hnone⟩ | ⟨-, -, call, hdirection, hnum, hcall⟩
      · rw [hnone]
        exact ⟨hchain, rfl⟩
      · have hnothing : FindsNothing call.ackNum (rtt.get (!call.direction)) := by
          refine Or.inr ?_
          intro p hp hexpected
          rw [hdirection] at hp
          exact acked_eq_nil.mp hchain p hp (ackedBy_of_number (hexpected.trans hnum))
        rcases call.addTo_of_findsNothing rtt hnothing with ⟨hsame, hcounter⟩
        rw [hdirection] at hsame
        rw [hcall, hsame, hcounter]
        exact ⟨hchain, rfl⟩
  | cons p chain =>
      rw [hchain] at hlist hchained hbroken hlength hskipped
      rcases seg.addTo_cases rtt hack with ⟨hzero, -⟩ |
        ⟨hnonzero, -, call, hdirection, rfl, hcall⟩
      · cases hskipped hzero
      · rw [← hdirection] at hlist
        have habsent : ∀ q ∈ front, q.expectedAckNumber ≠ call.ackNum := by
          intro q hq hexpected
          exact acked_eq_nil.mp hparts.1 q hq (ackedBy_of_number hexpected)
        rcases call.addTo_of_found rtt hnonzero hlist habsent hchained hbroken with
          ⟨hcut, hcounter, -⟩
        rw [hdirection] at hcut
        rw [hcall, hcut, hcounter, acked_append, hparts.1, hparts.2, UInt32.toNat_ofNat']
        exact ⟨rfl, by omega⟩

/-- In every run the segments all acknowledge cumulatively exactly when each of them
acknowledges a chain of the packets that are in the list when it arrives. -/
theorem captorRun_cumulative_iff (segments : List Segment) :
    Past (fun before seg => Cumulative seg (captorRun before).tcpRtt) segments ↔
      Past (fun before seg => AcksChain seg (captorRun before).tcpRtt) segments := by
  constructor
  · intro hcumulative before seg after hrun
    exact acksChain_of_cumulative (captorRun_ordered before) (hcumulative before seg after hrun)
  · intro hchain before seg after hrun
    exact cumulative_of_acksChain (captorRun_ordered before) (hchain before seg after hrun)

/-- A segment of 100 bytes and the acknowledgement of its last byte. -/
def dataSegment : Segment :=
  ⟨false, 1000, some 1, 100, ⟨0, [], false, .zero, ⟨none, none, none, none, none, none, false⟩⟩⟩

def ackSegment : Segment :=
  { dataSegment with direction := true, seq := 1, ack := some 1100, len := 0 }

/-- The acknowledged segment stays in the list. -/
theorem captorRun_not_cumulative :
    ¬ Past (fun before seg => Cumulative seg (captorRun before).tcpRtt)
      [dataSegment, ackSegment] := by
  intro hcumulative
  have hack := hcumulative [dataSegment] ackSegment [] rfl 1100 rfl
  exact absurd hack.1 (by decide +kernel)

end MmtProbe.Dpi
