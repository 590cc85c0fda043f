/-
# The lists behind the round-trip times

`tcp_rtt_add_packet` keeps for each direction the packets that were not yet
acknowledged, in descending order of the number by which it expects each of them to
be acknowledged.  A packet enters the list of its own direction or refreshes the time
of the packet that has its number.  It then takes a stretch out of the other list: the
packet that it acknowledges, and those before it as long as their numbers follow from
each other.

The numbers are those of 32-bit arithmetic, so the order of the list is not that of
the stream once the sequence numbers have wrapped.
-/

import MmtProbe.Dpi.Qos
import MmtProbe.Math.Descending
import MmtProbe.Math.Machine
import MmtProbe.Math.Word

namespace MmtProbe.Dpi

open MmtProbe.Math MmtProbe.Configure

/-! ## One call -/

/-- The arguments of `tcp_rtt_add_packet`. -/
structure RttCall where
  direction : Bool
  ackNum : UInt32
  seqNum : UInt32
  dataLen : UInt16
  timestamp : Timeval
deriving DecidableEq, Repr

/-- The packet that a call enters. -/
def RttCall.node (call : RttCall) : PktNode := ⟨call.seqNum, call.dataLen, call.timestamp⟩

/-- The lists, the returned counter and the value of `usec` after a call. -/
def RttCall.addTo (call : RttCall) (rtt : TcpRtt) : TcpRtt × UInt32 × UInt64 :=
  tcpRttAddPacket rtt call.direction call.ackNum call.seqNum call.dataLen call.timestamp

/-- The call that `session_report_callback_on_receiving_packet` makes for a packet. -/
def rttCall (base : RttBase) (info : PacketInfo) : Option RttCall :=
  let (ackNumber, seqNumber, dataLen) := rttNumbers base info.tcp
  if ackNumber ≠ 0 ∧ seqNumber ≠ 0 then
    some ⟨info.direction, ackNumber, seqNumber, dataLen.toUInt16, info.ts⟩
  else none

/-- The callback makes at most this call, and counts a sample when a packet was found. -/
theorem QosStat.addRtt_eq (qos : QosStat) (base : RttBase) (info : PacketInfo) :
    qos.addRtt base info =
      match rttCall base info with
      | none => qos
      | some call =>
          { qos with
            tcpRtt := (call.addTo qos.tcpRtt).1
            rtt := if (call.addTo qos.tcpRtt).2.1 ≠ 0 then
                qos.rtt.set (!info.direction) ((qos.rtt.get (!info.direction)).add
                  (call.addTo qos.tcpRtt).2.2 (call.addTo qos.tcpRtt).2.1)
              else qos.rtt } := by
  unfold QosStat.addRtt rttCall
  rcases rttNumbers base info.tcp with ⟨ackNumber, seqNumber, dataLen⟩
  by_cases hcalled : ackNumber ≠ 0 ∧ seqNumber ≠ 0
  · simp only [if_pos hcalled]
    by_cases hfound : ((⟨info.direction, ackNumber, seqNumber, dataLen.toUInt16, info.ts⟩ :
        RttCall).addTo qos.tcpRtt).2.1 ≠ 0
    · rw [if_pos hfound]
      exact if_pos hfound
    · rw [if_neg hfound]
      exact if_neg hfound
  · simp only [if_neg hcalled]

/-- The number that orders a list. -/
def PktNode.number (p : PktNode) : Nat := p.expectedAckNumber.toNat

theorem PktNode.number_lt (p : PktNode) : p.number < 2 ^ 32 := p.expectedAckNumber.toNat_lt

theorem PktNode.number_eq_iff {p q : PktNode} :
    p.number = q.number ↔ p.expectedAckNumber = q.expectedAckNumber := UInt32.toNat_inj

section PerDirection

variable {α : Type} (pair : PerDirection α) (direction : Bool) (value : α)

@[simp]
theorem PerDirection.get_set : (pair.set direction value).get direction = value := by
  cases direction <;> rfl

@[simp]
theorem PerDirection.get_not_set : (pair.set direction value).get (!direction) =
    pair.get (!direction) := by
  cases direction <;> rfl

@[simp]
theorem PerDirection.get_set_not : (pair.set (!direction) value).get direction =
    pair.get direction := by
  cases direction <;> rfl

end PerDirection

/-! ## The own direction -/

variable {node : PktNode} {list : List PktNode}

/-- The list with one more packet. -/
def Inserted (node : PktNode) (before after : List PktNode) : Prop :=
  ∃ front back, before = front ++ back ∧ after = front ++ node :: back

/-- The list in which the packet with the same number got the time of the new one. -/
def Refreshed (node : PktNode) (before after : List PktNode) : Prop :=
  ∃ front p back, before = front ++ p :: back ∧ p.number = node.number ∧
    after = front ++ { p with timestamp := node.timestamp } :: back

/-- A packet with the same number is there, and the new one is not later. -/
def NotNewer (node : PktNode) (list : List PktNode) : Prop :=
  ∃ p ∈ list, p.number = node.number ∧ isAfter p.timestamp node.timestamp = false

theorem addPktNode_cons_of_lt {p : PktNode} {ps : List PktNode} (larger : node.number < p.number) :
    addPktNode node (p :: ps) = p :: addPktNode node ps := by
  have hgt : p.expectedAckNumber > node.expectedAckNumber := UInt32.lt_iff_toNat_lt.mpr larger
  rw [addPktNode, if_pos hgt]

theorem addPktNode_cons_of_eq {p : PktNode} {ps : List PktNode} (same : p.number = node.number) :
    addPktNode node (p :: ps) =
      (if isAfter p.timestamp node.timestamp then { p with timestamp := node.timestamp } else p)
        :: ps := by
  have hsame : p.expectedAckNumber = node.expectedAckNumber := PktNode.number_eq_iff.mp same
  have hgt : ¬ p.expectedAckNumber > node.expectedAckNumber := by
    rw [hsame]
    exact UInt32.lt_irrefl _
  rw [addPktNode, if_neg hgt, if_pos hsame]

theorem addPktNode_cons_of_gt {p : PktNode} {ps : List PktNode} (smaller : p.number < node.number) :
    addPktNode node (p :: ps) = node :: p :: ps := by
  have hgt : ¬ p.expectedAckNumber > node.expectedAckNumber := by
    intro hlt
    have := UInt32.lt_iff_toNat_lt.mp hlt
    unfold PktNode.number at smaller
    omega
  have hne : p.expectedAckNumber ≠ node.expectedAckNumber := by
    intro heq
    exact absurd (PktNode.number_eq_iff.mpr heq) smaller.ne
  rw [addPktNode, if_neg hgt, if_neg hne]

/-- Where a packet goes. The larger numbers are in front of its place, and what is
behind it has smaller ones. -/
theorem addPktNode_place (sorted : Descending PktNode.number list) (node : PktNode) :
    (∃ front back, list = front ++ back ∧ addPktNode node list = front ++ node :: back ∧
        (∀ p ∈ front, node.number < p.number) ∧ ∀ p ∈ back, p.number < node.number) ∨
      ∃ front p back, list = front ++ p :: back ∧ p.number = node.number ∧
        addPktNode node list =
          front ++ (if isAfter p.timestamp node.timestamp then
            { p with timestamp := node.timestamp }
            else p) :: back := by
  induction list with
  | nil => exact Or.inl ⟨[], [], rfl, rfl, by simp, by simp⟩
  | cons p ps ih =>
      rcases List.pairwise_cons.mp sorted with ⟨hbelow, hsorted⟩
      rcases Nat.lt_trichotomy p.number node.number with hlt | heq | hgt
      · refine Or.inl ⟨[], p :: ps, rfl, addPktNode_cons_of_gt hlt, by simp, ?_⟩
        intro q hq
        rcases List.mem_cons.mp hq with rfl | hq
        · exact hlt
        · exact (hbelow q hq).trans hlt
      · exact Or.inr ⟨[], p, ps, rfl, heq, addPktNode_cons_of_eq heq⟩
      · rw [addPktNode_cons_of_lt hgt]
        rcases ih hsorted with ⟨front, back, rfl, hadd, hlarger, hsmaller⟩ |
          ⟨front, q, back, rfl, hsame, hadd⟩
        · refine Or.inl ⟨p :: front, back, rfl, by rw [hadd]; rfl, ?_, hsmaller⟩
          intro q hq
          rcases List.mem_cons.mp hq with rfl | hq
          · exact hgt
          · exact hlarger q hq
        · exact Or.inr ⟨p :: front, q, back, rfl, hsame, by rw [hadd]; rfl⟩

theorem addPktNode_descending (sorted : Descending PktNode.number list) (node : PktNode) :
    Descending PktNode.number (addPktNode node list) := by
  rcases addPktNode_place sorted node with ⟨front, back, rfl, hadd, hlarger, hsmaller⟩ |
    ⟨front, p, back, rfl, hsame, hadd⟩
  · rw [hadd]
    exact sorted.splice hlarger hsmaller
  · rw [hadd]
    apply sorted.replace
    split_ifs <;> rfl

/-- The list changes by one packet or by one time. It stays as it is only for a packet
that is not later than the one with its number. -/
theorem addPktNode_change (sorted : Descending PktNode.number list) (node : PktNode) :
    Inserted node list (addPktNode node list) ∨ Refreshed node list (addPktNode node list) ∨
      (NotNewer node list ∧ addPktNode node list = list) := by
  rcases addPktNode_place sorted node with ⟨front, back, hlist, hadd, -, -⟩ |
    ⟨front, p, back, hlist, hsame, hadd⟩
  · exact Or.inl ⟨front, back, hlist, hadd⟩
  · by_cases hafter : isAfter p.timestamp node.timestamp = true
    · rw [if_pos hafter] at hadd
      exact Or.inr (Or.inl ⟨front, p, back, hlist, hsame, hadd⟩)
    · rw [if_neg hafter, ← hlist] at hadd
      have hp : p ∈ list := by
        rw [hlist]
        exact List.mem_append_right _ (List.mem_cons_self ..)
      exact Or.inr (Or.inr ⟨⟨p, hp, hsame, Bool.eq_false_iff.mpr hafter⟩, hadd⟩)

/-! ## The other direction -/

/-- Each packet has the number that the one before it gives: the first one the number
that acknowledges it, the next one the sequence number of the first. -/
def Chained : UInt32 → List PktNode → Prop
  | _, [] => True
  | ackNum, p :: ps => p.expectedAckNumber = ackNum ∧ Chained p.seqNumber ps

instance decidableChained : (ackNum : UInt32) → (list : List PktNode) →
    Decidable (Chained ackNum list)
  | _, [] => inferInstanceAs (Decidable True)
  | ackNum, p :: ps =>
      have := decidableChained p.seqNumber ps
      inferInstanceAs (Decidable (p.expectedAckNumber = ackNum ∧ Chained p.seqNumber ps))

/-- The number that would continue a chain. -/
def chainEnd : UInt32 → List PktNode → UInt32
  | ackNum, [] => ackNum
  | _, p :: ps => chainEnd p.seqNumber ps

/-- The next packet does not continue a chain. -/
def Breaks (number : UInt32) (back : List PktNode) : Prop :=
  ∀ p ∈ back.head?, p.expectedAckNumber ≠ number

instance (number : UInt32) (back : List PktNode) : Decidable (Breaks number back) :=
  inferInstanceAs (Decidable (∀ p ∈ back.head?, p.expectedAckNumber ≠ number))

theorem removeAcknowledged_of_chained {ackNum : UInt32} {chain back : List PktNode}
    (chained : Chained ackNum chain) (broken : Breaks (chainEnd ackNum chain) back) :
    removeAcknowledged ackNum (chain ++ back) = (UInt32.ofNat chain.length, back) := by
  induction chain generalizing ackNum with
  | nil =>
      cases back with
      | nil => rfl
      | cons p ps =>
          have hne : p.expectedAckNumber ≠ ackNum := broken p rfl
          rw [List.nil_append, removeAcknowledged, if_neg hne]
          rfl
  | cons p chain ih =>
      rcases chained with ⟨hhead, hchained⟩
      rw [List.cons_append, removeAcknowledged, if_pos hhead, ih hchained broken,
        List.length_cons, UInt32.ofNat_add]
      rfl

/-- Every list begins with a chain that the next packet does not continue. -/
theorem exists_chain (ackNum : UInt32) (list : List PktNode) :
    ∃ chain back, list = chain ++ back ∧ Chained ackNum chain ∧
      Breaks (chainEnd ackNum chain) back := by
  induction list generalizing ackNum with
  | nil => exact ⟨[], [], rfl, trivial, by simp [Breaks]⟩
  | cons p ps ih =>
      by_cases hhead : p.expectedAckNumber = ackNum
      · rcases ih p.seqNumber with ⟨chain, back, rfl, hchained, hbroken⟩
        exact ⟨p :: chain, back, rfl, ⟨hhead, hchained⟩, hbroken⟩
      · refine ⟨[], p :: ps, rfl, trivial, ?_⟩
        intro q hq
        cases hq
        exact hhead

/-- Nothing is found when no packet has the number. -/
theorem acknowledge_of_forall_ne {ackNum : UInt32}
    (absent : ∀ p ∈ list, p.expectedAckNumber ≠ ackNum) : acknowledge ackNum list = none := by
  induction list with
  | nil => rfl
  | cons p ps ih =>
      have hne : p.expectedAckNumber ≠ ackNum := absent p (List.mem_cons_self ..)
      rw [acknowledge, if_neg hne, ih fun q hq => absent q (List.mem_cons_of_mem p hq)]
      rfl

/-- What is removed behind the packets that do not have the number. -/
theorem acknowledge_append {ackNum : UInt32} {front chain back : List PktNode} {p : PktNode}
    (absent : ∀ q ∈ front, q.expectedAckNumber ≠ ackNum) (chained : Chained ackNum (p :: chain))
    (broken : Breaks (chainEnd ackNum (p :: chain)) back) :
    acknowledge ackNum (front ++ p :: chain ++ back) =
      some (p.timestamp, UInt32.ofNat (p :: chain).length, front ++ back) := by
  induction front with
  | nil =>
      rw [List.nil_append, List.cons_append, acknowledge, if_pos chained.1, ← List.cons_append,
        removeAcknowledged_of_chained chained broken]
      rfl
  | cons q front ih =>
      have hne : q.expectedAckNumber ≠ ackNum := absent q (List.mem_cons_self ..)
      rw [List.cons_append, List.cons_append, acknowledge, if_neg hne,
        ih fun r hr => absent r (List.mem_cons_of_mem q hr)]
      rfl

/-- Every list around the first packet that has a number. -/
theorem exists_around (ackNum : UInt32) (list : List PktNode) :
    (∀ p ∈ list, p.expectedAckNumber ≠ ackNum) ∨
      ∃ front p chain back, list = front ++ p :: chain ++ back ∧
        (∀ q ∈ front, q.expectedAckNumber ≠ ackNum) ∧ Chained ackNum (p :: chain) ∧
        Breaks (chainEnd ackNum (p :: chain)) back := by
  induction list with
  | nil => exact Or.inl (by simp)
  | cons p ps ih =>
      by_cases hhead : p.expectedAckNumber = ackNum
      · rcases exists_chain p.seqNumber ps with ⟨chain, back, rfl, hchained, hbroken⟩
        exact Or.inr ⟨[], p, chain, back, rfl, by simp, ⟨hhead, hchained⟩, hbroken⟩
      · rcases ih with habsent | ⟨front, q, chain, back, rfl, habsent, hchained, hbroken⟩
        · refine Or.inl ?_
          intro q hq
          rcases List.mem_cons.mp hq with rfl | hq
          · exact hhead
          · exact habsent q hq
        · refine Or.inr ⟨p :: front, q, chain, back, rfl, ?_, hchained, hbroken⟩
          intro r hr
          rcases List.mem_cons.mp hr with rfl | hr
          · exact hhead
          · exact habsent r hr

/-- A call removes nothing from the other list: it carries no number, or no packet has
it. -/
def FindsNothing (ackNum : UInt32) (list : List PktNode) : Prop :=
  ackNum = 0 ∨ ∀ p ∈ list, p.expectedAckNumber ≠ ackNum

theorem RttCall.addTo_own (call : RttCall) (rtt : TcpRtt) :
    (call.addTo rtt).1.get call.direction = addPktNode call.node (rtt.get call.direction) := by
  unfold RttCall.addTo tcpRttAddPacket
  split_ifs
  · exact PerDirection.get_set ..
  · simp only
    cases acknowledge call.ackNum _ with
    | none => exact PerDirection.get_set ..
    | some found =>
        simp only [PerDirection.get_set_not]
        exact PerDirection.get_set ..

theorem RttCall.addTo_of_findsNothing (call : RttCall) (rtt : TcpRtt)
    (nothing : FindsNothing call.ackNum (rtt.get (!call.direction))) :
    (call.addTo rtt).1.get (!call.direction) = rtt.get (!call.direction) ∧
      (call.addTo rtt).2.1 = 0 := by
  unfold RttCall.addTo tcpRttAddPacket
  by_cases hzero : call.ackNum = 0
  · simp only [if_pos hzero]
    exact ⟨PerDirection.get_not_set .., trivial⟩
  · have habsent := nothing.resolve_left hzero
    simp only [if_neg hzero, PerDirection.get_not_set, acknowledge_of_forall_ne habsent]
    exact ⟨trivial, trivial⟩

theorem RttCall.addTo_of_found (call : RttCall) (rtt : TcpRtt) (carries : call.ackNum ≠ 0)
    {front chain back : List PktNode} {p : PktNode}
    (around : rtt.get (!call.direction) = front ++ p :: chain ++ back)
    (absent : ∀ q ∈ front, q.expectedAckNumber ≠ call.ackNum)
    (chained : Chained call.ackNum (p :: chain))
    (broken : Breaks (chainEnd call.ackNum (p :: chain)) back) :
    (call.addTo rtt).1.get (!call.direction) = front ++ back ∧
      (call.addTo rtt).2.1 = UInt32.ofNat (p :: chain).length ∧
      (call.addTo rtt).2.2 = UInt64.ofInt (uSecondDiff call.timestamp p.timestamp) := by
  unfold RttCall.addTo tcpRttAddPacket
  simp only [if_neg carries, PerDirection.get_not_set, around,
    acknowledge_append absent chained broken]
  exact ⟨PerDirection.get_set .., trivial, trivial⟩

/-- What a call does to the other list. -/
theorem RttCall.addTo_cases (call : RttCall) (rtt : TcpRtt) :
    (FindsNothing call.ackNum (rtt.get (!call.direction)) ∧
        (call.addTo rtt).1.get (!call.direction) = rtt.get (!call.direction) ∧
        (call.addTo rtt).2.1 = 0) ∨
      call.ackNum ≠ 0 ∧ ∃ front p chain back,
        rtt.get (!call.direction) = front ++ p :: chain ++ back ∧
        Chained call.ackNum (p :: chain) ∧
        Breaks (chainEnd call.ackNum (p :: chain)) back ∧
        (call.addTo rtt).1.get (!call.direction) = front ++ back ∧
        (call.addTo rtt).2.1 = UInt32.ofNat (p :: chain).length ∧
        (call.addTo rtt).2.2 = UInt64.ofInt (uSecondDiff call.timestamp p.timestamp) := by
  by_cases hzero : call.ackNum = 0
  · have hnothing : FindsNothing call.ackNum (rtt.get (!call.direction)) := Or.inl hzero
    exact Or.inl ⟨hnothing, call.addTo_of_findsNothing rtt hnothing⟩
  · rcases exists_around call.ackNum (rtt.get (!call.direction)) with habsent |
      ⟨front, p, chain, back, hlist, habsent, hchained, hbroken⟩
    · have hnothing : FindsNothing call.ackNum (rtt.get (!call.direction)) := Or.inr habsent
      exact Or.inl ⟨hnothing, call.addTo_of_findsNothing rtt hnothing⟩
    · exact Or.inr ⟨hzero, front, p, chain, back, hlist, hchained, hbroken,
        call.addTo_of_found rtt hzero hlist habsent hchained hbroken⟩

/-! ## Runs -/

/-- What happens to the number of a packet. -/
inductive RttEvent where
  | added (direction : Bool) (number : UInt32) (time : Timeval)
  | removed (direction : Bool) (number : UInt32)
deriving DecidableEq, Repr

/-- The lists and what happened to them, the oldest event first. -/
structure RttHistory where
  rtt : TcpRtt
  log : List RttEvent
deriving DecidableEq, Repr

/-- The numbers that are no longer in a list. -/
def goneNumbers (before after : List PktNode) : List UInt32 :=
  (before.map PktNode.expectedAckNumber).filter (· ∉ after.map PktNode.expectedAckNumber)

/-- The events of a call. -/
def RttCall.events (call : RttCall) (rtt : TcpRtt) : List RttEvent :=
  .added call.direction call.node.expectedAckNumber call.timestamp ::
    (goneNumbers (rtt.get (!call.direction)) ((call.addTo rtt).1.get (!call.direction))).map
      (.removed (!call.direction))

/-- The calls on a fresh `tcp_rtt`. -/
def rttCalls : Machine RttHistory RttCall where
  init history := history = ⟨⟨[], []⟩, []⟩
  step history call := some ⟨(call.addTo history.rtt).1, history.log ++ call.events history.rtt⟩

/-- Both lists are in order. -/
def TcpRtt.Ordered (rtt : TcpRtt) : Prop :=
  ∀ direction, Descending PktNode.number (rtt.get direction)

theorem ordered_empty : TcpRtt.Ordered ⟨[], []⟩ := by
  intro direction
  cases direction <;> exact descending_nil

/-- A property of both lists is one of the own and one of the other list of a call. -/
theorem forall_direction (property : Bool → Prop) (direction : Bool) (own : property direction)
    (other : property !direction) (any : Bool) : property any := by
  cases direction <;> cases any <;> first | exact own | exact other

theorem RttCall.addTo_ordered {rtt : TcpRtt} (call : RttCall) (ordered : rtt.Ordered) :
    (call.addTo rtt).1.Ordered := by
  apply forall_direction (fun any => Descending PktNode.number ((call.addTo rtt).1.get any))
    call.direction
  · rw [call.addTo_own rtt]
    exact addPktNode_descending (ordered call.direction) call.node
  · rcases call.addTo_cases rtt with
      ⟨-, hsame, -⟩ | ⟨-, front, p, chain, back, hlist, -, -, hcut, -⟩
    · rw [hsame]
      exact ordered _
    · have hsorted := ordered (!call.direction)
      rw [hlist] at hsorted
      rw [hcut]
      exact hsorted.cut

theorem rttCalls_ordered {history : RttHistory} (reached : rttCalls.Reachable history) :
    history.rtt.Ordered := by
  apply reached.invariant fun history => history.rtt.Ordered
  · rintro state rfl
    exact ordered_empty
  · intro state call target hordered henabled
    rw [← Option.some.inj henabled]
    exact call.addTo_ordered hordered

/-- Both lists are in order and without duplicates after every call.  The list of the
own direction got one more packet or one newer time, unless the packet is not later
than the one with its number.  The other list lost one stretch, whose length is
returned unless all the numbers were in it. -/
theorem rttCalls_representation {history : RttHistory} (reached : rttCalls.Reachable history)
    (call : RttCall) :
    let before := history.rtt
    let after := (call.addTo before).1
    let counter := (call.addTo before).2.1
    (∀ direction, Descending PktNode.number (after.get direction) ∧
        ((after.get direction).map PktNode.number).Nodup) ∧
      (Inserted call.node (before.get call.direction) (after.get call.direction) ∨
        Refreshed call.node (before.get call.direction) (after.get call.direction) ∨
        (NotNewer call.node (before.get call.direction) ∧
          after.get call.direction = before.get call.direction)) ∧
      ∃ front run back, before.get (!call.direction) = front ++ run ++ back ∧
        after.get (!call.direction) = front ++ back ∧
        (counter.toNat = run.length ∨ run.length = 2 ^ 32) ∧
        (FindsNothing call.ackNum (before.get (!call.direction)) → run = [] ∧ counter = 0) := by
  intro before after counter
  have hordered := rttCalls_ordered reached
  have hafter := call.addTo_ordered hordered
  refine ⟨fun direction => ⟨hafter direction, (hafter direction).nodup⟩, ?_, ?_⟩
  · rw [call.addTo_own before]
    exact addPktNode_change (hordered call.direction) call.node
  · rcases call.addTo_cases before with ⟨-, hsame, hcounter⟩ |
      ⟨hack, front, p, chain, back, hlist, hchained, -, hcut, hcounter, -⟩
    · refine ⟨before.get (!call.direction), [], [], by simp, by simp [after, hsame], ?_, ?_⟩
      · exact Or.inl (by simp [counter, hcounter])
      · intro _
        exact ⟨rfl, hcounter⟩
    · refine ⟨front, p :: chain, back, hlist, hcut, ?_, ?_⟩
      · have hrun : Descending PktNode.number (p :: chain) := by
          apply (hordered (!call.direction)).sublist
          rw [hlist, List.append_assoc]
          exact (List.sublist_append_left _ _).trans (List.sublist_append_right _ _)
        have hle : (p :: chain).length ≤ 2 ^ 32 := hrun.length_le fun q _ => q.number_lt
        have hnat : counter.toNat = (p :: chain).length % 2 ^ 32 := by
          rw [show counter = UInt32.ofNat (p :: chain).length from hcounter, UInt32.toNat_ofNat']
        omega
      · rintro (hzero | habsent)
        · exact absurd hzero hack
        · refine absurd hchained.1 (habsent p ?_)
          rw [hlist]
          simp

/-- A packet of 100 bytes, and the number that removes it. -/
def sent : RttCall := ⟨false, 1, 1000, 100, ⟨10, 0⟩⟩

def answered : RttCall := ⟨true, 1101, 500, 0, ⟨11, 0⟩⟩

theorem rttCalls_representation_answered :
    let before := rttCalls.after [sent] ⟨⟨[], []⟩, []⟩
    rttCalls.Reachable before ∧ (answered.addTo before.rtt).2.1 = 1 ∧
      ∃ front run back, before.rtt.get false = front ++ run ++ back ∧
        (answered.addTo before.rtt).1.get false = front ++ back ∧
        ((1 : UInt32).toNat = run.length ∨ run.length = 2 ^ 32) ∧
        (FindsNothing 1101 (before.rtt.get false) → run = [] ∧ (1 : UInt32) = 0) := by
  have hreached : rttCalls.Reachable (rttCalls.after [sent] ⟨⟨[], []⟩, []⟩) :=
    Machine.reachable_after rfl rfl
  exact ⟨hreached, by decide +kernel, (rttCalls_representation hreached answered).2.2⟩

/-- A packet with a number, and an answer to nothing. -/
def fill (n : Nat) : RttCall := ⟨false, 1, UInt32.ofNat n - 1, 0, .zero⟩

/-- The first numbers arrive one after the other. -/
def filled : Nat → RttHistory
  | 0 => ⟨⟨[], []⟩, []⟩
  | n + 1 => ⟨((fill n).addTo (filled n).rtt).1, (filled n).log ++ (fill n).events (filled n).rtt⟩

def fillNodes : Nat → List PktNode
  | 0 => []
  | n + 1 => (fill n).node :: fillNodes n

theorem reachable_filled (n : Nat) : rttCalls.Reachable (filled n) := by
  induction n with
  | zero => exact .start rfl
  | succ n ih => exact ih.follow (fill n) trivial rfl

theorem fill_number (n : Nat) : (fill n).node.expectedAckNumber = UInt32.ofNat n := by
  change UInt32.ofNat n - 1 + 0 + 1 = UInt32.ofNat n
  rw [UInt32.add_zero, UInt32.sub_add_cancel]

theorem length_fillNodes (n : Nat) : (fillNodes n).length = n := by
  induction n with
  | zero => rfl
  | succ n ih => rw [fillNodes, List.length_cons, ih]

theorem chained_fillNodes (n : Nat) : Chained (UInt32.ofNat n - 1) (fillNodes n) := by
  induction n with
  | zero => trivial
  | succ n ih =>
      refine ⟨?_, ih⟩
      rw [fill_number, UInt32.ofNat_add]
      exact (UInt32.add_sub_cancel ..).symm

/-- Each number is larger than those before it. -/
theorem addPktNode_fillNodes {n : Nat} (fits : n < 2 ^ 32) :
    addPktNode (fill n).node (fillNodes n) = fillNodes (n + 1) := by
  cases n with
  | zero => rfl
  | succ n =>
      apply addPktNode_cons_of_gt
      unfold PktNode.number
      rw [fill_number, fill_number, UInt32.toNat_ofNat', UInt32.toNat_ofNat']
      omega

theorem filled_rtt {n : Nat} (fits : n ≤ 2 ^ 32) : (filled n).rtt = ⟨fillNodes n, []⟩ := by
  induction n with
  | zero => rfl
  | succ n ih =>
      have hbefore := ih (by omega)
      rw [filled, hbefore, ← addPktNode_fillNodes (by omega)]
      rfl

/-- The packet arrives a second time with an earlier time. -/
def sentEarlier : RttCall := { sent with timestamp := ⟨9, 0⟩ }

/-- All the numbers are acknowledged at once. -/
def acknowledgeAll : RttCall := ⟨true, UInt32.ofNat (2 ^ 32) - 1, 1, 0, .zero⟩

/-- A stretch of all the numbers is removed, and no number of packets is returned. -/
theorem acknowledgeAll_addTo {n : Nat} (all : n = 2 ^ 32) :
    ¬ ∃ front run back, (filled n).rtt.get false = front ++ run ++ back ∧
      (acknowledgeAll.addTo (filled n).rtt).1.get false = front ++ back ∧
      (acknowledgeAll.addTo (filled n).rtt).2.1.toNat = run.length := by
  have hchained := chained_fillNodes n
  have hlength := length_fillNodes n
  rw [filled_rtt all.le]
  generalize fillNodes n = nodes at hchained hlength
  cases nodes with
  | nil =>
      rw [List.length_nil] at hlength
      omega
  | cons p chain =>
      rw [all] at hchained
      have hack : acknowledgeAll.ackNum ≠ 0 := by decide
      have hbreaks : Breaks (chainEnd acknowledgeAll.ackNum (p :: chain)) [] := by simp [Breaks]
      have haround : PerDirection.get ⟨p :: chain, []⟩ (!acknowledgeAll.direction) =
          [] ++ p :: chain ++ [] := (List.append_nil (p :: chain)).symm
      rcases acknowledgeAll.addTo_of_found _ hack haround (List.forall_mem_nil _) hchained
        hbreaks with ⟨hempty, hreturned, -⟩
      rintro ⟨front, run, back, hbefore, hafter, hcounter⟩
      rw [show PerDirection.get _ false = [] from hempty] at hafter
      rw [hreturned] at hcounter
      rcases List.append_eq_nil_iff.mp (Eq.symm hafter) with ⟨rfl, rfl⟩
      rw [List.nil_append, List.append_nil] at hbefore
      rw [UInt32.toNat_ofNat', ← show p :: chain = run from hbefore] at hcounter
      omega

/-- The list of the own direction may stay as it is, and the counter of a call that
removes all the numbers is 0. -/
theorem rttCalls_representation_fails :
    (rttCalls.Reachable (rttCalls.after [sent] ⟨⟨[], []⟩, []⟩) ∧
      let before := (rttCalls.after [sent] ⟨⟨[], []⟩, []⟩).rtt
      ¬ Inserted sentEarlier.node (before.get false) ((sentEarlier.addTo before).1.get false) ∧
        ¬ Refreshed sentEarlier.node (before.get false) ((sentEarlier.addTo before).1.get false)) ∧
    (rttCalls.Reachable (filled (2 ^ 32)) ∧
      ¬ ∃ front run back, (filled (2 ^ 32)).rtt.get false = front ++ run ++ back ∧
        (acknowledgeAll.addTo (filled (2 ^ 32)).rtt).1.get false = front ++ back ∧
        (acknowledgeAll.addTo (filled (2 ^ 32)).rtt).2.1.toNat = run.length) := by
  refine ⟨⟨Machine.reachable_after rfl rfl, ?_, ?_⟩, reachable_filled _, acknowledgeAll_addTo rfl⟩
  · rintro ⟨front, back, hbefore, hafter⟩
    have hlength : [sent.node].length = [sent.node].length + 1 := by
      calc [sent.node].length = (front ++ sentEarlier.node :: back).length := by rw [← hafter]; rfl
        _ = (front ++ back).length + 1 := by simp; omega
        _ = [sent.node].length + 1 := by rw [← hbefore]; rfl
    omega
  · rintro ⟨front, p, back, -, -, hafter⟩
    have hmem : ({ p with timestamp := ⟨9, 0⟩ } : PktNode) ∈ [sent.node] := by
      rw [show [sent.node] = front ++ { p with timestamp := ⟨9, 0⟩ } :: back from hafter]
      simp
    have htime : (⟨9, 0⟩ : Timeval) = ⟨10, 0⟩ :=
      congrArg PktNode.timestamp (List.mem_singleton.mp hmem)
    exact absurd htime (by decide)

end MmtProbe.Dpi
