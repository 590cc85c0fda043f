/-
# What the injectors of the protocols are given

`inject_proto_send_packet` skips the headers of a packet and passes the rest to the sockets:
the address of the packet plus an offset, and the size of the packet minus the offset, in 16
bits.  Neither is compared with the other.  The number of the copies that were sent is
returned, and 0 is replaced by a value that means that no protocol is available.

So the rest lies in the packet exactly when the headers do, which a snap length may cut.  The
size of the packet itself has 16 bits, and a packet whose copies were all refused is taken
for one without the protocols, and is sent as a whole.
-/

import MmtProbe.Security.ForwardAccounting

namespace MmtProbe.Security

/-- The place in `packet_data` and the length that the injector of a protocol was given. -/
def Effect.passed? : Effect → Option (Int × Nat)
  | .passed offset length => some (offset, length)
  | .copySent _ | .defaultAction | .securityReport => none

namespace ForwardPacketContext

/-- A target of a protocol applies to a packet that has the protocol. -/
def Applies (injector : Option UInt16) (protocol : Option Int) : Prop :=
  injector.isSome = true ∧ protocol.isSome = true

/-- All that `inject_proto_send_packet` passes on. -/
def passed (context : ForwardPacketContext) (ipacket : IPacket) (outcome : SendOutcome) :
    List (Int × Nat) :=
  (context.injectProtoSendPacket ipacket outcome).2.filterMap Effect.passed?

/-- What is sent of a packet is a part of it, and the whole packet is sent instead only when
it has none of the protocols. -/
structure SendsSlices (context : ForwardPacketContext) (ipacket : IPacket)
    (outcome : SendOutcome) : Prop where
  inside : ∀ pair ∈ context.passed ipacket outcome,
    0 ≤ pair.1 ∧ pair.1 + pair.2 ≤ context.packetSize.toNat
  whole : context.packetSize.toNat = ipacket.caplen.toNat
  noAvail : (context.injectProtoSendPacket ipacket outcome).1 = injectProtoNoAvail →
    ¬ Applies context.protoInjector.sctp ipacket.sctpData ∧
      ¬ Applies context.protoInjector.udp ipacket.udp

end ForwardPacketContext

open ForwardPacketContext

/-- The packet library reports places inside of what was captured. -/
def IPacket.Reported (ipacket : IPacket) : Prop :=
  ∀ offset, ipacket.sctpData = some offset ∨ ipacket.udp = some offset →
    0 ≤ offset ∧ offset ≤ ipacket.caplen.toNat

/-- What the code relies on: the packet is shorter than 65536 bytes, the headers of the
protocols that have a target were captured, and one of the targets accepts a copy. -/
structure Sendable (conf : ForwardPacketConf) (ipacket : IPacket) (outcome : SendOutcome) :
    Prop where
  short : ipacket.caplen.toNat < 2 ^ 16
  sctp : ∀ offset, ipacket.sctpData = some offset → (injectProtoAlloc conf).sctp.isSome →
    offset + 16 ≤ ipacket.caplen.toNat
  udp : ∀ offset, ipacket.udp = some offset → (injectProtoAlloc conf).udp.isSome →
    offset + 8 ≤ ipacket.caplen.toNat
  accepted : Applies (injectProtoAlloc conf).sctp ipacket.sctpData ∨
      Applies (injectProtoAlloc conf).udp ipacket.udp →
    ProtoAccepts (injectProtoAlloc conf).sctp (getSctpDataOffset ipacket) outcome.sctp ∨
      ProtoAccepts (injectProtoAlloc conf).udp (getUdpDataOffset ipacket) outcome.udp

namespace ForwardPacketContext

variable {context : ForwardPacketContext} {ipacket : IPacket} {outcome : SendOutcome}

/-! ## What is passed on and what is sent -/

/-- The loop over the copies sends what it was given, and nothing else. -/
theorem mem_sendCopies {answer : Nat → Int} {bytes : List UInt8} {rounds : Nat} {effect : Effect}
    (listed : effect ∈ (sendCopies answer bytes rounds).2) : effect = .copySent bytes := by
  induction rounds with
  | zero => cases listed
  | succ rounds ih =>
      simp only [sendCopies] at listed
      split_ifs at listed
      · rcases List.mem_append.mp listed with hbefore | hlast
        · exact ih hbefore
        · exact List.mem_singleton.mp hlast
      · exact ih listed

/-- The injector of a protocol is given one pair, when it is called at all. -/
theorem injectProto_passed (context : ForwardPacketContext) (injector : Option UInt16)
    (offset : Int) (answer : Nat → Int) :
    (context.injectProto injector offset answer).2.filterMap Effect.passed? =
      if injector.isSome = true ∧ 0 ≤ offset then [(offset, context.payloadLength offset)]
      else [] := by
  cases injector with
  | none => rfl
  | some nbCopies =>
      have hnone : ∀ effect ∈ (sendCopies answer
          (context.payload offset (context.payloadLength offset)) nbCopies.toNat).2,
          effect.passed? = none := by
        intro effect listed
        rw [mem_sendCopies listed]
        rfl
      simp only [injectProto, Option.isSome_some, true_and]
      split_ifs
      · exact congrArg (List.cons _) (List.filterMap_eq_nil_iff.mpr hnone)
      · rfl

/-- Every copy that leaves through a socket holds the bytes of one of the pairs. -/
theorem copySent_passed {bytes : List UInt8}
    (sent : .copySent bytes ∈ (context.injectProtoSendPacket ipacket outcome).2) :
    ∃ pair ∈ context.passed ipacket outcome, bytes = context.payload pair.1 pair.2 := by
  have hone : ∀ (injector : Option UInt16) (offset : Int) (answer : Nat → Int),
      .copySent bytes ∈ (context.injectProto injector offset answer).2 →
        ∃ pair ∈ (context.injectProto injector offset answer).2.filterMap Effect.passed?,
          bytes = context.payload pair.1 pair.2 := by
    intro injector offset answer listed
    rw [injectProto_passed]
    cases injector with
    | none => cases listed
    | some nbCopies =>
        simp only [injectProto] at listed
        split_ifs at listed with hoffset
        · rw [if_pos ⟨rfl, hoffset⟩]
          rcases List.mem_cons.mp listed with hpassed | hcopy
          · cases hpassed
          · cases mem_sendCopies hcopy
            exact ⟨_, List.mem_singleton_self _, rfl⟩
        · cases listed
  simp only [passed, injectProtoSendPacket, List.filterMap_append, List.mem_append]
  rcases List.mem_append.mp sent with hsctp | hudp
  · rcases hone _ _ _ hsctp with ⟨pair, hpair, hbytes⟩
    exact ⟨pair, .inl hpair, hbytes⟩
  · rcases hone _ _ _ hudp with ⟨pair, hpair, hbytes⟩
    exact ⟨pair, .inr hpair, hbytes⟩

/-- The length that is left wraps around behind the end of the packet. -/
theorem inside_iff (context : ForwardPacketContext) (injector : Option UInt16) (offset : Int)
    (answer : Nat → Int) :
    (∀ pair ∈ (context.injectProto injector offset answer).2.filterMap Effect.passed?,
        0 ≤ pair.1 ∧ pair.1 + pair.2 ≤ context.packetSize.toNat) ↔
      (injector.isSome = true → 0 ≤ offset → offset ≤ context.packetSize.toNat) := by
  have hsize := UInt16.toNat_lt context.packetSize
  rw [injectProto_passed, payloadLength]
  split_ifs with hcalled
  · simp only [List.mem_singleton, forall_eq, hcalled.1, hcalled.2, true_and, forall_const]
    omega
  · simp only [List.not_mem_nil, IsEmpty.forall_iff, implies_true, true_iff]
    exact fun target offset => absurd ⟨target, offset⟩ hcalled

/-- Nothing is returned as available exactly when no socket accepts a copy. -/
theorem injectProtoSendPacket_noAvail_iff :
    (context.injectProtoSendPacket ipacket outcome).1 = injectProtoNoAvail ↔
      ¬ (ProtoAccepts context.protoInjector.sctp (getSctpDataOffset ipacket) outcome.sctp ∨
        ProtoAccepts context.protoInjector.udp (getUdpDataOffset ipacket) outcome.udp) := by
  have hsends := (context.injectProto_sends context.protoInjector.sctp
    (getSctpDataOffset ipacket) outcome.sctp).append
    (context.injectProto_sends context.protoInjector.udp (getUdpDataOffset ipacket) outcome.udp)
  rw [← hsends.pos_iff, injectProtoSendPacket]
  simp only [hsends.ret_eq, injectProtoNoAvail]
  split_ifs with hnone
  · simp only [true_iff]
    omega
  · simp only [false_iff, not_not]
    omega

/-! ## The state in which a packet is sent -/

theorem engineCall_packetSize (context : ForwardPacketContext) (call : EngineCall) :
    (context.engineCall call).1.packetSize = context.packetSize := by
  cases call with
  | verdict typeId =>
      rw [engineCall]
      split_ifs <;> rfl
  | forwardPacket outcome =>
      simp only [engineCall, sendPacketToNic]
      split_ifs <;> rfl
  | doNotForwardPacket => rfl
  | setAttributeNumberValue updated => rfl

/-- The size of the packet stays as it is while the rules are processed. -/
theorem mmtSecProcess_packetSize (context : ForwardPacketContext) (calls : List EngineCall) :
    (context.mmtSecProcess calls).1.packetSize = context.packetSize := by
  induction calls generalizing context with
  | nil => rfl
  | cons call calls ih => exact (ih _).trans (engineCall_packetSize context call)

theorem getSctpDataOffset_eq (ipacket : IPacket) :
    getSctpDataOffset ipacket = ipacket.sctpData.elim (-1) (· + 16) := by
  rw [getSctpDataOffset]
  cases ipacket.sctpData <;> rfl

theorem getUdpDataOffset_eq (ipacket : IPacket) :
    getUdpDataOffset ipacket = ipacket.udp.elim (-1) (· + 8) := by
  rw [getUdpDataOffset]
  cases ipacket.udp <;> rfl

/-- The rest of a packet begins inside of it exactly when the header was captured. -/
theorem rest_inside_iff {data : Option Int} {target : Prop} {size header : Int}
    (reported : ∀ offset, data = some offset → 0 ≤ offset + header) :
    (target → 0 ≤ data.elim (-1) (· + header) → data.elim (-1) (· + header) ≤ size) ↔
      ∀ offset, data = some offset → target → offset + header ≤ size := by
  cases data with
  | none => simp
  | some offset => simp [reported offset rfl]

/-- What is sent is a part of the packet exactly when its headers are in it, and a target
accepts a copy. -/
theorem sendsSlices_iff_of_size {conf : ForwardPacketConf}
    (targets : context.protoInjector = injectProtoAlloc conf)
    (size : context.packetSize = ipacket.caplen.toUInt16) (reported : ipacket.Reported) :
    context.SendsSlices ipacket outcome ↔ Sendable conf ipacket outcome := by
  have hsize : context.packetSize.toNat = ipacket.caplen.toNat % 2 ^ 16 := by
    rw [size, UInt32.toNat_toUInt16]
  have hinside : (∀ pair ∈ context.passed ipacket outcome,
      0 ≤ pair.1 ∧ pair.1 + pair.2 ≤ context.packetSize.toNat) ↔
      (∀ offset, ipacket.sctpData = some offset → (injectProtoAlloc conf).sctp.isSome = true →
        offset + 16 ≤ context.packetSize.toNat) ∧
      ∀ offset, ipacket.udp = some offset → (injectProtoAlloc conf).udp.isSome = true →
        offset + 8 ≤ context.packetSize.toNat := by
    simp only [passed, injectProtoSendPacket, List.filterMap_append]
    rw [List.forall_mem_append, inside_iff, inside_iff, targets, getSctpDataOffset_eq,
      getUdpDataOffset_eq]
    apply and_congr
    · apply rest_inside_iff
      intro offset hdata
      have hoffset := (reported offset (.inl hdata)).1
      omega
    · apply rest_inside_iff
      intro offset hdata
      have hoffset := (reported offset (.inr hdata)).1
      omega
  have hnone := @injectProtoSendPacket_noAvail_iff context ipacket outcome
  rw [targets] at hnone
  constructor
  · intro slices
    have hshort : ipacket.caplen.toNat < 2 ^ 16 := by
      rw [← slices.whole]
      exact UInt16.toNat_lt _
    rcases hinside.mp slices.inside with ⟨hsctp, hudp⟩
    rw [slices.whole] at hsctp hudp
    refine ⟨hshort, hsctp, hudp, ?_⟩
    intro happlies
    by_contra hrefused
    have hneither := slices.noAvail (hnone.mpr hrefused)
    rw [targets] at hneither
    exact happlies.elim hneither.1 hneither.2
  · intro sendable
    have hwhole : context.packetSize.toNat = ipacket.caplen.toNat := by
      rw [hsize]
      exact Nat.mod_eq_of_lt sendable.short
    refine ⟨hinside.mpr ?_, hwhole, ?_⟩
    · rw [hwhole]
      exact ⟨sendable.sctp, sendable.udp⟩
    · intro hret
      rw [targets]
      have hrefused := hnone.mp hret
      exact not_or.mp fun happlies => hrefused (sendable.accepted happlies)

/-- In a capture, whatever the rules did before, a packet is forwarded as a part of it
exactly when its headers are in it, and a target accepts a copy. -/
theorem sendsSlices_iff {build : ForwardBuild} {conf : ForwardPacketConf}
    {threadCount securityThreads : Nat} {buffer : List UInt8} {now : Int}
    (allocated : forwardPacketAlloc build conf threadCount securityThreads buffer now =
      some context)
    (ignoreRemainFlow : Bool) (packets : List HandledPacket) (reported : ipacket.Reported)
    (calls : List EngineCall) (outcome : SendOutcome) :
    (((context.handleAll ignoreRemainFlow packets).beforeRuleProcessing ipacket).mmtSecProcess
        calls).1.SendsSlices ipacket outcome ↔ Sendable conf ipacket outcome := by
  have hserves := beforeRuleProcessing_serves
    (handleAll_serves (forwardPacketAlloc_serves allocated) ignoreRemainFlow packets) ipacket
  have hfollows := mmtSecProcess_follows hserves rfl calls
  exact sendsSlices_iff_of_size hfollows.serves.proto_eq (mmtSecProcess_packetSize _ calls) reported

/-- Packets of UDP go to a target, in one copy. -/
def udpTargetConf : ForwardPacketConf := ⟨true, 1, .forward, [.udp]⟩

/-- A packet of 46 bytes whose header of UDP begins at a place. -/
def udpPacket (udp : Int) : IPacket := ⟨46, List.replicate 46 7, none, some udp⟩

/-- What the target answers to each copy. -/
def targetAnswers (udp : Int) : SendOutcome := ⟨fun _ => 0, fun _ => udp, fun _ => 46, [], 7⟩

/-- The header ends four bytes before the packet does. -/
theorem sendsSlices_iff_34 :
    ∃ context, forwardPacketAlloc .pcap udpTargetConf 0 0 [] 0 = some context ∧
      ((((context.handleAll false []).beforeRuleProcessing (udpPacket 34)).mmtSecProcess
        []).1.SendsSlices (udpPacket 34) (targetAnswers 4)) := by
  have hallocated : forwardPacketAlloc .pcap udpTargetConf 0 0 [] 0 = some _ := rfl
  refine ⟨_, hallocated, (sendsSlices_iff hallocated false [] ?_ [] (targetAnswers 4)).mpr ?_⟩
  · rintro offset (hsctp | hudp)
    · cases hsctp
    · cases hudp
      decide
  · refine ⟨by decide, nofun, ?_, ?_⟩
    · intro offset hudp htarget
      cases hudp
      decide
    · exact fun _ => .inr ⟨1, rfl, by decide, 0, by decide, by decide⟩

/-- A header that was cut, and a target that refuses the copy. -/
theorem not_sendsSlices :
    ∃ context, forwardPacketAlloc .pcap udpTargetConf 0 0 [] 0 = some context ∧
      (udpPacket 42).Reported ∧
      ¬ ((((context.handleAll false []).beforeRuleProcessing (udpPacket 42)).mmtSecProcess
        []).1.SendsSlices (udpPacket 42) (targetAnswers 4)) ∧
      ¬ ((((context.handleAll false []).beforeRuleProcessing (udpPacket 34)).mmtSecProcess
        []).1.SendsSlices (udpPacket 34) (targetAnswers (-1))) := by
  refine ⟨_, rfl, ?_, ?_, ?_⟩
  · rintro offset (hsctp | hudp)
    · cases hsctp
    · cases hudp
      decide
  · intro slices
    have hlast := slices.inside (50, 65532) (List.mem_singleton_self _)
    exact absurd hlast.2 (by decide)
  · intro slices
    exact (slices.noAvail rfl).2 ⟨rfl, rfl⟩

end ForwardPacketContext

end MmtProbe.Security
