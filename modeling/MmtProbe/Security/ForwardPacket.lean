/-
# Packets that rules forward or drop

With packet forwarding, the handler of the security module opens a decision for each
packet, hands what it extracted to the rule engine and closes the decision.  While the
engine works on the packet it reports the verdicts of its rules, and the rules of type
FORWARD send the packet, drop it or rewrite its bytes by calling back.  The default
action is for the packets on which no such rule gave a verdict.

The engine and the network are outside: the calls that the engine makes for a packet,
and what the network answers to each attempt to send, are inputs.
-/

import Mathlib.Algebra.Order.Ring.Int

namespace MmtProbe.Security

/-! ## The configuration -/

/-- `forward_action_t` -/
inductive ForwardAction where
  | forward
  | drop
deriving DecidableEq, Repr

/-- The protocols of `forward_packet_target_conf_t`. -/
inductive TargetProtocol where
  | sctp
  | udp
deriving DecidableEq, Repr

/-- The part of `forward_packet_conf_t` that decides and counts. -/
structure ForwardPacketConf where
  isEnable : Bool
  nbCopies : UInt32
  defaultAction : ForwardAction
  /-- The protocols of the targets, in the order of the file. -/
  targets : List TargetProtocol
deriving DecidableEq, Repr

/-- The three ways to compile the module: with libpcap, with libpcap in a probe that
captures with DPDK, and with DPDK. -/
inductive ForwardBuild where
  | pcap
  | pcapCaptureDpdk
  | dpdk
deriving DecidableEq, Repr

/-- `NEED_DPDK` -/
def ForwardBuild.needDpdk : ForwardBuild → Bool
  | .pcap => false
  | .pcapCaptureDpdk | .dpdk => true

/-! ## The context -/

/-- What the handler reads of a packet.  The offsets are those of the last header of
each protocol in the packet, when the packet has one. -/
structure IPacket where
  caplen : UInt32
  data : List UInt8
  sctpData : Option Int
  udp : Option Int
deriving DecidableEq, Repr

/-- `inject_packet_context_t`, which keeps its own number of copies: 16 bits with
libpcap, the whole number with DPDK. -/
inductive NicInjector where
  | pcap (nbCopies : UInt16)
  | dpdk (pktDupTimes : UInt32)
deriving DecidableEq, Repr

/-- `inject_proto_context_t`: for each protocol the number of copies of its injector,
when there is a target. -/
structure ProtoInjector where
  sctp : Option UInt16
  udp : Option UInt16
deriving DecidableEq, Repr

/-- The statistics of the last second. -/
structure ForwardStat where
  nbPackets : UInt32
  nbBytes : UInt32
  lastTime : Int
deriving DecidableEq, Repr

/-- `forward_packet_context_t` -/
structure ForwardPacketContext where
  config : ForwardPacketConf
  build : ForwardBuild
  nbForwardedPackets : UInt64
  nbDroppedPackets : UInt64
  packetData : List UInt8
  packetSize : UInt16
  hasASatisfiedRule : Bool
  /-- The current packet, from the first packet on. -/
  ipacket : Option IPacket
  injector : NicInjector
  protoInjector : ProtoInjector
  stat : ForwardStat
deriving DecidableEq, Repr

/-- `inject_proto_alloc`: the last target of a protocol has its injector. -/
def injectProtoAlloc (conf : ForwardPacketConf) : ProtoInjector :=
  conf.targets.foldl (fun context target =>
    match target with
    | .sctp => { context with sctp := some conf.nbCopies.toUInt16 }
    | .udp => { context with udp := some conf.nbCopies.toUInt16 }) ⟨none, none⟩

/-- `inject_packet_alloc`, in the version that was compiled in. -/
def injectPacketAlloc (build : ForwardBuild) (conf : ForwardPacketConf) : NicInjector :=
  match build with
  | .pcap | .pcapCaptureDpdk => .pcap conf.nbCopies.toUInt16
  | .dpdk => .dpdk conf.nbCopies

/-- `forward_packet_alloc` at the time `now`.  There is no context without forwarding,
and the probe aborts when the packets are not handled by the main thread. -/
def forwardPacketAlloc (build : ForwardBuild) (conf : ForwardPacketConf)
    (threadCount securityThreads : Nat) (buffer : List UInt8) (now : Int) :
    Option ForwardPacketContext :=
  if conf.isEnable ∧ threadCount = 0 ∧ securityThreads = 0 then
    some {
      config := conf
      build
      nbForwardedPackets := 0
      nbDroppedPackets := 0
      packetData := buffer
      packetSize := 0
      hasASatisfiedRule := false
      ipacket := none
      injector := injectPacketAlloc build conf
      protoInjector := injectProtoAlloc conf
      stat := ⟨0, 0, now⟩ }
  else none

/-! ## Sending -/

/-- What can be observed of the handling of a packet. -/
inductive Effect where
  /-- The injector of a protocol was given `packet_data` from an offset on, with a length. -/
  | passed (offset : Int) (length : Nat)
  /-- One copy left through an injector, and was counted.  A socket that accepts a copy
  without bytes returns 0, and such a copy is not counted. -/
  | copySent (bytes : List UInt8)
  /-- The default action was applied. -/
  | defaultAction
  /-- A report about a rule that is not a FORWARD rule. -/
  | securityReport
deriving DecidableEq, Repr

/-- What the outside answers to one call of `_send_packet_to_nic`: the results of the
successive `sctp_sendmsg`, `send` and `pcap_inject`, how many packets the DPDK driver
takes at each `rte_eth_tx_burst` before it takes all it is given, and the time. -/
structure SendOutcome where
  sctp : Nat → Int
  udp : Nat → Int
  pcap : Nat → Int
  txBurst : List Nat
  now : Int

/-- The loop of the SCTP, UDP and libpcap injectors after a number of its rounds.  A copy is
taken for one that was sent when the answer is more than 0. -/
def sendCopies (answer : Nat → Int) (bytes : List UInt8) : Nat → UInt16 × List Effect
  | 0 => (0, [])
  | i + 1 =>
      let done := sendCopies answer bytes i
      if 0 < answer i then (done.1 + 1, done.2 ++ [.copySent bytes]) else done

/-- The inner loop of the DPDK injector, which repeats until a burst is taken: the
packets taken and the answers that remain. -/
def sendBurst : List Nat → Nat → Nat × List Nat
  | [], left => (left, [])
  | taken :: answers, left =>
      if left ≤ taken then (left, answers)
      else
        let more := sendBurst answers (left - taken)
        (taken + more.1, more.2)

/-- A burst is left only when all of it was taken. -/
@[simp]
theorem sendBurst_fst (answers : List Nat) (left : Nat) : (sendBurst answers left).1 = left := by
  induction answers generalizing left with
  | nil => rfl
  | cons taken answers ih =>
      simp only [sendBurst]
      split_ifs with hall
      · rfl
      · rw [ih]
        omega

/-- `MAX_PKT_BURST` -/
def maxPktBurst : Nat := 64

/-- The outer loop of the DPDK injector. -/
def sendBursts (bytes : List UInt8) (answers : List Nat) (nbPktToSend : Nat) :
    Nat × List Effect :=
  if hsend : 0 < nbPktToSend then
    let taken := sendBurst answers (min maxPktBurst nbPktToSend)
    let more := sendBursts bytes taken.2 (nbPktToSend - taken.1)
    (taken.1 + more.1, List.replicate taken.1 (.copySent bytes) ++ more.2)
  else (0, [])
termination_by nbPktToSend
decreasing_by
  rw [sendBurst_fst]
  unfold maxPktBurst
  omega

/-- The conversion of a number of copies to `int`. -/
def toInt (n : UInt32) : Int := if n.toNat < 2 ^ 31 then n.toNat else n.toNat - 2 ^ 32

namespace ForwardPacketContext

/-- `packet_size - offset`, in 16 bits. -/
def payloadLength (context : ForwardPacketContext) (offset : Int) : Nat :=
  ((context.packetSize.toNat - offset) % 65536).toNat

/-- The bytes that are at an offset. -/
def payload (context : ForwardPacketContext) (offset : Int) (length : Nat) : List UInt8 :=
  (context.packetData.drop offset.toNat).take length

/-- `inject_packet_send_packet` -/
def injectPacketSendPacket (context : ForwardPacketContext) (outcome : SendOutcome) :
    Int × List Effect :=
  let bytes := context.packetData.take context.packetSize.toNat
  match context.injector with
  | .pcap nbCopies =>
      let sent := sendCopies outcome.pcap bytes nbCopies.toNat
      (sent.1.toNat, sent.2)
  | .dpdk pktDupTimes =>
      let sent := sendBursts bytes outcome.txBurst (toInt pktDupTimes).toNat
      (sent.1, sent.2)

end ForwardPacketContext

/-- `_get_sctp_data_offset`, behind the 16 bytes of `struct sctp_datahdr`. -/
def getSctpDataOffset (ipacket : IPacket) : Int :=
  match ipacket.sctpData with
  | none => -1
  | some offset => offset + 16

/-- `_get_udp_data_offset`, behind the 8 bytes of the header. -/
def getUdpDataOffset (ipacket : IPacket) : Int :=
  match ipacket.udp with
  | none => -1
  | some offset => offset + 8

/-- `INJECT_PROTO_NO_AVAIL` -/
def injectProtoNoAvail : Int := -1

namespace ForwardPacketContext

/-- `inject_sctp_send_packet` or `inject_udp_send_packet` under its two guards: there is
a target of the protocol and the packet has the protocol. -/
def injectProto (context : ForwardPacketContext) (injector : Option UInt16) (offset : Int)
    (answer : Nat → Int) : Int × List Effect :=
  match injector with
  | none => (0, [])
  | some nbCopies =>
      if 0 ≤ offset then
        let length := context.payloadLength offset
        let sent := sendCopies answer (context.payload offset length) nbCopies.toNat
        (sent.1.toNat, .passed offset length :: sent.2)
      else (0, [])

/-- `inject_proto_send_packet` -/
def injectProtoSendPacket (context : ForwardPacketContext) (ipacket : IPacket)
    (outcome : SendOutcome) : Int × List Effect :=
  let sctp := context.injectProto context.protoInjector.sctp (getSctpDataOffset ipacket)
    outcome.sctp
  let udp := context.injectProto context.protoInjector.udp (getUdpDataOffset ipacket) outcome.udp
  let ret := sctp.1 + udp.1
  (if ret = 0 then injectProtoNoAvail else ret, sctp.2 ++ udp.2)

/-- `_update_stat` -/
def updateStat (context : ForwardPacketContext) (nbPackets : UInt32) (now : Int) :
    ForwardPacketContext :=
  { context with
    stat :=
      if now = context.stat.lastTime then
        { context.stat with
          nbPackets := context.stat.nbPackets + nbPackets
          nbBytes := context.stat.nbBytes + nbPackets * context.packetSize.toUInt32 }
      else ⟨0, 0, now⟩ }

/-- The injectors of `_send_packet_to_nic`: the one of the protocols, unless the probe
uses DPDK, then the one of the network interface when the first sent nothing. -/
def tryInjectors (context : ForwardPacketContext) (outcome : SendOutcome) : Int × List Effect :=
  let proto :=
    match context.build.needDpdk, context.ipacket with
    | false, some ipacket => context.injectProtoSendPacket ipacket outcome
    | _, _ => (injectProtoNoAvail, [])
  if proto.1 = injectProtoNoAvail then
    let nic := context.injectPacketSendPacket outcome
    (nic.1, proto.2 ++ nic.2)
  else proto

/-- `_send_packet_to_nic`: the context, the effects, and whether a copy was sent. -/
def sendPacketToNic (context : ForwardPacketContext) (outcome : SendOutcome) :
    ForwardPacketContext × List Effect × Bool :=
  let ret := context.tryInjectors outcome
  if 0 < ret.1 then
    let counted := { context with
      nbForwardedPackets := context.nbForwardedPackets + UInt64.ofNat ret.1.toNat }
    (counted.updateStat (UInt32.ofNat ret.1.toNat) outcome.now, ret.2, true)
  else (context, ret.2, false)

end ForwardPacketContext

/-! ## The calls of the engine -/

/-- `SECURITY_RULE_TYPE_FORWARD` -/
def securityRuleTypeForward : UInt8 := 4

/-- What the engine calls while it processes a packet. -/
inductive EngineCall where
  /-- `_print_security_verdict`, for a rule of this type. -/
  | verdict (typeId : UInt8)
  /-- `mmt_probe_forward_packet` -/
  | forwardPacket (outcome : SendOutcome)
  /-- `mmt_probe_do_not_forward_packet` -/
  | doNotForwardPacket
  /-- `mmt_probe_set_attribute_number_value`, with the buffer that `update_ngap_data` of
  the packet library leaves. -/
  | setAttributeNumberValue (updated : List UInt8)

namespace ForwardPacketContext

/-- `forward_packet_mark_being_satisfied` -/
def markBeingSatisfied (context : ForwardPacketContext) : ForwardPacketContext :=
  { context with hasASatisfiedRule := true }

/-- One call of the engine. -/
def engineCall (context : ForwardPacketContext) :
    EngineCall → ForwardPacketContext × List Effect
  | .verdict typeId =>
      if typeId = securityRuleTypeForward then (context.markBeingSatisfied, [])
      else (context, [.securityReport])
  | .forwardPacket outcome =>
      -- whether something was sent is not looked at
      let sent := context.sendPacketToNic outcome
      (sent.1, sent.2.1)
  | .doNotForwardPacket => ({ context with nbDroppedPackets := context.nbDroppedPackets + 1 }, [])
  | .setAttributeNumberValue updated => ({ context with packetData := updated }, [])

/-- `mmt_sec_process`: all the calls for one packet. -/
def mmtSecProcess (context : ForwardPacketContext) :
    List EngineCall → ForwardPacketContext × List Effect
  | [] => (context, [])
  | call :: calls =>
      let done := context.engineCall call
      let rest := done.1.mmtSecProcess calls
      (rest.1, done.2 ++ rest.2)

/-! ## The handler -/

/-- `forward_packet_on_receiving_packet_before_rule_processing` -/
def beforeRuleProcessing (context : ForwardPacketContext) (ipacket : IPacket) :
    ForwardPacketContext :=
  let packetSize := ipacket.caplen.toUInt16
  { context with
    ipacket := some ipacket
    packetSize
    hasASatisfiedRule := false
    packetData := ipacket.data.take packetSize.toNat ++ context.packetData.drop packetSize.toNat }

/-- `forward_packet_on_receiving_packet_after_rule_processing` -/
def afterRuleProcessing (context : ForwardPacketContext) (outcome : SendOutcome) :
    ForwardPacketContext × List Effect :=
  if context.hasASatisfiedRule then (context, [])
  else
    match context.config.defaultAction with
    | .drop =>
        ({ context with nbDroppedPackets := context.nbDroppedPackets + 1 }, [.defaultAction])
    | .forward =>
        let sent := context.sendPacketToNic outcome
        let dropped := if sent.2.2 then 0 else 1
        ({ sent.1 with nbDroppedPackets := sent.1.nbDroppedPackets + dropped },
          .defaultAction :: sent.2.1)

end ForwardPacketContext

/-- A packet with what the outside answers while it is handled. -/
structure HandledPacket where
  ipacket : IPacket
  /-- The answer of `mmt_sec_is_ignore_remain_flow` for the flow of the packet. -/
  isIgnoreRemainFlow : Bool
  /-- `elements_count` of the message that was made for the packet. -/
  elementsCount : Nat
  /-- The calls of the engine, if it is given the message. -/
  calls : List EngineCall
  /-- The answers to the default action, if it sends. -/
  default : SendOutcome

/-- The calls that are made: none after one of the early exits. -/
def HandledPacket.made (packet : HandledPacket) (ignoreRemainFlow : Bool) : List EngineCall :=
  if ignoreRemainFlow && packet.isIgnoreRemainFlow then []
  else if packet.elementsCount = 0 then []
  else packet.calls

/-- `_security_packet_handler` -/
def ForwardPacketContext.securityPacketHandler (context : ForwardPacketContext)
    (ignoreRemainFlow : Bool) (packet : HandledPacket) : ForwardPacketContext × List Effect :=
  let opened := context.beforeRuleProcessing packet.ipacket
  let processed := opened.mmtSecProcess (packet.made ignoreRemainFlow)
  let closed := processed.1.afterRuleProcessing packet.default
  (closed.1, processed.2 ++ closed.2)

/-- The context after the packets of a capture. -/
def ForwardPacketContext.handleAll (context : ForwardPacketContext) (ignoreRemainFlow : Bool)
    (packets : List HandledPacket) : ForwardPacketContext :=
  packets.foldl (fun context packet => (context.securityPacketHandler ignoreRemainFlow packet).1)
    context

end MmtProbe.Security
