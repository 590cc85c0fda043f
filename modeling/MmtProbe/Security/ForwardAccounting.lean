/-
# The account of forwarded and dropped packets

A packet is either sent, in some number of copies, or dropped once.  The count of the
forwarded packets follows the copies in every case, and the default action is applied
exactly to the packets without the verdict of a FORWARD rule.  The count of the dropped
packets does not follow: the rules count a drop at each of their requests, also when
there are several of them or when a copy was sent, and the sendings that fail are
counted only when they are the default action.
-/

import MmtProbe.Security.ForwardPacket

namespace MmtProbe.Security

/-! ## What the injectors accept -/

def Effect.isCopy : Effect → Bool
  | .copySent _ => true
  | .passed _ _ | .defaultAction | .securityReport => false

/-- The copies that were sent. -/
def copies (effects : List Effect) : Nat := effects.countP Effect.isCopy

@[simp]
theorem copies_nil : copies [] = 0 := rfl

@[simp]
theorem copies_append (effects more : List Effect) :
    copies (effects ++ more) = copies effects + copies more := List.countP_append

@[simp]
theorem copies_cons_defaultAction (effects : List Effect) :
    copies (.defaultAction :: effects) = copies effects := rfl

@[simp]
theorem copies_cons_passed (offset : Int) (length : Nat) (effects : List Effect) :
    copies (.passed offset length :: effects) = copies effects := rfl

/-- One of the attempts to send a copy succeeds. -/
def AcceptsCopy (answer : Nat → Int) (nbCopies : UInt16) : Prop :=
  ∃ i < nbCopies.toNat, 0 < answer i

/-- There is a target of the protocol, the packet has the protocol, and one copy is
accepted. -/
def ProtoAccepts (injector : Option UInt16) (offset : Int) (answer : Nat → Int) : Prop :=
  ∃ nbCopies, injector = some nbCopies ∧ 0 ≤ offset ∧ AcceptsCopy answer nbCopies

/-- The network interface accepts a copy.  A DPDK driver is asked until it does. -/
def NicAccepts (outcome : SendOutcome) : NicInjector → Prop
  | .pcap nbCopies => AcceptsCopy outcome.pcap nbCopies
  | .dpdk pktDupTimes => 0 < toInt pktDupTimes

/-- One of the injectors that are tried accepts a copy. -/
def Accepts (build : ForwardBuild) (conf : ForwardPacketConf) (ipacket : IPacket)
    (outcome : SendOutcome) : Prop :=
  (build.needDpdk = false ∧
    (ProtoAccepts (injectProtoAlloc conf).sctp (getSctpDataOffset ipacket) outcome.sctp ∨
      ProtoAccepts (injectProtoAlloc conf).udp (getUdpDataOffset ipacket) outcome.udp)) ∨
    NicAccepts outcome (injectPacketAlloc build conf)

/-- What an attempt to send reports and leaves: nothing but copies, as many as
reported, and one at least exactly when it is accepted. -/
structure Sends (ret : Int) (effects : List Effect) (accepts : Prop) : Prop where
  ret_eq : ret = copies effects
  no_default : Effect.defaultAction ∉ effects
  pos_iff : 0 < copies effects ↔ accepts

theorem Sends.nothing : Sends 0 [] False := ⟨rfl, List.not_mem_nil, by simp⟩

theorem Sends.append {ret more : Int} {effects rest : List Effect} {accepts also : Prop}
    (first : Sends ret effects accepts) (second : Sends more rest also) :
    Sends (ret + more) (effects ++ rest) (accepts ∨ also) where
  ret_eq := by
    rw [first.ret_eq, second.ret_eq, copies_append]
    omega
  no_default := by
    rw [List.mem_append]
    exact not_or.mpr ⟨first.no_default, second.no_default⟩
  pos_iff := by
    rw [copies_append, ← first.pos_iff, ← second.pos_iff]
    omega

/-- What an injector is given is no copy. -/
theorem Sends.passed {ret : Int} {effects : List Effect} {accepts : Prop}
    (sends : Sends ret effects accepts) (offset : Int) (length : Nat) :
    Sends ret (.passed offset length :: effects) accepts :=
  ⟨sends.ret_eq, by simp [sends.no_default], sends.pos_iff⟩

/-- The 16 bits of the counter hold the number of rounds. -/
theorem sendCopies_sends (answer : Nat → Int) (bytes : List UInt8) {rounds : Nat}
    (fits : rounds < 2 ^ 16) :
    Sends (sendCopies answer bytes rounds).1.toNat (sendCopies answer bytes rounds).2
      (∃ i < rounds, 0 < answer i) ∧ (sendCopies answer bytes rounds).1.toNat ≤ rounds := by
  induction rounds with
  | zero =>
      refine ⟨?_, le_rfl⟩
      have hnone : ¬ ∃ i < 0, 0 < answer i := by simp
      rw [eq_false hnone]
      exact Sends.nothing
  | succ rounds ih =>
      rcases ih (by omega) with ⟨sends, hle⟩
      have hsucc : (∃ i < rounds + 1, 0 < answer i) ↔
          (∃ i < rounds, 0 < answer i) ∨ 0 < answer rounds := by
        simp only [Nat.lt_succ_iff_lt_or_eq, or_and_right, exists_or, exists_eq_left]
      rw [hsucc]
      by_cases hanswer : 0 < answer rounds
      · have hsucc : ((sendCopies answer bytes rounds).1 + 1).toNat =
            (sendCopies answer bytes rounds).1.toNat + 1 := by
          rw [UInt16.toNat_add, Nat.mod_eq_of_lt]
          · rfl
          · change _ + 1 < 2 ^ 16
            omega
        simp only [sendCopies, if_pos hanswer, hsucc]
        refine ⟨?_, by omega⟩
        have hone : Sends 1 [.copySent bytes] (0 < answer rounds) :=
          ⟨rfl, by simp, by simp [hanswer, copies, Effect.isCopy]⟩
        exact_mod_cast sends.append hone
      · rw [sendCopies, if_neg hanswer, or_iff_left hanswer]
        exact ⟨sends, by omega⟩

theorem sendBursts_sends (bytes : List UInt8) (answers : List Nat) (nbPktToSend : Nat) :
    Sends (sendBursts bytes answers nbPktToSend).1 (sendBursts bytes answers nbPktToSend).2
      (0 < nbPktToSend) := by
  fun_induction sendBursts bytes answers nbPktToSend with
  | case1 answers nbPktToSend hsend taken more ih =>
      have hburst : Sends (taken.1 : Int) (List.replicate taken.1 (.copySent bytes))
          (0 < nbPktToSend) := by
        refine ⟨?_, ?_, ?_⟩
        · simp [copies, List.countP_replicate, Effect.isCopy]
        · simp [List.mem_replicate]
        · simp [copies, List.countP_replicate, Effect.isCopy, taken, maxPktBurst]
      have hboth := hburst.append ih
      have hsame : (0 < nbPktToSend ∨ 0 < nbPktToSend - taken.1) ↔ 0 < nbPktToSend := by omega
      rw [hsame] at hboth
      exact_mod_cast hboth
  | case2 answers nbPktToSend hsend =>
      rw [eq_false hsend]
      exact Sends.nothing

namespace ForwardPacketContext

variable {build : ForwardBuild} {conf : ForwardPacketConf} {context : ForwardPacketContext}

theorem injectProto_sends (context : ForwardPacketContext) (injector : Option UInt16)
    (offset : Int) (answer : Nat → Int) :
    Sends (context.injectProto injector offset answer).1
      (context.injectProto injector offset answer).2 (ProtoAccepts injector offset answer) := by
  unfold injectProto ProtoAccepts AcceptsCopy
  cases injector with
  | none => simpa using Sends.nothing
  | some nbCopies =>
      by_cases hoffset : 0 ≤ offset
      · simp only [Option.some.injEq, exists_eq_left', hoffset, true_and]
        exact (sendCopies_sends _ _ nbCopies.toNat_lt).1.passed _ _
      · simpa [hoffset] using Sends.nothing

theorem injectPacketSendPacket_sends (context : ForwardPacketContext) (outcome : SendOutcome) :
    Sends (context.injectPacketSendPacket outcome).1 (context.injectPacketSendPacket outcome).2
      (NicAccepts outcome context.injector) := by
  unfold injectPacketSendPacket NicAccepts AcceptsCopy
  cases context.injector with
  | pcap nbCopies => exact (sendCopies_sends _ _ nbCopies.toNat_lt).1
  | dpdk pktDupTimes =>
      have hsends := sendBursts_sends (context.packetData.take context.packetSize.toNat)
        outcome.txBurst (toInt pktDupTimes).toNat
      rwa [Int.lt_toNat, Nat.cast_zero] at hsends

/-- What does not change while packets are handled. -/
structure Serves (context : ForwardPacketContext) (build : ForwardBuild)
    (conf : ForwardPacketConf) : Prop where
  config_eq : context.config = conf
  build_eq : context.build = build
  injector_eq : context.injector = injectPacketAlloc build conf
  proto_eq : context.protoInjector = injectProtoAlloc conf

/-- The injector of the network interface is tried only when the others sent nothing. -/
theorem tryInjectors_sends {ipacket : IPacket} (serves : context.Serves build conf)
    (current : context.ipacket = some ipacket) (outcome : SendOutcome) :
    (context.tryInjectors outcome).1.toNat = copies (context.tryInjectors outcome).2 ∧
      Effect.defaultAction ∉ (context.tryInjectors outcome).2 ∧
      (0 < (context.tryInjectors outcome).1 ↔ Accepts build conf ipacket outcome) := by
  have hnic := context.injectPacketSendPacket_sends outcome
  rw [serves.injector_eq] at hnic
  unfold tryInjectors Accepts
  rw [serves.build_eq, current]
  cases build.needDpdk with
  | true =>
      simp only [if_true, List.nil_append, Bool.true_eq_false, false_and, false_or]
      rw [hnic.ret_eq, ← hnic.pos_iff]
      exact ⟨Int.toNat_natCast _, hnic.no_default, Int.natCast_pos⟩
  | false =>
      have hproto := (context.injectProto_sends context.protoInjector.sctp
        (getSctpDataOffset ipacket) outcome.sctp).append
        (context.injectProto_sends context.protoInjector.udp (getUdpDataOffset ipacket)
          outcome.udp)
      rw [serves.proto_eq] at hproto
      simp only [injectProtoSendPacket, serves.proto_eq, true_and, ← hproto.pos_iff,
        ← hnic.pos_iff]
      rw [hproto.ret_eq]
      split_ifs with hzero hfirst hsecond
      · -- nothing was sent to the targets
        have hnone : copies _ = 0 := Int.natCast_eq_zero.mp hzero
        rw [hnic.ret_eq, copies_append, hnone, zero_add, List.mem_append]
        refine ⟨Int.toNat_natCast _, not_or.mpr ⟨hproto.no_default, hnic.no_default⟩, ?_⟩
        rw [Int.natCast_pos]
        simp
      · exact absurd rfl hfirst
      · exact absurd hsecond (by unfold injectProtoNoAvail; omega)
      · refine ⟨Int.toNat_natCast _, hproto.no_default, ?_⟩
        omega

/-- One send, as the caller sees it: the total follows the copies, and the answer says
whether there is one. -/
theorem sendPacketToNic_spec {ipacket : IPacket} (serves : context.Serves build conf)
    (current : context.ipacket = some ipacket) (outcome : SendOutcome) :
    (context.sendPacketToNic outcome).1 =
        { context with
          nbForwardedPackets := context.nbForwardedPackets +
            UInt64.ofNat (copies (context.sendPacketToNic outcome).2.1)
          stat := (context.sendPacketToNic outcome).1.stat } ∧
      Effect.defaultAction ∉ (context.sendPacketToNic outcome).2.1 ∧
      ((context.sendPacketToNic outcome).2.2 = true ↔ Accepts build conf ipacket outcome) ∧
      (0 < copies (context.sendPacketToNic outcome).2.1 ↔
        Accepts build conf ipacket outcome) := by
  rcases tryInjectors_sends serves current outcome with ⟨hret, hdefault, hpos⟩
  unfold sendPacketToNic
  by_cases hsent : 0 < (context.tryInjectors outcome).1
  · simp only [if_pos hsent]
    refine ⟨?_, hdefault, by simpa using hpos.mp hsent, ?_⟩
    · simp only [updateStat, hret]
    · rw [← hret, ← hpos]
      omega
  · simp only [if_neg hsent]
    have hnone : copies (context.tryInjectors outcome).2 = 0 := by omega
    refine ⟨?_, hdefault, by simpa using hpos.not.mp hsent, ?_⟩
    · rw [hnone]
      exact congrArg (fun total => { context with nbForwardedPackets := total })
        (UInt64.add_zero _).symm
    · simpa [hnone] using hpos.not.mp hsent

end ForwardPacketContext

/-! ## The calls of the engine -/

/-- The verdict of a FORWARD rule. -/
def EngineCall.isForwardVerdict : EngineCall → Bool
  | .verdict typeId => typeId == securityRuleTypeForward
  | _ => false

/-- A request to drop. -/
def EngineCall.isDrop : EngineCall → Bool
  | .doNotForwardPacket => true
  | _ => false

/-- A request to send that an injector accepts. -/
def EngineCall.IsSent (build : ForwardBuild) (conf : ForwardPacketConf) (ipacket : IPacket) :
    EngineCall → Prop
  | .forwardPacket outcome => Accepts build conf ipacket outcome
  | _ => False

namespace ForwardPacketContext

variable {build : ForwardBuild} {conf : ForwardPacketConf} {ipacket : IPacket}

/-- What some calls do to the context, in the terms of the calls. -/
structure Follows (build : ForwardBuild) (conf : ForwardPacketConf) (ipacket : IPacket)
    (calls : List EngineCall) (before after : ForwardPacketContext) (effects : List Effect) :
    Prop where
  serves : after.Serves build conf
  current : after.ipacket = some ipacket
  satisfied : after.hasASatisfiedRule =
    (before.hasASatisfiedRule || calls.any EngineCall.isForwardVerdict)
  forwarded : after.nbForwardedPackets =
    before.nbForwardedPackets + UInt64.ofNat (copies effects)
  dropped : after.nbDroppedPackets =
    before.nbDroppedPackets + UInt64.ofNat (calls.countP EngineCall.isDrop)
  no_default : Effect.defaultAction ∉ effects
  sent_iff : 0 < copies effects ↔ ∃ call ∈ calls, call.IsSent build conf ipacket

theorem engineCall_follows {context : ForwardPacketContext} (serves : context.Serves build conf)
    (current : context.ipacket = some ipacket) (call : EngineCall) :
    Follows build conf ipacket [call] context (context.engineCall call).1
      (context.engineCall call).2 := by
  rcases serves with ⟨hconfig, hbuild, hinjector, hproto⟩
  cases call with
  | verdict typeId =>
      by_cases hforward : typeId = securityRuleTypeForward
      · simp only [engineCall, if_pos hforward]
        exact {
          serves := ⟨hconfig, hbuild, hinjector, hproto⟩
          current := current
          satisfied := by simp [markBeingSatisfied, EngineCall.isForwardVerdict, hforward]
          forwarded := (UInt64.add_zero _).symm
          dropped := (UInt64.add_zero _).symm
          no_default := List.not_mem_nil
          sent_iff := by simp [EngineCall.IsSent] }
      · simp only [engineCall, if_neg hforward]
        exact {
          serves := ⟨hconfig, hbuild, hinjector, hproto⟩
          current := current
          satisfied := by simp [EngineCall.isForwardVerdict, hforward]
          forwarded := (UInt64.add_zero _).symm
          dropped := (UInt64.add_zero _).symm
          no_default := by simp
          sent_iff := by simp [EngineCall.IsSent, copies, Effect.isCopy] }
  | forwardPacket outcome =>
      have hserves : context.Serves build conf := ⟨hconfig, hbuild, hinjector, hproto⟩
      rcases sendPacketToNic_spec hserves current outcome with ⟨hcontext, hdefault, -, hcopies⟩
      unfold engineCall
      constructor
      · rw [hcontext]
        exact ⟨hconfig, hbuild, hinjector, hproto⟩
      · rw [hcontext]
        exact current
      · rw [hcontext]
        simp [EngineCall.isForwardVerdict]
      · rw [hcontext]
      · rw [hcontext]
        exact (UInt64.add_zero _).symm
      · exact hdefault
      · simpa [EngineCall.IsSent] using hcopies
  | doNotForwardPacket =>
      exact {
        serves := ⟨hconfig, hbuild, hinjector, hproto⟩
        current := current
        satisfied := by simp [engineCall, EngineCall.isForwardVerdict]
        forwarded := (UInt64.add_zero _).symm
        dropped := rfl
        no_default := List.not_mem_nil
        sent_iff := by simp [engineCall, EngineCall.IsSent] }
  | setAttributeNumberValue updated =>
      exact {
        serves := ⟨hconfig, hbuild, hinjector, hproto⟩
        current := current
        satisfied := by simp [engineCall, EngineCall.isForwardVerdict]
        forwarded := (UInt64.add_zero _).symm
        dropped := (UInt64.add_zero _).symm
        no_default := List.not_mem_nil
        sent_iff := by simp [engineCall, EngineCall.IsSent] }

theorem Follows.cons {call : EngineCall} {calls : List EngineCall}
    {before next after : ForwardPacketContext} {effects rest : List Effect}
    (first : Follows build conf ipacket [call] before next effects)
    (others : Follows build conf ipacket calls next after rest) :
    Follows build conf ipacket (call :: calls) before after (effects ++ rest) where
  serves := others.serves
  current := others.current
  satisfied := by
    rw [others.satisfied, first.satisfied]
    simp [Bool.or_assoc]
  forwarded := by
    rw [others.forwarded, first.forwarded, copies_append, UInt64.ofNat_add, UInt64.add_assoc]
  dropped := by
    rw [others.dropped, first.dropped, UInt64.add_assoc, ← UInt64.ofNat_add,
      ← List.countP_append, List.singleton_append]
  no_default := by
    rw [List.mem_append]
    exact not_or.mpr ⟨first.no_default, others.no_default⟩
  sent_iff := by
    rw [copies_append, Nat.add_pos_iff_pos_or_pos, first.sent_iff, others.sent_iff]
    simp

/-- All the calls for a packet. -/
theorem mmtSecProcess_follows {context : ForwardPacketContext}
    (serves : context.Serves build conf) (current : context.ipacket = some ipacket)
    (calls : List EngineCall) :
    Follows build conf ipacket calls context (context.mmtSecProcess calls).1
      (context.mmtSecProcess calls).2 := by
  induction calls generalizing context with
  | nil =>
      exact ⟨serves, current, by simp [mmtSecProcess], (UInt64.add_zero _).symm,
        (UInt64.add_zero _).symm, List.not_mem_nil, by simp [mmtSecProcess]⟩
  | cons call calls ih =>
      have hcall := engineCall_follows serves current call
      exact hcall.cons (ih hcall.serves hcall.current)

end ForwardPacketContext

/-! ## The account of a packet -/

namespace HandledPacket

variable (build : ForwardBuild) (conf : ForwardPacketConf) (ignoreRemainFlow : Bool)
  (packet : HandledPacket)

/-- A FORWARD rule was satisfied while the packet was processed. -/
def IsSatisfied : Prop := (packet.made ignoreRemainFlow).any EngineCall.isForwardVerdict = true

instance : Decidable (packet.IsSatisfied ignoreRemainFlow) :=
  inferInstanceAs (Decidable (_ = true))

/-- The rules had a copy sent. -/
def IsSentByRule : Prop :=
  ∃ call ∈ packet.made ignoreRemainFlow, call.IsSent build conf packet.ipacket

/-- The default action would send a copy. -/
def IsSentByDefault : Prop :=
  conf.defaultAction = .forward ∧ Accepts build conf packet.ipacket packet.default

/-- How often the rules asked to drop the packet, in the 64 bits of the counter. -/
def drops : UInt64 :=
  UInt64.ofNat ((packet.made ignoreRemainFlow).countP EngineCall.isDrop)

/-- The packet gets one decision.  Under a satisfied rule, the rules either have a copy
sent and do not ask to drop the packet, or ask so once; otherwise they do not ask so,
and have a copy sent only if the default action sends one too.  If it does not, only as
many requests as bring the counter round to where it was make up for its drop. -/
def IsDecidedOnce : Prop :=
  if packet.IsSatisfied ignoreRemainFlow then
    packet.IsSentByRule build conf ignoreRemainFlow ∧ packet.drops ignoreRemainFlow = 0 ∨
      ¬ packet.IsSentByRule build conf ignoreRemainFlow ∧ packet.drops ignoreRemainFlow = 1
  else
    packet.drops ignoreRemainFlow = 0 ∧
        (packet.IsSentByRule build conf ignoreRemainFlow → packet.IsSentByDefault build conf) ∨
      packet.drops ignoreRemainFlow + 1 = 0 ∧
        packet.IsSentByRule build conf ignoreRemainFlow ∧ ¬ packet.IsSentByDefault build conf

end HandledPacket

namespace ForwardPacketContext

variable {build : ForwardBuild} {conf : ForwardPacketConf} {context : ForwardPacketContext}

/-- The forwarding decision on a packet and its account: the default action is applied
exactly when no FORWARD rule was satisfied, the forwarded packets grow by the copies that
were sent, and the dropped ones by one exactly when there is no copy. -/
structure Accounts (context : ForwardPacketContext) (ignoreRemainFlow : Bool)
    (packet : HandledPacket) : Prop where
  default_once : (context.securityPacketHandler ignoreRemainFlow packet).2.count .defaultAction =
    if packet.IsSatisfied ignoreRemainFlow then 0 else 1
  forwarded : (context.securityPacketHandler ignoreRemainFlow packet).1.nbForwardedPackets =
    context.nbForwardedPackets +
      UInt64.ofNat (copies (context.securityPacketHandler ignoreRemainFlow packet).2)
  dropped : (context.securityPacketHandler ignoreRemainFlow packet).1.nbDroppedPackets =
    context.nbDroppedPackets +
      if copies (context.securityPacketHandler ignoreRemainFlow packet).2 = 0 then 1 else 0

theorem beforeRuleProcessing_serves (serves : context.Serves build conf) (ipacket : IPacket) :
    (context.beforeRuleProcessing ipacket).Serves build conf :=
  ⟨serves.config_eq, serves.build_eq, serves.injector_eq, serves.proto_eq⟩

/-- What closing the decision does to the context. -/
structure Closes (build : ForwardBuild) (conf : ForwardPacketConf) (ipacket : IPacket)
    (outcome : SendOutcome) (before after : ForwardPacketContext) (effects : List Effect) :
    Prop where
  serves : after.Serves build conf
  default_once : effects.count .defaultAction = if before.hasASatisfiedRule then 0 else 1
  forwarded : after.nbForwardedPackets =
    before.nbForwardedPackets + UInt64.ofNat (copies effects)
  sent_iff : 0 < copies effects ↔ before.hasASatisfiedRule = false ∧
    conf.defaultAction = .forward ∧ Accepts build conf ipacket outcome
  dropped : after.nbDroppedPackets = before.nbDroppedPackets +
    if before.hasASatisfiedRule = true ∨ 0 < copies effects then 0 else 1

theorem afterRuleProcessing_closes {ipacket : IPacket} (serves : context.Serves build conf)
    (current : context.ipacket = some ipacket) (outcome : SendOutcome) :
    Closes build conf ipacket outcome context (context.afterRuleProcessing outcome).1
      (context.afterRuleProcessing outcome).2 := by
  unfold afterRuleProcessing
  by_cases hsatisfied : context.hasASatisfiedRule = true
  · simp only [if_pos hsatisfied]
    exact ⟨serves, by simp [hsatisfied], (UInt64.add_zero _).symm, by simp [hsatisfied],
      by simp [hsatisfied]⟩
  · have hconf : context.config.defaultAction = conf.defaultAction := by rw [serves.config_eq]
    cases haction : conf.defaultAction with
    | drop =>
        simp only [if_neg hsatisfied, hconf, haction]
        exact {
          serves := ⟨serves.config_eq, serves.build_eq, serves.injector_eq, serves.proto_eq⟩
          default_once := by simp [hsatisfied]
          forwarded := (UInt64.add_zero _).symm
          sent_iff := by simp [haction]
          dropped := by simp [hsatisfied] }
    | forward =>
        rcases sendPacketToNic_spec serves current outcome with
          ⟨hcontext, hdefault, hanswer, hcopies⟩
        have hsent : (context.sendPacketToNic outcome).2.2 = true ↔
            0 < copies (context.sendPacketToNic outcome).2.1 := hanswer.trans hcopies.symm
        simp only [if_neg hsatisfied, hconf, haction]
        exact {
          serves := by
            rw [hcontext]
            exact ⟨serves.config_eq, serves.build_eq, serves.injector_eq, serves.proto_eq⟩
          default_once := by simp [hsatisfied, List.count_eq_zero_of_not_mem hdefault]
          forwarded := by
            rw [hcontext]
            rfl
          sent_iff := by simpa [hsatisfied, haction] using hcopies
          dropped := by
            rw [hcontext]
            simp only [hsatisfied, false_or, copies_cons_defaultAction, hsent, Bool.false_eq_true] }

/-- What the handling of a packet does to the context, in the terms of the packet. -/
structure Handles (build : ForwardBuild) (conf : ForwardPacketConf) (ignoreRemainFlow : Bool)
    (packet : HandledPacket) (before after : ForwardPacketContext) (effects : List Effect) :
    Prop where
  serves : after.Serves build conf
  default_once : effects.count .defaultAction =
    if packet.IsSatisfied ignoreRemainFlow then 0 else 1
  forwarded : after.nbForwardedPackets =
    before.nbForwardedPackets + UInt64.ofNat (copies effects)
  sent_iff : 0 < copies effects ↔ packet.IsSentByRule build conf ignoreRemainFlow ∨
    ¬ packet.IsSatisfied ignoreRemainFlow ∧ packet.IsSentByDefault build conf
  dropped : packet.IsSatisfied ignoreRemainFlow ∨ packet.IsSentByDefault build conf →
    after.nbDroppedPackets = before.nbDroppedPackets + packet.drops ignoreRemainFlow
  dropped_default : ¬ packet.IsSatisfied ignoreRemainFlow →
    ¬ packet.IsSentByDefault build conf →
      after.nbDroppedPackets = before.nbDroppedPackets + packet.drops ignoreRemainFlow + 1

/-- The flag is cleared for each packet, so it does not matter what earlier packets left
in the context. -/
theorem securityPacketHandler_handles (serves : context.Serves build conf)
    (ignoreRemainFlow : Bool) (packet : HandledPacket) :
    Handles build conf ignoreRemainFlow packet context
      (context.securityPacketHandler ignoreRemainFlow packet).1
      (context.securityPacketHandler ignoreRemainFlow packet).2 := by
  have hcalls := mmtSecProcess_follows (beforeRuleProcessing_serves serves packet.ipacket) rfl
    (packet.made ignoreRemainFlow)
  have hcloses := afterRuleProcessing_closes hcalls.serves hcalls.current packet.default
  have hflag : ((context.beforeRuleProcessing packet.ipacket).mmtSecProcess
      (packet.made ignoreRemainFlow)).1.hasASatisfiedRule = true ↔
        packet.IsSatisfied ignoreRemainFlow := by
    rw [hcalls.satisfied]
    exact Iff.of_eq (congrArg (· = true) (Bool.false_or _))
  have hdefault := hcloses.sent_iff
  have hdropped := hcloses.dropped
  rw [hcalls.dropped] at hdropped
  rw [← Bool.not_eq_true, hflag] at hdefault
  exact {
    serves := hcloses.serves
    default_once := by
      have hcount := hcloses.default_once
      simp only [hflag] at hcount
      simp only [securityPacketHandler, List.count_append, hcount,
        List.count_eq_zero_of_not_mem hcalls.no_default, Nat.zero_add]
    forwarded := by
      simp only [securityPacketHandler, copies_append]
      rw [hcloses.forwarded, hcalls.forwarded, UInt64.ofNat_add, ← UInt64.add_assoc]
      rfl
    sent_iff := by
      simp only [securityPacketHandler, copies_append, Nat.add_pos_iff_pos_or_pos]
      rw [hcalls.sent_iff, hdefault]
      rfl
    dropped := by
      intro hdecided
      rw [if_pos] at hdropped
      · exact hdropped.trans (UInt64.add_zero _)
      · rw [hflag, hdefault]
        rcases hdecided with hsatisfied | hsent
        · exact .inl hsatisfied
        · exact (em _).imp_right fun hnot => ⟨hnot, hsent⟩
    dropped_default := by
      intro hsatisfied hrefused
      rw [if_neg] at hdropped
      · exact hdropped
      · rw [hflag, hdefault]
        exact not_or.mpr ⟨hsatisfied, fun hsent => hrefused hsent.2⟩ }

/-- The account of one packet. -/
theorem accounts_iff (serves : context.Serves build conf) (ignoreRemainFlow : Bool)
    (packet : HandledPacket) :
    context.Accounts ignoreRemainFlow packet ↔
      packet.IsDecidedOnce build conf ignoreRemainFlow := by
  have handles := securityPacketHandler_handles serves ignoreRemainFlow packet
  have hcopies := handles.sent_iff
  have hdropped : context.Accounts ignoreRemainFlow packet ↔
      (context.securityPacketHandler ignoreRemainFlow packet).1.nbDroppedPackets =
        context.nbDroppedPackets +
          if copies (context.securityPacketHandler ignoreRemainFlow packet).2 = 0 then 1 else 0 :=
    ⟨Accounts.dropped, fun h => ⟨handles.default_once, handles.forwarded, h⟩⟩
  rw [hdropped, ← ite_not]
  unfold HandledPacket.IsDecidedOnce
  by_cases hsatisfied : packet.IsSatisfied ignoreRemainFlow
  · rw [if_pos hsatisfied, handles.dropped (.inl hsatisfied)]
    simp only [hsatisfied, not_true_eq_false, false_and, or_false] at hcopies
    by_cases hsent : packet.IsSentByRule build conf ignoreRemainFlow
    · have hpos := hcopies.mpr hsent
      simp only [hsent, true_and, not_true_eq_false, false_and, or_false]
      rw [if_pos (by omega), UInt64.add_right_inj]
    · have hzero := hcopies.not.mpr hsent
      simp only [hsent, false_and, not_false_eq_true, true_and, false_or]
      rw [if_neg (by omega), UInt64.add_right_inj]
  · rw [if_neg hsatisfied]
    simp only [hsatisfied, not_false_eq_true, true_and] at hcopies
    by_cases hdefault : packet.IsSentByDefault build conf
    · have hpos := hcopies.mpr (.inr hdefault)
      simp only [hdefault, implies_true, and_true, not_true_eq_false, and_false, or_false]
      rw [handles.dropped (.inr hdefault), if_pos (by omega), UInt64.add_right_inj]
    · -- the default action counts one drop of its own
      rw [handles.dropped_default hsatisfied hdefault, UInt64.add_assoc, UInt64.add_right_inj]
      simp only [hdefault, or_false, imp_false, not_false_eq_true, and_true] at hcopies ⊢
      by_cases hsent : packet.IsSentByRule build conf ignoreRemainFlow
      · have hpos := hcopies.mpr hsent
        simp only [hsent, not_true_eq_false, and_false, and_true, false_or]
        rw [if_pos (by omega)]
      · have hzero := hcopies.not.mpr hsent
        simp only [hsent, not_false_eq_true, and_true, and_false, or_false]
        rw [if_neg (by omega), ← @UInt64.add_left_inj _ 0 1, UInt64.zero_add]

/-- A context serves the configuration it was made for. -/
theorem forwardPacketAlloc_serves {threadCount securityThreads : Nat} {buffer : List UInt8}
    {now : Int}
    (allocated : forwardPacketAlloc build conf threadCount securityThreads buffer now =
      some context) : context.Serves build conf := by
  unfold forwardPacketAlloc at allocated
  split_ifs at allocated
  cases allocated
  exact ⟨rfl, rfl, rfl, rfl⟩

theorem handleAll_serves (serves : context.Serves build conf) (ignoreRemainFlow : Bool)
    (packets : List HandledPacket) :
    (context.handleAll ignoreRemainFlow packets).Serves build conf := by
  induction packets generalizing context with
  | nil => exact serves
  | cons packet packets ih =>
      exact ih (securityPacketHandler_handles serves ignoreRemainFlow packet).serves

/-- In a capture, every packet has its forwarding decision and its account exactly when
every packet gets one decision. -/
theorem packets_accounted_iff {threadCount securityThreads : Nat} {buffer : List UInt8}
    {now : Int}
    (allocated : forwardPacketAlloc build conf threadCount securityThreads buffer now =
      some context)
    (ignoreRemainFlow : Bool) (packets : List HandledPacket) :
    (∀ earlier packet later, packets = earlier ++ packet :: later →
        (context.handleAll ignoreRemainFlow earlier).Accounts ignoreRemainFlow packet) ↔
      ∀ packet ∈ packets, packet.IsDecidedOnce build conf ignoreRemainFlow := by
  have serves := forwardPacketAlloc_serves allocated
  constructor
  · intro accounted packet hmem
    rcases List.append_of_mem hmem with ⟨earlier, later, hsplit⟩
    exact (accounts_iff (handleAll_serves serves ignoreRemainFlow earlier) _ _).mp
      (accounted earlier packet later hsplit)
  · intro decided earlier packet later hsplit
    apply (accounts_iff (handleAll_serves serves ignoreRemainFlow earlier) _ _).mpr
    apply decided
    rw [hsplit]
    exact List.mem_append_right _ List.mem_cons_self

/-- Two copies of each packet, to the network interface; packets are dropped by default. -/
def twoCopiesConf : ForwardPacketConf := ⟨true, 2, .drop, []⟩

/-- A packet of three bytes for which the engine makes these calls. -/
def packetWith (calls : List EngineCall) (pcap : Int) : HandledPacket where
  ipacket := ⟨3, [1, 2, 3], none, none⟩
  isIgnoreRemainFlow := false
  elementsCount := 1
  calls
  default := ⟨fun _ => 0, fun _ => 0, fun _ => pcap, [], 7⟩

/-- A FORWARD rule is satisfied and has the packet sent, with this answer of libpcap. -/
def forwardCalls (pcap : Int) : List EngineCall :=
  [.verdict securityRuleTypeForward,
    .forwardPacket ⟨fun _ => 0, fun _ => 0, fun _ => pcap, [], 7⟩]

/-- A packet that a rule sends and one without a rule. -/
theorem packets_accounted_iff_two :
    ∃ context, forwardPacketAlloc .pcap twoCopiesConf 0 0 [] 0 = some context ∧
      ∀ earlier packet later,
        [packetWith (forwardCalls 3) 3, packetWith [] 3] = earlier ++ packet :: later →
          (context.handleAll false earlier).Accounts false packet := by
  have hallocated : forwardPacketAlloc .pcap twoCopiesConf 0 0 [] 0 = some _ := rfl
  refine ⟨_, hallocated, (packets_accounted_iff hallocated false _).mpr ?_⟩
  intro packet hmem
  simp only [List.mem_cons, List.not_mem_nil, or_false] at hmem
  rcases hmem with rfl | rfl
  · have hsent : (packetWith (forwardCalls 3) 3).IsSentByRule .pcap twoCopiesConf false :=
      ⟨_, List.mem_cons_of_mem _ List.mem_cons_self, .inr ⟨0, by decide, by decide⟩⟩
    exact .inl ⟨hsent, rfl⟩
  · refine .inl ⟨rfl, ?_⟩
    intro hsent
    rcases hsent with ⟨call, hmem, -⟩
    exact absurd hmem List.not_mem_nil

/-- The interface refuses the copies that a satisfied rule sends: no copy leaves, and no
drop is counted. -/
theorem packets_not_accounted :
    ∃ context, forwardPacketAlloc .pcap twoCopiesConf 0 0 [] 0 = some context ∧
      ¬ ∀ earlier packet later,
        [packetWith (forwardCalls (-1)) (-1)] = earlier ++ packet :: later →
          (context.handleAll false earlier).Accounts false packet := by
  refine ⟨_, rfl, ?_⟩
  intro accounted
  exact absurd (accounted [] _ [] rfl).dropped (by decide)

end ForwardPacketContext

end MmtProbe.Security
