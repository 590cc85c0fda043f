/-
# How many copies an injector sends

There is one injector for libpcap, one for DPDK and one for UDP.  The configured number of
copies has 32 bits, and it was checked not to be zero.  The first and the last of them keep
16 bits of it, and count a copy when the number of its bytes is returned and is not 0.  The
one with DPDK converts the number to `int`, and hands bursts of at most 64 packets to the
driver, which may take only some of them at a time.

So all of them send and count the configured number of copies of a packet exactly when the
number has 16 bits and the packet is not empty.  The one with DPDK does it up to 31 bits,
however the driver divides the bursts, as long as the driver goes on to take packets.
-/

import MmtProbe.Math.Machine
import MmtProbe.Configure.Validate
import MmtProbe.Security.ForwardAccounting

namespace MmtProbe.Security

open MmtProbe.Math
open MmtProbe.Configure (Build ProbeConf Accepted forwardAssertions)

/-! ## The injectors with a socket -/

/-- What a call returns, and the packets that it handed over. -/
abbrev Injected := Int × List (List UInt8)

/-- The loop over the copies, after a number of its rounds: the copies that were counted, and
the packets that were handed over. -/
def attempts (answer : Nat → Int) (bytes : List UInt8) : Nat → UInt16 × List (List UInt8)
  | 0 => (0, [])
  | i + 1 =>
      let (nbPktSent, handed) := attempts answer bytes i
      (if 0 < answer i then nbPktSent + 1 else nbPktSent, handed ++ [bytes])

/-- The common body of the two functions; `answer` is what the library returns for each of
the copies. -/
def socketSendPacket (nbCopies : UInt16) (answer : Nat → Int) (packetData : List UInt8)
    (packetSize : UInt16) : Injected :=
  let (nbPktSent, handed) := attempts answer (packetData.take packetSize.toNat) nbCopies.toNat
  (nbPktSent.toNat, handed)

/-- The context of `inject_packet_alloc` in the version with libpcap, and then
`inject_packet_send_packet`. -/
def pcapSendPacket (conf : ProbeConf) (pcapInject : Nat → Int) (packetData : List UInt8)
    (packetSize : UInt16) : Injected :=
  socketSendPacket conf.forwardPacketNbCopies.toUInt16 pcapInject packetData packetSize

/-- The context of `inject_udp_alloc`, and then `inject_udp_send_packet`. -/
def udpSendPacket (conf : ProbeConf) (send : Nat → Int) (packetData : List UInt8)
    (packetSize : UInt16) : Injected :=
  socketSendPacket conf.forwardPacketNbCopies.toUInt16 send packetData packetSize

/-- A device or a connection that accepts every packet returns the number of its bytes. -/
def acceptsEvery (packetSize : UInt16) : Nat → Int := fun _ => packetSize.toNat

/-! ## The injector with DPDK -/

/-- What DPDK answers after so many calls of `rte_eth_tx_burst`: whether there is a bulk of
buffers, and for how many packets the driver has room. -/
structure Dpdk where
  allocBulk : Nat → Bool
  txBurst : Nat → Nat

/-- There are buffers, and the driver takes at least one packet after finitely many attempts. -/
structure Dpdk.Live (dpdk : Dpdk) : Prop where
  buffers : ∀ calls, dpdk.allocBulk calls = true
  takes : ∀ calls, ∃ later, calls ≤ later ∧ 0 < dpdk.txBurst later

/-- `inject_packet_send_packet` between two calls of DPDK.  The sums are no larger than the
number of copies and stay in the range of `int`. -/
inductive DpdkSending where
  /-- In front of the outer loop. -/
  | burst (nbPktToSend nbTotalSent : Int) (calls : Nat) (taken : List (List UInt8))
  /-- In front of `rte_eth_tx_burst`. -/
  | transmit (i maxBurst nbPktToSend nbTotalSent : Int) (calls : Nat) (taken : List (List UInt8))
  | returned (injected : Injected)
  /-- `rte_exit`, without memory -/
  | exited
deriving DecidableEq, Repr

/-- The size of the next bulk. -/
def nextBurst (nbPktToSend : Int) : Int :=
  if nbPktToSend > maxPktBurst then maxPktBurst else nbPktToSend

/-- One round: a bulk is filled with copies of the packet, or the driver is asked to take
what is left of the bulk. -/
def dpdkRound (dpdk : Dpdk) (bytes : List UInt8) : DpdkSending → DpdkSending
  | .burst nbPktToSend nbTotalSent calls taken =>
      if 0 < nbPktToSend then
        if dpdk.allocBulk calls then
          .transmit 0 (nextBurst nbPktToSend) nbPktToSend nbTotalSent calls taken
        else .exited
      else .returned (nbTotalSent, taken)
  | .transmit i maxBurst nbPktToSend nbTotalSent calls taken =>
      let now := min (dpdk.txBurst calls) (maxBurst - i).toNat
      let taken := taken ++ List.replicate now bytes
      if i + now < maxBurst then
        .transmit (i + now) maxBurst nbPktToSend nbTotalSent (calls + 1) taken
      else .burst (nbPktToSend - (i + now)) (nbTotalSent + (i + now)) (calls + 1) taken
  | sending => sending

/-- Where a call starts; the context holds all the bits of the number, and the local variable
is an `int`. -/
def dpdkStart (conf : ProbeConf) : DpdkSending := .burst (toInt conf.forwardPacketNbCopies) 0 0 []

/-- A call returns, with some result. -/
def DpdkReturns (conf : ProbeConf) (dpdk : Dpdk) (packetData : List UInt8) (packetSize : UInt16)
    (injected : Injected) : Prop :=
  ∃ rounds, (dpdkRound dpdk (packetData.take packetSize.toNat))^[rounds] (dpdkStart conf) =
    .returned injected

/-! ## What is wanted -/

/-- The configured number of copies of a packet. -/
def configuredCopies (conf : ProbeConf) (packetData : List UInt8) (packetSize : UInt16) :
    Injected :=
  (conf.forwardPacketNbCopies.toNat,
    List.replicate conf.forwardPacketNbCopies.toNat (packetData.take packetSize.toNat))

/-- All injectors send the configured number of copies, and return it, when the packets are
accepted. -/
structure SendsConfigured (conf : ProbeConf) (packetData : List UInt8) (packetSize : UInt16) :
    Prop where
  pcap : pcapSendPacket conf (acceptsEvery packetSize) packetData packetSize =
    configuredCopies conf packetData packetSize
  dpdk : ∀ dpdk : Dpdk, dpdk.Live → DpdkReturns conf dpdk packetData packetSize
    (configuredCopies conf packetData packetSize)
  udp : udpSendPacket conf (acceptsEvery packetSize) packetData packetSize =
    configuredCopies conf packetData packetSize

/-! ## Sockets -/

section Sockets

variable {answer : Nat → Int} {bytes : List UInt8} {rounds : Nat}

/-- Every round hands the packet over. -/
theorem attempts_snd (answer : Nat → Int) (bytes : List UInt8) (rounds : Nat) :
    (attempts answer bytes rounds).2 = List.replicate rounds bytes := by
  induction rounds with
  | zero => rfl
  | succ rounds ih =>
      simp only [attempts, ih]
      exact List.replicate_succ'.symm

/-- The counted copies are those for which the answer is positive. -/
theorem attempts_fst_accepted (accepted : ∀ i, 0 < answer i) (bytes : List UInt8)
    (few : rounds < 2 ^ 16) : (attempts answer bytes rounds).1.toNat = rounds := by
  induction rounds with
  | zero => rfl
  | succ rounds ih =>
      simp only [attempts, if_pos (accepted rounds)]
      rw [UInt16.toNat_add, ih (by omega)]
      exact Nat.mod_eq_of_lt few

theorem attempts_fst_refused (refused : ∀ i, ¬ 0 < answer i) (bytes : List UInt8) (rounds : Nat) :
    (attempts answer bytes rounds).1 = 0 := by
  induction rounds with
  | zero => rfl
  | succ rounds ih => simp only [attempts, if_neg (refused rounds), ih]

/-- The copies are counted as they are when a packet is forwarded. -/
theorem attempts_eq_sendCopies (answer : Nat → Int) (bytes : List UInt8) (rounds : Nat) :
    (attempts answer bytes rounds).1 = (sendCopies answer bytes rounds).1 := by
  induction rounds with
  | zero => rfl
  | succ rounds ih =>
      simp only [attempts, sendCopies, ih]
      split_ifs <;> rfl

end Sockets

variable {conf : ProbeConf} {packetData : List UInt8} {packetSize : UInt16}

/-- The 16 bits that a context keeps. -/
theorem toNat_toUInt16_eq_iff (n : UInt32) : n.toUInt16.toNat = n.toNat ↔ n.toNat < 2 ^ 16 := by
  rw [UInt32.toNat_toUInt16]
  exact Nat.mod_eq_iff_lt (by decide)

theorem socketSendPacket_eq_iff (given : 0 < conf.forwardPacketNbCopies) :
    socketSendPacket conf.forwardPacketNbCopies.toUInt16 (acceptsEvery packetSize) packetData
        packetSize = configuredCopies conf packetData packetSize ↔
      conf.forwardPacketNbCopies.toNat < 2 ^ 16 ∧ 0 < packetSize := by
  have hgiven : 0 < conf.forwardPacketNbCopies.toNat := UInt32.lt_iff_toNat_lt.mp given
  rw [socketSendPacket, configuredCopies, Prod.mk.injEq, attempts_snd, Int.natCast_inj,
    List.replicate_inj, ← toNat_toUInt16_eq_iff, UInt16.lt_iff_toNat_lt]
  constructor
  · rintro ⟨hcount, hsent, -⟩
    refine ⟨hsent, ?_⟩
    by_contra hempty
    rw [attempts_fst_refused] at hcount
    · exact absurd hcount (Nat.ne_of_lt hgiven)
    · exact fun _ accepted => hempty (Int.natCast_pos.mp accepted)
  · rintro ⟨hsent, hsize⟩
    have haccepted : ∀ i, 0 < acceptsEvery packetSize i := fun _ => Int.natCast_pos.mpr hsize
    rw [attempts_fst_accepted haccepted _ (UInt16.toNat_lt _)]
    exact ⟨hsent, hsent, .inr rfl⟩

/-! ## DPDK -/

section Dpdk

variable {dpdk : Dpdk} {bytes : List UInt8} {copies : Nat} {sending : DpdkSending}

/-- The copies that were sent and the copies that are still owed make up the whole number. -/
def Owes (copies : Nat) (bytes : List UInt8) : DpdkSending → Prop
  | .burst nbPktToSend nbTotalSent _ taken =>
      0 ≤ nbPktToSend ∧ 0 ≤ nbTotalSent ∧ nbPktToSend + nbTotalSent = copies ∧
        taken = List.replicate nbTotalSent.toNat bytes
  | .transmit i maxBurst nbPktToSend nbTotalSent _ taken =>
      0 ≤ i ∧ i < maxBurst ∧ maxBurst ≤ nbPktToSend ∧ 0 ≤ nbTotalSent ∧
        nbPktToSend + nbTotalSent = copies ∧
        taken = List.replicate (nbTotalSent + i).toNat bytes
  | .returned injected => injected = ((copies : Int), List.replicate copies bytes)
  | .exited => False

/-- What lowers with each bulk that is filled and with each packet that is taken. -/
def owed : DpdkSending → Nat
  | .burst nbPktToSend _ _ _ => 2 * nbPktToSend.toNat + 1
  | .transmit i _ nbPktToSend _ _ _ => 2 * (nbPktToSend - i).toNat
  | _ => 0

/-- A call that is over. -/
def Over : DpdkSending → Prop
  | .returned _ | .exited => True
  | _ => False

theorem nextBurst_bounds {nbPktToSend : Int} (more : 0 < nbPktToSend) :
    0 < nextBurst nbPktToSend ∧ nextBurst nbPktToSend ≤ nbPktToSend := by
  rw [nextBurst, maxPktBurst]
  split_ifs <;> omega

theorem dpdkRound_burst {nbPktToSend nbTotalSent : Int} {calls : Nat} {taken : List (List UInt8)}
    (owes : Owes copies bytes (.burst nbPktToSend nbTotalSent calls taken))
    (buffers : dpdk.allocBulk calls = true) :
    Owes copies bytes (dpdkRound dpdk bytes (.burst nbPktToSend nbTotalSent calls taken)) ∧
      owed (dpdkRound dpdk bytes (.burst nbPktToSend nbTotalSent calls taken)) <
        owed (.burst nbPktToSend nbTotalSent calls taken) := by
  rcases owes with ⟨hleft, hsent, hsum, htaken⟩
  by_cases hmore : 0 < nbPktToSend
  · have hburst := nextBurst_bounds hmore
    simp only [dpdkRound, if_pos hmore, if_pos buffers, Owes, owed]
    refine ⟨⟨Int.le_refl 0, hburst.1, hburst.2, hsent, hsum, ?_⟩, by omega⟩
    rw [htaken, Int.add_zero]
  · have hall : nbTotalSent = copies := by omega
    simp only [dpdkRound, if_neg hmore, Owes, owed, htaken, hall, Int.toNat_natCast, true_and]
    exact Nat.succ_pos _

/-- The driver takes some of the packets that are left of a bulk, maybe none. -/
theorem dpdkRound_transmit {i maxBurst nbPktToSend nbTotalSent : Int} {calls : Nat}
    {taken : List (List UInt8)}
    (owes : Owes copies bytes (.transmit i maxBurst nbPktToSend nbTotalSent calls taken)) :
    Owes copies bytes
      (dpdkRound dpdk bytes (.transmit i maxBurst nbPktToSend nbTotalSent calls taken)) := by
  rcases owes with ⟨hi, hless, hburst, hsent, hsum, htaken⟩
  have hnow := Nat.min_le_right (dpdk.txBurst calls) (maxBurst - i).toNat
  generalize hdef : min (dpdk.txBurst calls) (maxBurst - i).toNat = now at hnow
  have hgrown : taken ++ List.replicate now bytes =
      List.replicate (nbTotalSent + (i + now)).toNat bytes := by
    rw [htaken, List.replicate_append_replicate]
    congr 1
    omega
  simp only [dpdkRound, hdef, hgrown]
  split_ifs with hrest
  · exact ⟨by omega, hrest, hburst, hsent, hsum, rfl⟩
  · exact ⟨by omega, by omega, by omega, rfl⟩

/-- When the driver takes a packet, fewer are owed. -/
theorem owed_transmit {i maxBurst nbPktToSend nbTotalSent : Int} {calls : Nat}
    {taken : List (List UInt8)}
    (owes : Owes copies bytes (.transmit i maxBurst nbPktToSend nbTotalSent calls taken))
    (takes : 0 < dpdk.txBurst calls) :
    owed (dpdkRound dpdk bytes (.transmit i maxBurst nbPktToSend nbTotalSent calls taken)) <
      owed (.transmit i maxBurst nbPktToSend nbTotalSent calls taken) := by
  rcases owes with ⟨hi, hless, hburst, -⟩
  have hnow : 0 < min (dpdk.txBurst calls) (maxBurst - i).toNat := by omega
  have hle := Nat.min_le_right (dpdk.txBurst calls) (maxBurst - i).toNat
  simp only [dpdkRound]
  generalize min (dpdk.txBurst calls) (maxBurst - i).toNat = now at hnow hle
  split_ifs
  · simp only [owed]
    omega
  · simp only [owed]
    omega

/-- A driver that takes nothing is asked again, and takes something in the end. -/
theorem owed_transmit_later {i maxBurst nbPktToSend nbTotalSent : Int} (waits : Nat) {calls : Nat}
    {taken : List (List UInt8)}
    (owes : Owes copies bytes (.transmit i maxBurst nbPktToSend nbTotalSent calls taken))
    (takes : 0 < dpdk.txBurst (calls + waits)) :
    ∃ rounds, Owes copies bytes ((dpdkRound dpdk bytes)^[rounds]
        (.transmit i maxBurst nbPktToSend nbTotalSent calls taken)) ∧
      owed ((dpdkRound dpdk bytes)^[rounds]
          (.transmit i maxBurst nbPktToSend nbTotalSent calls taken)) <
        owed (.transmit i maxBurst nbPktToSend nbTotalSent calls taken) := by
  induction waits generalizing calls with
  | zero => exact ⟨1, dpdkRound_transmit owes, owed_transmit owes takes⟩
  | succ waits ih =>
      by_cases hnow : 0 < dpdk.txBurst calls
      · exact ⟨1, dpdkRound_transmit owes, owed_transmit owes hnow⟩
      · have hzero : dpdk.txBurst calls = 0 := by omega
        have hsame : dpdkRound dpdk bytes
            (.transmit i maxBurst nbPktToSend nbTotalSent calls taken) =
              .transmit i maxBurst nbPktToSend nbTotalSent (calls + 1) taken := by
          simp [dpdkRound, hzero, owes.2.1]
        rw [show calls + (waits + 1) = calls + 1 + waits by omega] at takes
        rcases @ih (calls + 1) owes takes with ⟨rounds, hrounds⟩
        refine ⟨rounds + 1, ?_⟩
        rw [Function.iterate_succ_apply, hsame]
        exact hrounds

/-- Whatever the driver takes at a time, the call comes to an end, with all copies sent. -/
theorem dpdk_ends (live : dpdk.Live) (owes : Owes copies bytes sending) :
    ∃ rounds, (dpdkRound dpdk bytes)^[rounds] sending =
      .returned (copies, List.replicate copies bytes) := by
  have hprogress : ∀ state, Owes copies bytes state → ¬ Over state →
      ∃ rounds, Owes copies bytes ((dpdkRound dpdk bytes)^[rounds] state) ∧
        owed ((dpdkRound dpdk bytes)^[rounds] state) < owed state := by
    intro state howes hrunning
    cases state with
    | burst nbPktToSend nbTotalSent calls taken =>
        exact ⟨1, dpdkRound_burst howes (live.buffers calls)⟩
    | transmit i maxBurst nbPktToSend nbTotalSent calls taken =>
        rcases live.takes calls with ⟨later, hlater, htakes⟩
        rw [← Nat.add_sub_of_le hlater] at htakes
        exact owed_transmit_later _ howes htakes
    | returned injected => exact absurd trivial hrunning
    | exited => exact absurd trivial hrunning
  rcases exists_iterate_done owed hprogress owes with ⟨rounds, hkept, hover⟩
  refine ⟨rounds, ?_⟩
  generalize (dpdkRound dpdk bytes)^[rounds] sending = last at hkept hover
  cases last with
  | returned injected => exact congrArg DpdkSending.returned hkept
  | exited => exact absurd hkept id
  | burst => exact absurd hover id
  | transmit => exact absurd hover id

end Dpdk

/-- As many copies are sent as the converted number says; a negative number is none. -/
theorem dpdk_returns (conf : ProbeConf) {dpdk : Dpdk} (live : dpdk.Live)
    (packetData : List UInt8) (packetSize : UInt16) :
    DpdkReturns conf dpdk packetData packetSize
      (((toInt conf.forwardPacketNbCopies).toNat : Int),
        List.replicate (toInt conf.forwardPacketNbCopies).toNat
          (packetData.take packetSize.toNat)) := by
  by_cases hsign : 0 ≤ toInt conf.forwardPacketNbCopies
  · apply dpdk_ends live
    rw [dpdkStart]
    exact ⟨hsign, Int.le_refl 0, by omega, rfl⟩
  · refine ⟨1, ?_⟩
    rw [Function.iterate_one, dpdkStart, dpdkRound, if_neg (by omega),
      show (toInt conf.forwardPacketNbCopies).toNat = 0 by omega]
    rfl

/-- A call returns once. -/
theorem dpdkReturns_unique {dpdk : Dpdk} {injected other : Injected}
    (returned : DpdkReturns conf dpdk packetData packetSize injected)
    (again : DpdkReturns conf dpdk packetData packetSize other) : injected = other := by
  have hlater : ∀ {first last : Nat} {injected other : Injected}, first ≤ last →
      (dpdkRound dpdk (packetData.take packetSize.toNat))^[first] (dpdkStart conf) =
        .returned injected →
      (dpdkRound dpdk (packetData.take packetSize.toNat))^[last] (dpdkStart conf) =
        .returned other → injected = other := by
    intro first last injected other hle hfirst hlast
    rw [← Nat.sub_add_cancel hle, Function.iterate_add_apply, hfirst,
      Function.iterate_fixed rfl] at hlast
    injection hlast
  rcases returned with ⟨first, hfirst⟩
  rcases again with ⟨last, hlast⟩
  rcases Nat.le_total first last with hle | hle
  · exact hlater hle hfirst hlast
  · exact (hlater hle hlast hfirst).symm

/-- The configured number is sent when it is an `int`. -/
theorem dpdk_sends_iff (given : 0 < conf.forwardPacketNbCopies) {dpdk : Dpdk} (live : dpdk.Live) :
    DpdkReturns conf dpdk packetData packetSize (configuredCopies conf packetData packetSize) ↔
      conf.forwardPacketNbCopies.toNat < 2 ^ 31 := by
  have hpos : 0 < conf.forwardPacketNbCopies.toNat := UInt32.lt_iff_toNat_lt.mp given
  have hbits := UInt32.toNat_lt conf.forwardPacketNbCopies
  have hreturns := dpdk_returns conf live packetData packetSize
  constructor
  · intro hconfigured
    have hcopies : ((toInt conf.forwardPacketNbCopies).toNat : Int) =
        conf.forwardPacketNbCopies.toNat :=
      congrArg Prod.fst (dpdkReturns_unique hreturns hconfigured)
    by_contra hlarge
    rw [toInt, if_neg hlarge] at hcopies
    omega
  · intro hsmall
    rw [toInt, if_pos hsmall, Int.toNat_natCast] at hreturns
    exact hreturns

/-! ## Forwarding a packet -/

theorem sendBursts_eq (bytes : List UInt8) (answers : List Nat) (nbPktToSend : Nat) :
    sendBursts bytes answers nbPktToSend =
      (nbPktToSend, List.replicate nbPktToSend (.copySent bytes)) := by
  fun_induction sendBursts bytes answers nbPktToSend with
  | case1 answers nbPktToSend hsend taken more ih =>
      have htaken : taken.1 = min maxPktBurst nbPktToSend := sendBurst_fst _ _
      have hall : taken.1 + (nbPktToSend - taken.1) = nbPktToSend := by omega
      have hmore : more = (nbPktToSend - taken.1,
          List.replicate (nbPktToSend - taken.1) (.copySent bytes)) := ih
      rw [hmore, List.replicate_append_replicate, hall]
  | case2 answers nbPktToSend hsend =>
      rw [show nbPktToSend = 0 by omega]
      rfl

/-- The result that a forwarded packet is counted with is the one of the loop over the
bursts. -/
theorem injectPacketSendPacket_dpdk {context : ForwardPacketContext}
    (injector : context.injector = .dpdk conf.forwardPacketNbCopies) (outcome : SendOutcome)
    {dpdk : Dpdk} (live : dpdk.Live) :
    ∃ taken, DpdkReturns conf dpdk context.packetData context.packetSize
        ((context.injectPacketSendPacket outcome).1, taken) ∧
      (context.injectPacketSendPacket outcome).2 = taken.map .copySent := by
  simp only [ForwardPacketContext.injectPacketSendPacket, injector, sendBursts_eq]
  exact ⟨_, dpdk_returns conf live context.packetData context.packetSize, List.map_replicate.symm⟩

/-- With libpcap it is the one of the loop over the copies. -/
theorem injectPacketSendPacket_pcap {context : ForwardPacketContext}
    (injector : context.injector = .pcap conf.forwardPacketNbCopies.toUInt16)
    (outcome : SendOutcome) :
    (context.injectPacketSendPacket outcome).1 =
      (pcapSendPacket conf outcome.pcap context.packetData context.packetSize).1 := by
  simp only [ForwardPacketContext.injectPacketSendPacket, injector, pcapSendPacket,
    socketSendPacket, attempts_eq_sendCopies]

/-! ## All injectors -/

/-- A configuration with forwarding is accepted with one copy at least. -/
theorem nbCopies_pos {build : Build} (accepted : Accepted build conf)
    (compiled : build.forwardPacketModule = true) (enabled : conf.forwardPacketIsEnable = true) :
    0 < conf.forwardPacketNbCopies := by
  rcases accepted with ⟨given, haccepted⟩
  unfold Configure.confValidate at haccepted
  split_ifs at haccepted with hassert
  have hpair := Option.some.inj haccepted
  have henabled : given.forwardPacketIsEnable = conf.forwardPacketIsEnable :=
    congrArg (fun pair => pair.2.forwardPacketIsEnable) hpair
  have hcopies : given.forwardPacketNbCopies = conf.forwardPacketNbCopies :=
    congrArg (fun pair => pair.2.forwardPacketNbCopies) hpair
  rw [forwardAssertions, compiled, henabled, enabled, hcopies] at hassert
  have hboth : (build.securityModule = true ∧ given.securityIsEnable = true) ∧
      0 < conf.forwardPacketNbCopies := by
    simpa using hassert
  exact hboth.2

/-- A build with forwarding and security. -/
def forwardingBuild : Build := ⟨true, true, false, false, false, false, false⟩

/-- A configuration with a number of copies. -/
def forwardingConf (nbCopies : UInt32) : ProbeConf where
  forwardPacketIsEnable := true
  forwardPacketNbCopies := nbCopies
  securityIsEnable := true
  microflow := none
  pcapDumpFrequency := none
  session := ⟨false, false, false, false, false, false, .sender⟩
  behaviourIsEnable := false
  isEnableIpDefragmentation := false
  isEnableTcpReassembly := false
  ftpReconstructIsEnable := false
  httpReconstructIsEnable := false
  inputMode := .onlineAnalysis
  threadCount := 0
  threadQueuePacketThreshold := 0

end MmtProbe.Security
