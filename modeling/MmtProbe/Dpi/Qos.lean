/-
# Response times of a TCP session

`session_report_callback_on_receiving_packet` is called for every packet of a
session.  With `QOS_MODULE` it looks for TCP behind the protocol that the session
belongs to, and updates the retransmissions, the round-trip times and the two
moments from which the report computes its times.  Without that module it does
nothing.
-/

import MmtProbe.Dpi.SessionStat

namespace MmtProbe.Dpi

open MmtProbe.Configure

/-! ## `tcp_rtt_add_packet` -/

/-- `expected_ack_number` -/
def PktNode.expectedAckNumber (p : PktNode) : UInt32 := p.seqNumber + p.dataLen.toUInt32 + 1

/-- Enter a packet into the list of its direction, which is sorted by descending
numbers. A packet that is there already only gets a newer time. -/
def addPktNode (node : PktNode) : List PktNode → List PktNode
  | [] => [node]
  | p :: ps =>
      if p.expectedAckNumber > node.expectedAckNumber then p :: addPktNode node ps
      else if p.expectedAckNumber = node.expectedAckNumber then
        (if isAfter p.timestamp node.timestamp then { p with timestamp := node.timestamp } else p)
          :: ps
      else node :: p :: ps

/-- Remove the packets that are acknowledged one after the other; each of them is
taken to acknowledge the packet before it. -/
def removeAcknowledged (ackNum : UInt32) : List PktNode → UInt32 × List PktNode
  | [] => (0, [])
  | p :: ps =>
      if p.expectedAckNumber = ackNum then
        let (counter, rest) := removeAcknowledged p.seqNumber ps
        (counter + 1, rest)
      else (0, p :: ps)

/-- Look for the packet that a number acknowledges: its time, the number of removed
packets and the list that remains. -/
def acknowledge (ackNum : UInt32) : List PktNode → Option (Timeval × UInt32 × List PktNode)
  | [] => none
  | p :: ps =>
      if p.expectedAckNumber = ackNum then some (p.timestamp, removeAcknowledged ackNum (p :: ps))
      else (acknowledge ackNum ps).map fun (ts, counter, rest) => (ts, counter, p :: rest)

/-- `tcp_rtt_add_packet`: the number of acknowledged packets and the time since the
one that was found. -/
def tcpRttAddPacket (rtt : TcpRtt) (direction : Bool) (ackNum seqNum : UInt32) (dataLen : UInt16)
    (timestamp : Timeval) : TcpRtt × UInt32 × UInt64 :=
  let rtt := rtt.set direction (addPktNode ⟨seqNum, dataLen, timestamp⟩ (rtt.get direction))
  if ackNum = 0 then (rtt, 0, 0)
  else
    match acknowledge ackNum (rtt.get (!direction)) with
    | none => (rtt, 0, 0)
    | some (ts, counter, rest) =>
        (rtt.set (!direction) rest, counter, UInt64.ofInt (uSecondDiff timestamp ts))

/-! ## `session_report_callback_on_receiving_packet` -/

/-- Protocols that the modelled code tells apart. -/
inductive Proto where
  | ip
  | ipv6
  | tcp
  | gtp
  | other (id : Nat)
deriving DecidableEq, Repr

/-- What is extracted from the TCP header at an index. -/
structure TcpAttributes where
  retransmission : Option UInt32
  tsval : Option UInt32
  tsecr : Option UInt32
  ackNb : Option UInt32
  seqNb : Option UInt32
  payloadLen : Option UInt32
  connEstablished : Bool
deriving DecidableEq, Repr

/-- A packet as its handler sees it. -/
structure PacketInfo where
  /-- `get_session_protocol_index` -/
  sessionIndex : Nat
  /-- `get_session_protocol_hierarchy` -/
  protoPath : List Proto
  /-- `get_session_last_packet_direction` -/
  direction : Bool
  ts : Timeval
  tcp : TcpAttributes
deriving DecidableEq, Repr

/-- `_get_protocol_index_after_session`; `none` is -1. -/
def getProtocolIndexAfterSession (proto : Proto) (info : PacketInfo) : Option Nat :=
  ((info.protoPath.drop info.sessionIndex).findIdx? (· == proto)).map (· + info.sessionIndex)

/-- The numbers from which the round-trip time is computed. -/
def rttNumbers (base : RttBase) (tcp : TcpAttributes) : UInt32 × UInt32 × UInt32 :=
  let bySender := base = .sender ∨ base = .preferSender
  let seqNumber := if bySender then tcp.tsval.getD 0 else 0
  let ackNumber := if bySender then (tcp.tsecr.map (· + 1)).getD 0 else 0
  if base = .captor ∨ base = .preferSender then
    (if base = .captor ∨ ackNumber = 0 then tcp.ackNb.getD ackNumber else ackNumber,
      if base = .captor ∨ seqNumber = 0 then tcp.seqNb.getD seqNumber else seqNumber,
      if base = .captor then tcp.payloadLen.getD 0 else 0)
  else (ackNumber, seqNumber, 0)

/-- Add a sample of a round-trip time. -/
def RttStat.add (rtt : RttStat) (usec : UInt64) (counter : UInt32) : RttStat where
  counter := rtt.counter + counter.toUInt64
  sum := rtt.sum + usec * counter.toUInt64
  max := if rtt.max < usec then usec else rtt.max
  min := if rtt.min = 0 ∨ rtt.min > usec then usec else rtt.min

/-- The part of the callback that computes the round-trip time. -/
def QosStat.addRtt (qos : QosStat) (base : RttBase) (info : PacketInfo) : QosStat :=
  let (ackNumber, seqNumber, dataLen) := rttNumbers base info.tcp
  if ackNumber ≠ 0 ∧ seqNumber ≠ 0 then
    let (tcpRtt, counter, usec) := tcpRttAddPacket qos.tcpRtt info.direction ackNumber seqNumber
      dataLen.toUInt16 info.ts
    let qos := { qos with tcpRtt := tcpRtt }
    -- an upload packet acknowledges download packets
    let other := !info.direction
    if counter ≠ 0 then
      { qos with rtt := qos.rtt.set other ((qos.rtt.get other).add usec counter) }
    else qos
  else qos

/-- The part of the callback that remembers the two moments. -/
def QosStat.moments (qos : QosStat) (info : PacketInfo) : QosStat :=
  if isZeroTimestamp qos.tcpEstablishedTs then
    if info.tcp.connEstablished then { qos with tcpEstablishedTs := info.ts } else qos
  else if isZeroTimestamp qos.latestTcpDataPktTs then
    if isAfter qos.tcpEstablishedTs info.ts then { qos with latestTcpDataPktTs := info.ts } else qos
  else qos

/-- The callback behind a TCP header. -/
def QosStat.receive (qos : QosStat) (base : RttBase) (info : PacketInfo) : QosStat :=
  let count := qos.retransmission.get info.direction + (info.tcp.retransmission.getD 0).toUInt64
  let qos := { qos with retransmission := qos.retransmission.set info.direction count }
  (qos.addRtt base info).moments info

/-- `session_report_callback_on_receiving_packet`. The pointer is dereferenced as
soon as TCP is found. -/
def receivingPacket (build : Build) (base : RttBase) (info : PacketInfo)
    (stat : Option SessionStat) : Except Crash (Option SessionStat) :=
  if build.qosModule then
    match getProtocolIndexAfterSession .tcp info, stat with
    | none, _ => .ok stat
    | some _, none => .error .nullStat
    | some _, some stat => .ok (some { stat with qos := stat.qos.receive base info })
  else .ok stat

/-- The handler of packets follows the pointer only with `QOS_MODULE` and behind
TCP. -/
theorem receivingPacket_none (build : Build) (base : RttBase) (info : PacketInfo) :
    receivingPacket build base info none =
      if build.qosModule = true ∧ (getProtocolIndexAfterSession .tcp info).isSome then
        .error .nullStat
      else .ok none := by
  unfold receivingPacket
  cases build.qosModule with
  | false => simp
  | true =>
      cases getProtocolIndexAfterSession .tcp info with
      | none => simp
      | some index => simp

/-- On a session with statistics the handler of packets returns and changes nothing
but the response times. -/
theorem receivingPacket_some (build : Build) (base : RttBase) (info : PacketInfo)
    (stat : SessionStat) :
    ∃ qos, receivingPacket build base info (some stat) = .ok (some { stat with qos := qos }) := by
  unfold receivingPacket
  cases build.qosModule with
  | false => exact ⟨stat.qos, rfl⟩
  | true =>
      cases getProtocolIndexAfterSession .tcp info with
      | none => exact ⟨stat.qos, rfl⟩
      | some index => exact ⟨stat.qos.receive base info, rfl⟩

end MmtProbe.Dpi
