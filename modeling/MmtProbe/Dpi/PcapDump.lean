/-
# Dumping packets into capture files

A worker writes the packets that use a selected protocol into capture files, and goes on
with a new file when the period of the current one is over.  A file is named after the
second of its first packet.

The lengths of a packet are given to the function that writes it as numbers of 16 bits, the
end of the period is kept in 32 bits, and the two outermost protocols of a packet are not
looked at.
-/

import MmtProbe.Math.Pcap
import MmtProbe.Output.FileOutput

namespace MmtProbe.Dpi

open MmtProbe.Math MmtProbe.Lib MmtProbe.Output

/-! ## The data -/

/-- `pcap_dump_conf_t` -/
structure PcapDumpConf where
  isEnable : Bool
  directory : CString
  frequency : UInt16
  protocols : List CString
  snapLen : UInt16
deriving DecidableEq

/-- What of `pcap_dump_context_t` stays the same. -/
structure PcapDumpContext where
  config : PcapDumpConf
  protoIdsLst : List UInt32
  workerIndex : UInt16
  stackType : UInt32
deriving DecidableEq

/-- A packet, and whether a file can be opened while it is handled. The bytes that were
captured are not more than the packet had. -/
structure DumpPacket where
  /-- `proto_hierarchy` -/
  protoPath : List UInt32
  tvSec : UInt32
  tvUsec : UInt32
  len : UInt32
  data : List UInt8
  captured : data.length ≤ len.toNat
  canOpen : Bool
deriving Repr

/-- The rest of the context, the files, and the paths in the order in which they were
opened. -/
structure DumpState where
  file : Option Path
  nextTsToDumpToNewFile : UInt32
  disk : Disk
  created : List Path

/-! ## Files -/

/-- `fwrite`, with the semantics of a stream that was opened under a path. -/
abbrev fwrite (disk : Disk) (path : Path) (bytes : List UInt8) : Disk := fprintf disk path bytes

/-- `struct pd_pcap_pkthdr` -/
def pdPcapPkthdr (tvSec tvUsec caplen len : UInt32) : List UInt8 :=
  littleEndian 4 tvSec.toNat ++ littleEndian 4 tvUsec.toNat ++ littleEndian 4 caplen.toNat ++
    littleEndian 4 len.toNat

/-- `struct pd_pcap_file_header` -/
def pdPcapFileHeader (thiszone snaplen linktype : UInt32) : List UInt8 :=
  littleEndian 4 0xa1b2c3d4 ++ littleEndian 2 2 ++ littleEndian 2 4 ++
    littleEndian 4 thiszone.toNat ++ littleEndian 4 0 ++ littleEndian 4 snaplen.toNat ++
    littleEndian 4 linktype.toNat

/-- `_write_packet` -/
def writePacket (disk : Disk) (fd : Path) (buf : List UInt8) (len caplen : UInt16)
    (tvSec tvUsec : UInt32) : Disk :=
  fwrite (fwrite disk fd (pdPcapPkthdr tvSec tvUsec caplen.toUInt32 len.toUInt32)) fd
    (buf.take caplen.toNat)

/-- `_create_pcap_file` -/
def createPcapFile (canOpen : Bool) (disk : Disk) (path : Path) (linktype thiszone : UInt32)
    (snaplen : UInt16) : Option Disk :=
  if canOpen then
    some (fwrite (fopen disk path) path (pdPcapFileHeader thiszone snaplen.toUInt32 linktype))
  else none

/-! ## The callback -/

/-- The loop over the levels, from the level `j` down. -/
def findsLevel (protoPath : List UInt32) (protoToCheck : UInt32) : Nat → Bool
  | 0 => false
  | 1 => false
  | j + 2 =>
      protoPath[j + 2]? == some protoToCheck || findsLevel protoPath protoToCheck (j + 1)

/-- The loop over the protocols. -/
def findsProtocol (protoPath : List UInt32) : List UInt32 → Bool
  | [] => false
  | protoToCheck :: rest =>
      findsLevel protoPath protoToCheck (protoPath.length - 1) || findsProtocol protoPath rest

/-- The path that `snprintf` makes. -/
def dumpFileName (context : PcapDumpContext) (tvSec : UInt32) : Path :=
  (context.config.directory.bytes ++ (decimal tvSec.toNat ++ (bytesOf "_thread_" ++
    (decimal context.workerIndex.toNat ++ bytesOf ".pcap")))).take (maxLengthFullPathFileName - 1)

/-- "check periodically" -/
def DumpState.isDue (state : DumpState) (tvSec : UInt32) : Bool :=
  state.file == none || decide (tvSec.toNat > state.nextTsToDumpToNewFile.toNat)

/-- The old file is closed and a new one is opened. -/
def rotate (context : PcapDumpContext) (state : DumpState) (packet : DumpPacket) : DumpState :=
  let path := dumpFileName context packet.tvSec
  match createPcapFile packet.canOpen state.disk path context.stackType 0
      context.config.snapLen with
  | none => { state with file := none }
  | some disk =>
      { file := some path
        nextTsToDumpToNewFile :=
          UInt32.ofNat (packet.tvSec.toNat + context.config.frequency.toNat)
        disk
        created := state.created ++ [path] }

/-- `pcap_dump_callback_on_receiving_packet` -/
def pcapDumpCallback (context : PcapDumpContext) (state : DumpState) (packet : DumpPacket) :
    DumpState :=
  if findsProtocol packet.protoPath context.protoIdsLst then
    let state := if state.isDue packet.tvSec then rotate context state packet else state
    match state.file with
    | none => state
    | some path =>
        { state with
          disk := writePacket state.disk path packet.data (UInt16.ofNat packet.len.toNat)
            (UInt16.ofNat (min packet.data.length context.config.snapLen.toNat))
            packet.tvSec packet.tvUsec }
  else state

/-- `pcap_dump_start`, on a disk that may hold other files. -/
def pcapDumpStart (workerIndex : UInt16) (config : PcapDumpConf) (stackType : UInt32)
    (getProtocolIdByName : CString → UInt32) (disk : Disk) :
    Option (PcapDumpContext × DumpState) :=
  if config.isEnable then
    some (⟨config, config.protocols.map getProtocolIdByName, workerIndex, stackType⟩,
      ⟨none, 0, disk, []⟩)
  else none

/-- `pcap_dump_stop` -/
def pcapDumpStop (state : DumpState) : DumpState := { state with file := none }

end MmtProbe.Dpi
