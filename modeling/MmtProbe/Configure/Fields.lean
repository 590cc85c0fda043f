/-
# The fields of the configuration

`probe_conf_t` is filled once from the file, and later its fields are written one at a
time through untyped pointers.  It is kept here as a store with one cell for each field,
so that a pointer to a field is the name of a cell.  The cells come in the types of the
source; those of an enumeration are as wide as an `int`, since numbers are also written
into them.

Each field is filled from one option of the file.  Fields that no parameter of the
override table reaches and that no modelled function reads are left out.
-/

import Mathlib.Logic.Function.Basic
import MmtProbe.Math.Bytes

namespace MmtProbe.Configure

open MmtProbe.Math

/-! ## Names of the fields -/

/-- The fields of type `bool`. -/
inductive BoolField where
  | isEnableIpFragmentationReport | isEnableProtoNoSessionReport | isEnableIpDefragmentation
  | isEnableTcpReassembly | outputsIsEnable | fileIsEnable | fileIsSampled | mongodbIsEnable
  | kafkaIsEnable | redisIsEnable | socketIsEnable | dynamicConfIsEnable | forwardPacketIsEnable
  | securityIsEnable | securityIsReportRuleDescription | securityIgnoreRemainFlow
  | cpuMemIsEnable | behaviourIsEnable | behaviourIsSampled | microflowIsEnable
  | sessionIsEnable | sessionIsFtp | sessionIsHttp | sessionIsSsl | sessionIsRtp | sessionIsGtp
  | pcapDumpIsEnable | radiusIsEnable | ftpIsEnable | httpIsEnable
deriving DecidableEq, Repr

/-- The fields of type `uint16_t`. -/
inductive Uint16Field where
  | statPeriod | threadCount | inputSnapLen | outputsCachePeriod | fileRetainedFilesCount
  | mongodbPortNumber | kafkaPortNumber | redisPortNumber | socketPortNumber
  | pcapDumpFrequency | pcapDumpRetainedFilesCount | pcapDumpSnapLen | forwardPacketSnapLen
  | forwardPacketPromisc | cpuMemFrequency | behaviourRetainedFilesCount | securityThreadsSize
  | radiusMessageCode
deriving DecidableEq, Repr

/-- The fields of type `uint32_t`. -/
inductive Uint32Field where
  | probeId | stackType | threadQueuePacketThreshold | outputsCacheMax | mongodbLimitSize
  | forwardPacketNbCopies | microflowPacketThreshold | microflowByteThreshold
  | microflowReportPacketsCount | microflowReportBytesCount | microflowReportFlowsCount
deriving DecidableEq, Repr

/-- The fields whose type is an enumeration. -/
inductive EnumField where
  | inputMode | outputsFormat | socketType | sessionRttBase
deriving DecidableEq, Repr

/-- The fields of type `char *`. -/
inductive TextField where
  | licenseFile | dpdkOptions | dynamicConfDescriptor | inputSource | fileFilename
  | fileDirectory | mongodbHostName | mongodbCollectionName | mongodbDatabaseName
  | kafkaHostName | kafkaTopicName | redisHostName | redisChannelName | socketHostName
  | socketUnixDescriptor | pcapDumpDirectory | forwardPacketOutputNic | behaviourDirectory
  | behaviourFilename | securityExcludedRules | securityRulesMask | ftpDirectory | httpDirectory
deriving DecidableEq, Repr

/-- The fields of type `output_channel_conf_t`. -/
inductive ChannelField where
  | security | cpuMem | microflow | session | radius | ftp | http
deriving DecidableEq, Repr

/-- The blocks that the file may leave out; the pointer to them is then NULL. -/
inductive Reconstruct where
  | ftp | http
deriving DecidableEq, Repr

/-- The title of the block. -/
def Reconstruct.title : Reconstruct → String
  | ftp => "ftp"
  | http => "http"

/-- A field of the configuration. -/
inductive Field where
  | bool (field : BoolField)
  | uint16 (field : Uint16Field)
  | uint32 (field : Uint32Field)
  | enum (field : EnumField)
  | text (field : TextField)
  | channels (field : ChannelField)
  /-- The protocols of the packet dump. -/
  | protocols
deriving DecidableEq, Repr

/-! ## The store -/

/-- `probe_conf_t` -/
@[ext]
structure Conf where
  bool : BoolField → Bool
  uint16 : Uint16Field → UInt16
  uint32 : Uint32Field → UInt32
  enum : EnumField → UInt32
  /-- A text, or NULL. -/
  text : TextField → Option (List UInt8)
  channels : ChannelField → UInt32
  /-- The protocols of the packet dump. -/
  protocols : List (List UInt8)
  /-- Whether the pointer to a block is not NULL. -/
  hasBlock : Reconstruct → Bool
  /-- The two bytes behind `outputs.cache_period`, which belong to no field. -/
  cachePadding : UInt16

namespace Conf

def setBool (conf : Conf) (field : BoolField) (value : Bool) : Conf :=
  { conf with bool := Function.update conf.bool field value }

def setUint16 (conf : Conf) (field : Uint16Field) (value : UInt16) : Conf :=
  { conf with uint16 := Function.update conf.uint16 field value }

def setUint32 (conf : Conf) (field : Uint32Field) (value : UInt32) : Conf :=
  { conf with uint32 := Function.update conf.uint32 field value }

def setEnum (conf : Conf) (field : EnumField) (value : UInt32) : Conf :=
  { conf with enum := Function.update conf.enum field value }

def setText (conf : Conf) (field : TextField) (value : List UInt8) : Conf :=
  { conf with text := Function.update conf.text field (some value) }

def setChannels (conf : Conf) (field : ChannelField) (value : UInt32) : Conf :=
  { conf with channels := Function.update conf.channels field value }

/-- Two configurations have the same fields: the padding is not compared. -/
def SameFields (conf other : Conf) : Prop :=
  { conf with cachePadding := 0 } = { other with cachePadding := 0 }

end Conf

/-! ## Cells -/

/-- The content of one field. -/
inductive Cell where
  | bool (value : Bool)
  | uint16 (value : UInt16)
  | uint32 (value : UInt32)
  | enum (value : UInt32)
  | text (value : Option (List UInt8))
  | channels (value : UInt32)
  | protocols (value : List (List UInt8))
deriving DecidableEq, Repr

namespace Conf

/-- What the configuration holds in a field. -/
def cell (conf : Conf) : Field → Cell
  | .bool field => .bool (conf.bool field)
  | .uint16 field => .uint16 (conf.uint16 field)
  | .uint32 field => .uint32 (conf.uint32 field)
  | .enum field => .enum (conf.enum field)
  | .text field => .text (conf.text field)
  | .channels field => .channels (conf.channels field)
  | .protocols => .protocols conf.protocols

variable {conf other : Conf} {field : Field}

/-- Two configurations are compared field by field. -/
theorem sameFields_iff :
    conf.SameFields other ↔
      (∀ field, conf.cell field = other.cell field) ∧ conf.hasBlock = other.hasBlock := by
  constructor
  · intro same
    rcases Conf.mk.inj same with ⟨hbool, huint16, huint32, henum, htext, hchannels, hprotocols,
      hblock, -⟩
    refine ⟨?_, hblock⟩
    intro field
    cases field with
    | bool field => exact congrArg Cell.bool (congrFun hbool field)
    | uint16 field => exact congrArg Cell.uint16 (congrFun huint16 field)
    | uint32 field => exact congrArg Cell.uint32 (congrFun huint32 field)
    | enum field => exact congrArg Cell.enum (congrFun henum field)
    | text field => exact congrArg Cell.text (congrFun htext field)
    | channels field => exact congrArg Cell.channels (congrFun hchannels field)
    | protocols => exact congrArg Cell.protocols hprotocols
  · rintro ⟨hcell, hblock⟩
    unfold SameFields
    ext : 1
    · funext field
      exact Cell.bool.inj (hcell (.bool field))
    · funext field
      exact Cell.uint16.inj (hcell (.uint16 field))
    · funext field
      exact Cell.uint32.inj (hcell (.uint32 field))
    · funext field
      exact Cell.enum.inj (hcell (.enum field))
    · funext field
      exact Cell.text.inj (hcell (.text field))
    · funext field
      exact Cell.channels.inj (hcell (.channels field))
    · exact Cell.protocols.inj (hcell .protocols)
    · exact hblock
    · rfl

@[simp]
theorem setBool_cell (name : BoolField) (content : Bool) :
    (conf.setBool name content).cell (.bool name) = .bool content :=
  congrArg Cell.bool (Function.update_self ..)

@[simp]
theorem setUint16_cell (name : Uint16Field) (content : UInt16) :
    (conf.setUint16 name content).cell (.uint16 name) = .uint16 content :=
  congrArg Cell.uint16 (Function.update_self ..)

@[simp]
theorem setUint32_cell (name : Uint32Field) (content : UInt32) :
    (conf.setUint32 name content).cell (.uint32 name) = .uint32 content :=
  congrArg Cell.uint32 (Function.update_self ..)

@[simp]
theorem setEnum_cell (name : EnumField) (content : UInt32) :
    (conf.setEnum name content).cell (.enum name) = .enum content :=
  congrArg Cell.enum (Function.update_self ..)

@[simp]
theorem setText_cell (name : TextField) (content : List UInt8) :
    (conf.setText name content).cell (.text name) = .text (some content) :=
  congrArg Cell.text (Function.update_self ..)

@[simp]
theorem setChannels_cell (name : ChannelField) (content : UInt32) :
    (conf.setChannels name content).cell (.channels name) = .channels content :=
  congrArg Cell.channels (Function.update_self ..)

theorem setBool_cell_of_ne {name : BoolField} (apart : field ≠ .bool name) (content : Bool) :
    (conf.setBool name content).cell field = conf.cell field := by
  cases field with
  | bool field =>
      have hne : field ≠ name := fun same => apart (congrArg Field.bool same)
      exact congrArg Cell.bool (Function.update_of_ne hne _ _)
  | _ => rfl

theorem setUint16_cell_of_ne {name : Uint16Field} (apart : field ≠ .uint16 name)
    (content : UInt16) :
    (conf.setUint16 name content).cell field = conf.cell field := by
  cases field with
  | uint16 field =>
      have hne : field ≠ name := fun same => apart (congrArg Field.uint16 same)
      exact congrArg Cell.uint16 (Function.update_of_ne hne _ _)
  | _ => rfl

theorem setUint32_cell_of_ne {name : Uint32Field} (apart : field ≠ .uint32 name)
    (content : UInt32) :
    (conf.setUint32 name content).cell field = conf.cell field := by
  cases field with
  | uint32 field =>
      have hne : field ≠ name := fun same => apart (congrArg Field.uint32 same)
      exact congrArg Cell.uint32 (Function.update_of_ne hne _ _)
  | _ => rfl

theorem setEnum_cell_of_ne {name : EnumField} (apart : field ≠ .enum name) (content : UInt32) :
    (conf.setEnum name content).cell field = conf.cell field := by
  cases field with
  | enum field =>
      have hne : field ≠ name := fun same => apart (congrArg Field.enum same)
      exact congrArg Cell.enum (Function.update_of_ne hne _ _)
  | _ => rfl

theorem setText_cell_of_ne {name : TextField} (apart : field ≠ .text name) (content : List UInt8) :
    (conf.setText name content).cell field = conf.cell field := by
  cases field with
  | text field =>
      have hne : field ≠ name := fun same => apart (congrArg Field.text same)
      exact congrArg Cell.text (Function.update_of_ne hne _ _)
  | _ => rfl

theorem setChannels_cell_of_ne {name : ChannelField} (apart : field ≠ .channels name)
    (content : UInt32) :
    (conf.setChannels name content).cell field = conf.cell field := by
  cases field with
  | channels field =>
      have hne : field ≠ name := fun same => apart (congrArg Field.channels same)
      exact congrArg Cell.channels (Function.update_of_ne hne _ _)
  | _ => rfl

theorem padding_cell (padding : UInt16) :
    ({ conf with cachePadding := padding }).cell field = conf.cell field := by
  cases field <;> rfl

end Conf

/-! ## Where the file sets them -/

/-- The option of the file, with its block in front.  The first is computed from other
options and `behaviourIsSampled` is fixed. -/
def BoolField.option : BoolField → Option String
  | outputsIsEnable | behaviourIsSampled => none
  | isEnableIpFragmentationReport => some "enable-ip-fragmentation-report"
  | isEnableProtoNoSessionReport => some "enable-proto-without-session-report"
  | isEnableIpDefragmentation => some "enable-ip-defragmentation"
  | isEnableTcpReassembly => some "enable-tcp-reassembly"
  | fileIsEnable => some "file-output.enable"
  | fileIsSampled => some "file-output.sample-file"
  | mongodbIsEnable => some "mongodb-output.enable"
  | kafkaIsEnable => some "kafka-output.enable"
  | redisIsEnable => some "redis-output.enable"
  | socketIsEnable => some "socket-output.enable"
  | dynamicConfIsEnable => some "dynamic-config.enable"
  | forwardPacketIsEnable => some "forward-packet.enable"
  | securityIsEnable => some "security.enable"
  | securityIsReportRuleDescription => some "security.report-rule-description"
  | securityIgnoreRemainFlow => some "security.ignore-remain-flow"
  | cpuMemIsEnable => some "system-report.enable"
  | behaviourIsEnable => some "behaviour.enable"
  | microflowIsEnable => some "micro-flows.enable"
  | sessionIsEnable => some "session-report.enable"
  | sessionIsFtp => some "session-report.ftp"
  | sessionIsHttp => some "session-report.http"
  | sessionIsSsl => some "session-report.ssl"
  | sessionIsRtp => some "session-report.rtp"
  | sessionIsGtp => some "session-report.gtp"
  | pcapDumpIsEnable => some "dump-pcap.enable"
  | radiusIsEnable => some "radius-report.enable"
  | ftpIsEnable => some "reconstruct-data.ftp.enable"
  | httpIsEnable => some "reconstruct-data.http.enable"

/-- The default of the option. -/
def BoolField.default : BoolField → Bool
  | fileIsSampled | securityIsReportRuleDescription => true
  | _ => false

def Uint16Field.option : Uint16Field → String
  | statPeriod => "stats-period"
  | threadCount => "thread-nb"
  | inputSnapLen => "input.snap-len"
  | outputsCachePeriod => "output.cache-period"
  | fileRetainedFilesCount => "file-output.retain-files"
  | mongodbPortNumber => "mongodb-output.port"
  | kafkaPortNumber => "kafka-output.port"
  | redisPortNumber => "redis-output.port"
  | socketPortNumber => "socket-output.port"
  | pcapDumpFrequency => "dump-pcap.period"
  | pcapDumpRetainedFilesCount => "dump-pcap.retain-files"
  | pcapDumpSnapLen => "dump-pcap.snap-len"
  | forwardPacketSnapLen => "forward-packet.snap-len"
  | forwardPacketPromisc => "forward-packet.promisc"
  | cpuMemFrequency => "system-report.period"
  | behaviourRetainedFilesCount => "behaviour.retain-files"
  | securityThreadsSize => "security.thread-nb"
  | radiusMessageCode => "radius-report.message-id"

def Uint16Field.default : Uint16Field → Int
  | statPeriod => 5
  | threadCount => 1
  | inputSnapLen => 65535
  | outputsCachePeriod => 5
  | mongodbPortNumber => 27017
  | kafkaPortNumber => 9092
  | redisPortNumber => 6379
  | _ => 0

def Uint32Field.option : Uint32Field → String
  | probeId => "probe-id"
  | stackType => "stack-type"
  | threadQueuePacketThreshold => "thread-queue"
  | outputsCacheMax => "output.cache-max"
  | mongodbLimitSize => "mongodb-output.limit-size"
  | forwardPacketNbCopies => "forward-packet.nb-copies"
  | microflowPacketThreshold => "micro-flows.packet-threshold"
  | microflowByteThreshold => "micro-flows.byte-threshold"
  | microflowReportPacketsCount => "micro-flows.report-packet-count"
  | microflowReportBytesCount => "micro-flows.report-byte-count"
  | microflowReportFlowsCount => "micro-flows.report-flow-count"

def Uint32Field.default : Uint32Field → Int
  | probeId | threadQueuePacketThreshold | mongodbLimitSize => 0
  | stackType | forwardPacketNbCopies => 1
  | outputsCacheMax => 1000
  | microflowPacketThreshold => 10
  | microflowByteThreshold => 5
  | microflowReportPacketsCount => 10000
  | microflowReportBytesCount => 5000
  | microflowReportFlowsCount => 1000

def EnumField.option : EnumField → String
  | inputMode => "input.mode"
  | outputsFormat => "output.format"
  | socketType => "socket-output.type"
  | sessionRttBase => "session-report.rtt-base"

/-- `CONF_RTT_BASE_SENDER` is 1, the others begin with 0. -/
def EnumField.default : EnumField → UInt32
  | sessionRttBase => 1
  | _ => 0

def TextField.option : TextField → String
  | licenseFile => "license"
  | dpdkOptions => "dpdk-option"
  | dynamicConfDescriptor => "dynamic-config.descriptor"
  | inputSource => "input.source"
  | fileFilename => "file-output.output-file"
  | fileDirectory => "file-output.output-dir"
  | mongodbHostName => "mongodb-output.hostname"
  | mongodbCollectionName => "mongodb-output.collection"
  | mongodbDatabaseName => "mongodb-output.database"
  | kafkaHostName => "kafka-output.hostname"
  | kafkaTopicName => "kafka-output.topic"
  | redisHostName => "redis-output.hostname"
  | redisChannelName => "redis-output.channel"
  | socketHostName => "socket-output.hostname"
  | socketUnixDescriptor => "socket-output.descriptor"
  | pcapDumpDirectory => "dump-pcap.output-dir"
  | forwardPacketOutputNic => "forward-packet.output-nic"
  | behaviourDirectory => "behaviour.output-dir"
  | behaviourFilename => "behaviour.output-file"
  | securityExcludedRules => "security.exclude-rules"
  | securityRulesMask => "security.rules-mask"
  | ftpDirectory => "reconstruct-data.ftp.output-dir"
  | httpDirectory => "reconstruct-data.http.output-dir"

def TextField.default : TextField → Option String
  | dynamicConfDescriptor | inputSource => some ""
  | mongodbHostName | kafkaHostName | redisHostName | socketHostName => some "localhost"
  | mongodbCollectionName => some "reports"
  | mongodbDatabaseName => some "mmt-data"
  | kafkaTopicName | redisChannelName => some "report"
  | socketUnixDescriptor => some "/tmp/probe-output.sock"
  | _ => none

/-- The texts that are read with `_cfg_get_dir`. -/
def TextField.isDirectory : TextField → Bool
  | fileDirectory | pcapDumpDirectory | behaviourDirectory | ftpDirectory | httpDirectory => true
  | _ => false

def ChannelField.option : ChannelField → String
  | security => "security.output-channel"
  | cpuMem => "system-report.output-channel"
  | microflow => "micro-flows.output-channel"
  | session => "session-report.output-channel"
  | radius => "radius-report.output-channel"
  | ftp => "reconstruct-data.ftp.output-channel"
  | http => "reconstruct-data.http.output-channel"

/-- The option of the file from which a field is filled. -/
def Field.option : Field → Option String
  | .bool field => field.option
  | .uint16 field => some field.option
  | .uint32 field => some field.option
  | .enum field => some field.option
  | .text field => some field.option
  | .channels field => some field.option
  | .protocols => some "dump-pcap.protocols"

/-- The block that must be in the file for the option. -/
def Field.block : Field → Option Reconstruct
  | .bool .ftpIsEnable | .text .ftpDirectory | .channels .ftp => some .ftp
  | .bool .httpIsEnable | .text .httpDirectory | .channels .http => some .http
  | _ => none

end MmtProbe.Configure
