/-
# The parameters that can be set at run time

`configure_override.h` lists every parameter of the configuration that a command
may change, with the text that names it and the type of its values.  Some rows
are only compiled in together with a module of the probe, so the table depends
on the build: the numeric identity of a parameter is its row in that table.
-/

import MmtProbe.Math.Bytes
import Mathlib.Data.List.Nodup

namespace MmtProbe.DynamicConf

open MmtProbe.Math

/-! ## The table -/

/-- `config_identity_t`: the parameters that have a number. -/
inductive ConfigIdentity where
  | none | probeId | stackType | license | statsPeriod | enableProtoWithoutSessionReport
  | enableIpFragementationReport | enableIpDefragementation | enableTcpReassembly
  | dynConfEnable | dynConfDescriptor | threadNb | threadQueue | inputMode | inputSource
  | inputSnapLen | inputDpdkOption | outputFormat | outputCacheMax | outputCachePeriod
  | fileOutputEnable | fileOutputOutputFile | fileOutputOutputDir | fileOutputRetainFiles
  | fileOutputSampleFile | mongodbOutputEnable | mongodbOutputHostname | mongodbOutputPort
  | mongodbOutputCollection | mongodbOutputDatabase | mongodbOutputLimitSize | kafkaOutputEnable
  | kafkaOutputHostname | kafkaOutputPort | kafkaOutputTopicname | redisOutputEnable
  | redisOutputHostname | redisOutputChannelName | redisOutputPort | socketOutputEnable
  | socketOutputType | socketOutputHostname | socketOutputPort | socketOutputDescriptor
  | dumpPcapEnable | dumpPcapOutputDir | dumpPcapProtocols | dumpPcapPeriod
  | dumpPcapRetainFiles | dumpPcapSnapLen | forwardPacketEnable | forwardPacketOutputNic
  | forwardPacketSnapLen | forwardPacketNbCopies | forwardPacketPromisc | systemReportEnable
  | systemReportPeriod | systemReportOutputChannel | behaviourEnable | behaviourOutputDir
  | behaviourOutputFile | behaviourRetainFiles | securityEnable | securityThreadNb
  | securityExcludeRules | securityRulesMask | securityOutputChannel
  | securityReportRuleDescription | securityIngoreRemainFlow | reconstructDataFtpEnable
  | reconstructDataFtpOutputDir | reconstructDataHttpEnable | reconstructDataHttpOutputDir
  | microFlowsEnable | microFlowsPacketThreshold | microFlowsByteThreshold
  | microFlowsReportPacketCount | microFlowsReportByteCount | microFlowsReportFlowscount
  | microFlowsOutputChannel | sessionReportEnable | sessionReportFtp | sessionReportHttp
  | sessionReportRtp | sessionReportGtp | sessionReportSsl | sessionReportRttBase
  | sessionReportOutputChannel | radiusReportEnable | radiusReportMessageId
  | radiusReportOutputChannel
deriving DecidableEq, Repr

/-- `data_type_t` -/
inductive DataType where
  | noSupport | bool | uint16 | uint32 | charStar | list
deriving DecidableEq, Repr

/-- The compile-time switches on which rows of the table depend. -/
inductive BuildModule where
  | licenseCheck | tcpReassembly | needDpdk | mongodb | kafka | redis | socket | pcapDump
  | forwardPacket | security | ftpReconstruct | httpReconstruct
deriving DecidableEq, Repr

/-- A build of the probe: which modules are compiled in. -/
abbrev Build := BuildModule → Bool

/-- One row of `DECLARE_CONF_ATT`, with the `#ifdef` around it. -/
structure ConfAtt where
  number : ConfigIdentity
  ident : String
  dataType : DataType
  requires : Option BuildModule

/-- The rows of `DECLARE_CONF_ATT`, in the order of the source. -/
def declareConfAtt : List ConfAtt := [
  ⟨.none, "no-support", .noSupport, none⟩,
  ⟨.probeId, "probe-id", .uint32, none⟩,
  ⟨.stackType, "stack-type", .uint32, none⟩,
  ⟨.license, "license", .charStar, some .licenseCheck⟩,
  ⟨.statsPeriod, "stats-period", .uint16, none⟩,
  ⟨.enableProtoWithoutSessionReport, "enable-proto-without-session-report", .bool, none⟩,
  ⟨.enableIpFragementationReport, "enable-ip-fragmentation-report", .bool, none⟩,
  ⟨.enableIpDefragementation, "enable-ip-defragmentation", .bool, none⟩,
  ⟨.enableTcpReassembly, "enable-tcp-reassembly", .bool, some .tcpReassembly⟩,
  ⟨.dynConfEnable, "dynamic-config.enable", .bool, none⟩,
  ⟨.dynConfDescriptor, "dynamic-config.descriptor", .charStar, none⟩,
  ⟨.threadNb, "thread-nb", .uint16, none⟩,
  ⟨.threadQueue, "thread-queue", .uint32, none⟩,
  ⟨.inputMode, "input.mode", .uint16, none⟩,
  ⟨.inputSource, "input.source", .charStar, none⟩,
  ⟨.inputSnapLen, "input.snap-len", .uint16, none⟩,
  ⟨.inputDpdkOption, "dpdk-option", .charStar, some .needDpdk⟩,
  ⟨.outputFormat, "output.format", .uint16, none⟩,
  ⟨.outputCacheMax, "output.cache-max", .uint32, none⟩,
  ⟨.outputCachePeriod, "output.cache-period", .uint32, none⟩,
  ⟨.fileOutputEnable, "file-output.enable", .bool, none⟩,
  ⟨.fileOutputOutputFile, "file-output.output-file", .charStar, none⟩,
  ⟨.fileOutputOutputDir, "file-output.output-dir", .charStar, none⟩,
  ⟨.fileOutputRetainFiles, "file-output.sample-file", .bool, none⟩,
  ⟨.fileOutputSampleFile, "file-output.retain-files", .uint16, none⟩,
  ⟨.mongodbOutputEnable, "mongodb-output.enable", .bool, some .mongodb⟩,
  ⟨.mongodbOutputHostname, "mongodb-output.hostnam", .charStar, some .mongodb⟩,
  ⟨.mongodbOutputPort, "mongodb-output.port", .uint16, some .mongodb⟩,
  ⟨.mongodbOutputCollection, "mongodb-output.collection", .charStar, some .mongodb⟩,
  ⟨.mongodbOutputDatabase, "mongodb-output.database", .charStar, some .mongodb⟩,
  ⟨.mongodbOutputLimitSize, "mongodb-output.limit-size", .uint32, some .mongodb⟩,
  ⟨.kafkaOutputEnable, "kafka-output.enable", .bool, some .kafka⟩,
  ⟨.kafkaOutputHostname, "kafka-output.hostname", .charStar, some .kafka⟩,
  ⟨.kafkaOutputPort, "kafka-output.port", .uint16, some .kafka⟩,
  ⟨.kafkaOutputTopicname, "kafka-output.topic", .charStar, some .kafka⟩,
  ⟨.redisOutputEnable, "redis-output.enable", .bool, some .redis⟩,
  ⟨.redisOutputHostname, "redis-output.hostname", .charStar, some .redis⟩,
  ⟨.redisOutputChannelName, "redis-output.channel", .charStar, some .redis⟩,
  ⟨.redisOutputPort, "redis-output.port", .uint16, some .redis⟩,
  ⟨.socketOutputEnable, "socket-output.enable", .bool, some .socket⟩,
  ⟨.socketOutputType, "socket-output.type", .uint16, some .socket⟩,
  ⟨.socketOutputHostname, "socket-output.hostname", .charStar, some .socket⟩,
  ⟨.socketOutputPort, "socket-output.port", .uint16, some .socket⟩,
  ⟨.socketOutputDescriptor, "socket-output.descriptor", .charStar, some .socket⟩,
  ⟨.dumpPcapEnable, "dump-pcap.enable", .bool, some .pcapDump⟩,
  ⟨.dumpPcapOutputDir, "dump-pcap.output-dir", .charStar, some .pcapDump⟩,
  ⟨.dumpPcapProtocols, "dump-pcap.protocols", .list, some .pcapDump⟩,
  ⟨.dumpPcapPeriod, "dump-pcap.period", .uint16, some .pcapDump⟩,
  ⟨.dumpPcapRetainFiles, "dump-pcap.retain-files", .uint16, some .pcapDump⟩,
  ⟨.dumpPcapSnapLen, "dump-pcap.snap-len", .uint16, some .pcapDump⟩,
  ⟨.forwardPacketEnable, "forward-packet.enable", .bool, some .forwardPacket⟩,
  ⟨.forwardPacketOutputNic, "forward-packet.output-nic", .charStar, some .forwardPacket⟩,
  ⟨.forwardPacketSnapLen, "forward-packet.snap-len", .uint16, some .forwardPacket⟩,
  ⟨.forwardPacketNbCopies, "forward-packet.nb-copies", .uint32, some .forwardPacket⟩,
  ⟨.forwardPacketPromisc, "forward-packet.promisc", .uint16, some .forwardPacket⟩,
  ⟨.systemReportEnable, "system-report.enable", .bool, none⟩,
  ⟨.systemReportPeriod, "system-report.period", .uint16, none⟩,
  ⟨.systemReportOutputChannel, "system-report.output-channel", .charStar, none⟩,
  ⟨.behaviourEnable, "behaviour.enable", .bool, none⟩,
  ⟨.behaviourOutputDir, "behaviour.output-dir", .charStar, none⟩,
  ⟨.behaviourOutputFile, "behaviour.output-file", .charStar, none⟩,
  ⟨.behaviourRetainFiles, "behaviour.retain-files", .uint16, none⟩,
  ⟨.securityEnable, "security.enable", .bool, some .security⟩,
  ⟨.securityThreadNb, "security.thread-nb", .uint16, some .security⟩,
  ⟨.securityExcludeRules, "security.exclude-rules", .charStar, some .security⟩,
  ⟨.securityRulesMask, "security.rules-mask", .charStar, some .security⟩,
  ⟨.securityOutputChannel, "security.output-channel", .list, some .security⟩,
  ⟨.securityReportRuleDescription, "security.report-rule-description", .bool, some .security⟩,
  ⟨.securityIngoreRemainFlow, "security.ignore-remain-flow", .bool, some .security⟩,
  ⟨.reconstructDataFtpEnable, "reconstruct-data.ftp.enable", .bool, some .ftpReconstruct⟩,
  ⟨.reconstructDataFtpOutputDir, "reconstruct-data.ftp.output-dir",
    .charStar, some .ftpReconstruct⟩,
  ⟨.reconstructDataHttpEnable, "reconstruct-data.http.enable", .bool, some .httpReconstruct⟩,
  ⟨.reconstructDataHttpOutputDir, "reconstruct-data.http.output-dir",
    .charStar, some .httpReconstruct⟩,
  ⟨.microFlowsEnable, "micro-flows.enable", .bool, none⟩,
  ⟨.microFlowsPacketThreshold, "micro-flows.packet-threshold", .uint32, none⟩,
  ⟨.microFlowsByteThreshold, "micro-flows.byte-threshold", .uint32, none⟩,
  ⟨.microFlowsReportPacketCount, "micro-flows.report-packet-count", .uint32, none⟩,
  ⟨.microFlowsReportByteCount, "micro-flows.report-bytes-count", .uint32, none⟩,
  ⟨.microFlowsReportFlowscount, "micro-flows.report-flows-count", .uint32, none⟩,
  ⟨.microFlowsOutputChannel, "micro-flows.output-channel", .list, none⟩,
  ⟨.sessionReportEnable, "session-report.enable", .bool, none⟩,
  ⟨.sessionReportFtp, "session-report.ftp", .bool, none⟩,
  ⟨.sessionReportHttp, "session-report.http", .bool, none⟩,
  ⟨.sessionReportRtp, "session-report.rtp", .bool, none⟩,
  ⟨.sessionReportGtp, "session-report.gtp", .bool, none⟩,
  ⟨.sessionReportSsl, "session-report.ssl", .bool, none⟩,
  ⟨.sessionReportRttBase, "session-report.rtt-base", .uint16, none⟩,
  ⟨.sessionReportOutputChannel, "session-report.output-channel", .list, none⟩,
  ⟨.radiusReportEnable, "radius-report.enable", .bool, none⟩,
  ⟨.radiusReportMessageId, "radius-report.message-id", .uint16, none⟩,
  ⟨.radiusReportOutputChannel, "radius-report.output-channel", .list, none⟩]

/-- `identity_t` -/
structure Identity where
  val : Nat
  number : ConfigIdentity
  dataType : DataType
  ident : List UInt8
deriving DecidableEq, Repr

/-- The rows that a build compiles in. -/
def enabledAtts (build : Build) : List ConfAtt :=
  declareConfAtt.filter fun att => att.requires.all build

/-- The static array `identities`. The value of an enumerator is its position. -/
def identities (build : Build) : List Identity :=
  (enabledAtts build).mapIdx fun val att => ⟨val, att.number, att.dataType, bytesOf att.ident⟩

/-- `conf_get_identities`, for its returned length. -/
def confGetIdentities (build : Build) : Nat := (identities build).length

/-- `conf_get_identity_from_string` -/
def confGetIdentityFromString (build : Build) (identStr : List UInt8) : Option Identity :=
  (identities build).find? fun identity => identity.ident == identStr

/-- `conf_get_identity_from_id` -/
def confGetIdentityFromId (build : Build) (id : Nat) : Option Identity := (identities build)[id]?

/-! ## Validation of a value -/

/-- The two values of `input.mode`. -/
inductive InputMode where
  | onlineAnalysis | offlineAnalysis
deriving DecidableEq, Repr

/-- `conf_parse_input_mode` -/
def confParseInputMode (value : List UInt8) : Option InputMode :=
  if value = bytesOf "ONLINE" then some .onlineAnalysis
  else if value = bytesOf "OFFLINE" then some .offlineAnalysis
  else none

/-- Texts formatted into the static buffer of 1000 bytes are cut to fit it. -/
def errorReason (parts : List (List UInt8)) : List UInt8 := parts.flatten.take 999

/-- The loop over a number stops at the first character that is not a digit. -/
def isNotDigit (byte : UInt8) : Bool := byte < 48 || 57 < byte

/-- `conf_validate_data_value`: `none` when the value is accepted, otherwise the
reason for refusing it. -/
def confValidateDataValue (identity : Identity) (value : List UInt8) : Option (List UInt8) :=
  if identity.number = .inputMode then
    match confParseInputMode value with
    | some _ => none
    | none => some (errorReason
        [bytesOf "Unexpected value [", value, bytesOf "] for [", identity.ident, bytesOf "]"])
  else
    match identity.dataType with
    | .bool =>
        if value = bytesOf "true" then none
        else if value = bytesOf "false" then none
        else some (errorReason
          [bytesOf "Expect either 'true' or 'false' as value of '", identity.ident,
            bytesOf "' (not '", value, bytesOf "')"])
    | .uint16 | .uint32 =>
        match value.find? isNotDigit with
        -- the reason is formatted here, but 0 is returned, which means acceptance
        | some _ => none
        | none => none
    | _ => none

/-! ## What the table guarantees -/

/-- A name of a parameter: at least as long as `license`, and without a NUL, a
separator or a newline. -/
def PlainIdent (ident : List UInt8) : Prop :=
  7 ≤ ident.length ∧ ∀ byte ∈ ident, byte ≠ 0 ∧ byte ≠ 61 ∧ byte ≠ 10

instance (ident : List UInt8) : Decidable (PlainIdent ident) := inferInstanceAs (Decidable (_ ∧ _))

/-- Every name in the table is plain. -/
theorem plainIdent_of_mem {att : ConfAtt} (listed : att ∈ declareConfAtt) :
    PlainIdent (bytesOf att.ident) := by
  have hall : declareConfAtt.all (fun att => 7 ≤ (bytesOf att.ident).length &&
      (bytesOf att.ident).all fun byte => byte != 0 && (byte != 61 && byte != 10)) = true := by
    decide +kernel
  simpa [PlainIdent] using List.all_eq_true.mp hall att listed

variable {build : Build} {identity : Identity} {identStr : List UInt8}

/-- Every identity has a plain name and a number below the size of the table. -/
theorem plain_of_mem_identities (listed : identity ∈ identities build) :
    PlainIdent identity.ident ∧ identity.val < confGetIdentities build := by
  obtain ⟨position, hposition, rfl⟩ := List.mem_mapIdx.mp listed
  have hrow : (enabledAtts build)[position] ∈ declareConfAtt :=
    (List.mem_filter.mp (List.getElem_mem hposition)).1
  exact ⟨plainIdent_of_mem hrow, by simpa [confGetIdentities, identities] using hposition⟩

/-- The first row belongs to every build. -/
theorem confGetIdentities_pos (build : Build) : 0 < confGetIdentities build := by
  have hfirst : ⟨.none, "no-support", .noSupport, none⟩ ∈ enabledAtts build :=
    List.mem_filter.mpr ⟨List.mem_cons_self, rfl⟩
  simpa [confGetIdentities, identities] using List.length_pos_of_mem hfirst

/-- A build has fewer parameters than a 16-bit number can name. -/
theorem confGetIdentities_lt (build : Build) : confGetIdentities build < 2 ^ 16 := by
  have hrows : declareConfAtt.length < 2 ^ 16 := by decide +kernel
  have hfilter : (enabledAtts build).length ≤ declareConfAtt.length := List.length_filter_le _ _
  simp only [confGetIdentities, identities, List.length_mapIdx]
  omega

/-- What a successful search by name returns. -/
theorem confGetIdentityFromString_eq_some
    (found : confGetIdentityFromString build identStr = some identity) :
    identity ∈ identities build ∧ identity.ident = identStr :=
  ⟨List.mem_of_find?_eq_some found, by simpa using List.find?_some found⟩

/-- No two parameters have the same name. -/
theorem nodup_idents : (declareConfAtt.map fun att => bytesOf att.ident).Nodup := by decide +kernel

/-- Every parameter is found by its name. -/
theorem confGetIdentityFromString_ident (listed : identity ∈ identities build) :
    confGetIdentityFromString build identity.ident = some identity := by
  have hidents : (identities build).map Identity.ident =
      (enabledAtts build).map fun att => bytesOf att.ident := by
    apply List.ext_getElem
    · simp [identities]
    · intro position _ _
      simp [identities]
  have hdistinct : ((identities build).map Identity.ident).Nodup := by
    rw [hidents]
    exact nodup_idents.sublist ((List.filter_sublist ..).map _)
  cases hfind : confGetIdentityFromString build identity.ident with
  | none =>
      have hmissing := List.find?_eq_none.mp hfind identity listed
      simp at hmissing
  | some found =>
      rcases confGetIdentityFromString_eq_some hfind with ⟨hfound, hident⟩
      rw [List.inj_on_of_nodup_map hdistinct hfound listed hident]

end MmtProbe.DynamicConf
