/-
# Overriding a parameter of the configuration

`conf_override_element` finds a parameter by its name in the table of identities, and
`conf_override_element_by_id` by its number.  Both write the value through the pointer
of the table, in the type that the table gives.  That type is not always the type of the
field: two enumerations are written as 16-bit numbers, a 16-bit number as a 32-bit one,
and the output channels of the system report are taken for a text.

Executions that the language leaves undefined (a text that is NULL is compared, channels
are followed as if they were a pointer) have no result.
-/

import MmtProbe.Configure.Load
import MmtProbe.DynamicConf.Identities

namespace MmtProbe.Configure

open MmtProbe.Math
open MmtProbe.DynamicConf (ConfigIdentity Identity DataType)

/-- The third column of `DECLARE_CONF_ATT`: the field that a parameter sets. -/
def fieldOf : ConfigIdentity → Option Field
  | .none => none
  | .probeId => some (.uint32 .probeId)
  | .stackType => some (.uint32 .stackType)
  | .license => some (.text .licenseFile)
  | .statsPeriod => some (.uint16 .statPeriod)
  | .enableProtoWithoutSessionReport => some (.bool .isEnableProtoNoSessionReport)
  | .enableIpFragementationReport => some (.bool .isEnableIpFragmentationReport)
  | .enableIpDefragementation => some (.bool .isEnableIpDefragmentation)
  | .enableTcpReassembly => some (.bool .isEnableTcpReassembly)
  | .dynConfEnable => some (.bool .dynamicConfIsEnable)
  | .dynConfDescriptor => some (.text .dynamicConfDescriptor)
  | .threadNb => some (.uint16 .threadCount)
  | .threadQueue => some (.uint32 .threadQueuePacketThreshold)
  | .inputMode => some (.enum .inputMode)
  | .inputSource => some (.text .inputSource)
  | .inputSnapLen => some (.uint16 .inputSnapLen)
  | .inputDpdkOption => some (.text .dpdkOptions)
  | .outputFormat => some (.enum .outputsFormat)
  | .outputCacheMax => some (.uint32 .outputsCacheMax)
  | .outputCachePeriod => some (.uint16 .outputsCachePeriod)
  | .fileOutputEnable => some (.bool .fileIsEnable)
  | .fileOutputOutputFile => some (.text .fileFilename)
  | .fileOutputOutputDir => some (.text .fileDirectory)
  | .fileOutputRetainFiles => some (.bool .fileIsSampled)
  | .fileOutputSampleFile => some (.uint16 .fileRetainedFilesCount)
  | .mongodbOutputEnable => some (.bool .mongodbIsEnable)
  | .mongodbOutputHostname => some (.text .mongodbHostName)
  | .mongodbOutputPort => some (.uint16 .mongodbPortNumber)
  | .mongodbOutputCollection => some (.text .mongodbCollectionName)
  | .mongodbOutputDatabase => some (.text .mongodbDatabaseName)
  | .mongodbOutputLimitSize => some (.uint32 .mongodbLimitSize)
  | .kafkaOutputEnable => some (.bool .kafkaIsEnable)
  | .kafkaOutputHostname => some (.text .kafkaHostName)
  | .kafkaOutputPort => some (.uint16 .kafkaPortNumber)
  | .kafkaOutputTopicname => some (.text .kafkaTopicName)
  | .redisOutputEnable => some (.bool .redisIsEnable)
  | .redisOutputHostname => some (.text .redisHostName)
  | .redisOutputChannelName => some (.text .redisChannelName)
  | .redisOutputPort => some (.uint16 .redisPortNumber)
  | .socketOutputEnable => some (.bool .socketIsEnable)
  | .socketOutputType => some (.enum .socketType)
  | .socketOutputHostname => some (.text .socketHostName)
  | .socketOutputPort => some (.uint16 .socketPortNumber)
  | .socketOutputDescriptor => some (.text .socketUnixDescriptor)
  | .dumpPcapEnable => some (.bool .pcapDumpIsEnable)
  | .dumpPcapOutputDir => some (.text .pcapDumpDirectory)
  | .dumpPcapProtocols => some .protocols
  | .dumpPcapPeriod => some (.uint16 .pcapDumpFrequency)
  | .dumpPcapRetainFiles => some (.uint16 .pcapDumpRetainedFilesCount)
  | .dumpPcapSnapLen => some (.uint16 .pcapDumpSnapLen)
  | .forwardPacketEnable => some (.bool .forwardPacketIsEnable)
  | .forwardPacketOutputNic => some (.text .forwardPacketOutputNic)
  | .forwardPacketSnapLen => some (.uint16 .forwardPacketSnapLen)
  | .forwardPacketNbCopies => some (.uint32 .forwardPacketNbCopies)
  | .forwardPacketPromisc => some (.uint16 .forwardPacketPromisc)
  | .systemReportEnable => some (.bool .cpuMemIsEnable)
  | .systemReportPeriod => some (.uint16 .cpuMemFrequency)
  | .systemReportOutputChannel => some (.channels .cpuMem)
  | .behaviourEnable => some (.bool .behaviourIsEnable)
  | .behaviourOutputDir => some (.text .behaviourDirectory)
  | .behaviourOutputFile => some (.text .behaviourFilename)
  | .behaviourRetainFiles => some (.uint16 .behaviourRetainedFilesCount)
  | .securityEnable => some (.bool .securityIsEnable)
  | .securityThreadNb => some (.uint16 .securityThreadsSize)
  | .securityExcludeRules => some (.text .securityExcludedRules)
  | .securityRulesMask => some (.text .securityRulesMask)
  | .securityOutputChannel => some (.channels .security)
  | .securityReportRuleDescription => some (.bool .securityIsReportRuleDescription)
  | .securityIngoreRemainFlow => some (.bool .securityIgnoreRemainFlow)
  | .reconstructDataFtpEnable => some (.bool .ftpIsEnable)
  | .reconstructDataFtpOutputDir => some (.text .ftpDirectory)
  | .reconstructDataHttpEnable => some (.bool .httpIsEnable)
  | .reconstructDataHttpOutputDir => some (.text .httpDirectory)
  | .microFlowsEnable => some (.bool .microflowIsEnable)
  | .microFlowsPacketThreshold => some (.uint32 .microflowPacketThreshold)
  | .microFlowsByteThreshold => some (.uint32 .microflowByteThreshold)
  | .microFlowsReportPacketCount => some (.uint32 .microflowReportPacketsCount)
  | .microFlowsReportByteCount => some (.uint32 .microflowReportBytesCount)
  | .microFlowsReportFlowscount => some (.uint32 .microflowReportFlowsCount)
  | .microFlowsOutputChannel => some (.channels .microflow)
  | .sessionReportEnable => some (.bool .sessionIsEnable)
  | .sessionReportFtp => some (.bool .sessionIsFtp)
  | .sessionReportHttp => some (.bool .sessionIsHttp)
  | .sessionReportRtp => some (.bool .sessionIsRtp)
  | .sessionReportGtp => some (.bool .sessionIsGtp)
  | .sessionReportSsl => some (.bool .sessionIsSsl)
  | .sessionReportRttBase => some (.enum .sessionRttBase)
  | .sessionReportOutputChannel => some (.channels .session)
  | .radiusReportEnable => some (.bool .radiusIsEnable)
  | .radiusReportMessageId => some (.uint16 .radiusMessageCode)
  | .radiusReportOutputChannel => some (.channels .radius)

/-- `_parse_bool` -/
def parseBool (value : List UInt8) : Bool := value == bytesOf "true"

/-- The value of `int_val`: `atoi` or `atol` in 32 bits. -/
def intVal (value : List UInt8) : UInt32 := UInt32.ofInt (strtol value)

/-- `conf_parse_output_channel` -/
def confParseOutputChannel (confuse : Confuse) (value : List UInt8) : UInt32 :=
  match confuse.getList value with
  | none => channelFile
  | some names => parseOutputChannel names

namespace Conf

variable (confuse : Confuse) (conf : Conf)

/-- Whether the block of a field is there. -/
def reaches (field : Field) : Bool := field.block.all conf.hasBlock

/-- The case `CHAR_STAR` of `_override_element_by_ident`. -/
def overrideCharStar (field : Field) (value : List UInt8) : Option (Bool × Conf) :=
  match field with
  | .text field =>
      match conf.text field with
      | none => none
      | some old => some (if old = value then (false, conf) else (true, conf.setText field value))
  | _ => none

/-- The case `LIST`: the one for the protocols stands under the number of another
parameter, which has another type. -/
def overrideList (field : Field) (value : List UInt8) : Bool × Conf :=
  match field with
  | .channels field =>
      let intVal := confParseOutputChannel confuse value
      if intVal = conf.channels field then (false, conf) else (true, conf.setChannels field intVal)
  | _ => (false, conf)

/-- The case `BOOL`. -/
def overrideBool (field : Field) (value : List UInt8) : Bool × Conf :=
  match field with
  | .bool field =>
      if parseBool value = conf.bool field then (false, conf)
      else (true, conf.setBool field (parseBool value))
  | _ => (false, conf)

/-- The case `UINT16_T`.  Of an enumeration the low half is written. -/
def overrideUint16 (field : Field) (value : List UInt8) : Bool × Conf :=
  match field with
  | .uint16 field =>
      if intVal value = (conf.uint16 field).toUInt32 then (false, conf)
      else (true, conf.setUint16 field (intVal value).toUInt16)
  | .enum field =>
      let old := conf.enum field
      if intVal value = old.toUInt16.toUInt32 then (false, conf)
      else
        (true, conf.setEnum field (old - old.toUInt16.toUInt32 + (intVal value).toUInt16.toUInt32))
  | _ => (false, conf)

/-- The case `UINT32_T`.  For `outputs.cache_period` the bytes behind it are compared and
written too. -/
def overrideUint32 (field : Field) (value : List UInt8) : Bool × Conf :=
  match field with
  | .uint32 field =>
      if intVal value = conf.uint32 field then (false, conf)
      else (true, conf.setUint32 field (intVal value))
  | .uint16 field =>
      let old := (conf.uint16 field).toUInt32 + 65536 * conf.cachePadding.toUInt32
      if intVal value = old then (false, conf)
      else
        (true, { conf.setUint16 field (intVal value).toUInt16 with
          cachePadding := (intVal value >>> 16).toUInt16 })
  | _ => (false, conf)

/-- The cases of `_override_element_by_ident` for symbolic values. -/
def overrideEnum (field : EnumField) (value : List UInt8) : Bool × Conf :=
  match field.parse value with
  | none => (false, conf)
  | some enumVal => (true, conf.setEnum field enumVal)

/-- `_override_element_by_ident`, when the pointer of the table can be followed. -/
def overrideField (number : ConfigIdentity) (dataType : DataType) (field : Field)
    (value : List UInt8) : Option (Bool × Conf) :=
  if number = .inputMode then some (conf.overrideEnum .inputMode value)
  else if number = .sessionReportRttBase then some (conf.overrideEnum .sessionRttBase value)
  else
    match dataType with
    | .noSupport => some (false, conf)
    | .charStar => conf.overrideCharStar field value
    | .list => some (conf.overrideList confuse field value)
    | .bool => some (conf.overrideBool field value)
    | .uint16 => some (conf.overrideUint16 field value)
    | .uint32 => some (conf.overrideUint32 field value)

/-- `_override_element_by_ident`: whether a field was changed, and the configuration.
Without its block, `is_enable` has the address NULL, and a directory one that cannot be
read. -/
def overrideElementByIdent (identity : Identity) (value : List UInt8) : Option (Bool × Conf) :=
  match fieldOf identity.number with
  | none => some (false, conf)
  | some field =>
      if conf.reaches field then
        conf.overrideField confuse identity.number identity.dataType field value
      else
        match field with
        | .bool _ => some (false, conf)
        | _ => none

/-- `conf_override_element` -/
def overrideElement (build : DynamicConf.Build) (ident value : List UInt8) :
    Option (Int × Conf) :=
  match DynamicConf.confGetIdentityFromString build ident with
  | none => some (-1, conf)
  | some identity =>
      (conf.overrideElementByIdent confuse identity value).map fun result =>
        (if result.1 then 0 else 1, result.2)

/-- `conf_override_element_by_id` -/
def overrideElementById (build : DynamicConf.Build) (identVal : Nat) (value : List UInt8) :
    Option (Bool × Conf) :=
  match DynamicConf.confGetIdentityFromId build identVal with
  | none => some (false, conf)
  | some identity => conf.overrideElementByIdent confuse identity value

/-! ## The effect of an override -/

/-- What is written into the field of a parameter: the value in the type of the field,
whether it is another one or not. -/
def write (field : Field) (value : List UInt8) : Option Conf :=
  match field with
  | .bool field => some (conf.setBool field (parseBool value))
  | .uint16 .outputsCachePeriod =>
      some { conf.setUint16 .outputsCachePeriod (intVal value).toUInt16 with
        cachePadding := (intVal value >>> 16).toUInt16 }
  | .uint16 field => some (conf.setUint16 field (intVal value).toUInt16)
  | .uint32 field => some (conf.setUint32 field (intVal value))
  | .enum .inputMode => some (conf.overrideEnum .inputMode value).2
  | .enum .sessionRttBase => some (conf.overrideEnum .sessionRttBase value).2
  | .enum field =>
      some (conf.setEnum field (conf.enum field - (conf.enum field).toUInt16.toUInt32 +
        (intVal value).toUInt16.toUInt32))
  | .text field => if (conf.text field).isSome then some (conf.setText field value) else none
  | .channels .cpuMem => none
  | .channels field => some (conf.setChannels field (confParseOutputChannel confuse value))
  | .protocols => some conf

end Conf

/-- The types in which the table lists the fields. -/
def Field.isListedAs : Field → DataType → Bool
  | .bool _, .bool => true
  | .uint16 .outputsCachePeriod, .uint32 => true
  | .uint16 .outputsCachePeriod, _ => false
  | .uint16 _, .uint16 => true
  | .uint32 _, .uint32 => true
  | .enum _, .uint16 => true
  | .text _, .charStar => true
  | .channels .cpuMem, .charStar => true
  | .channels .cpuMem, _ => false
  | .channels _, .list => true
  | .protocols, .list => true
  | _, _ => false

/-- Every row of the table has one of these types, and only the first has no field. -/
theorem isListedAs_of_mem {att : DynamicConf.ConfAtt} (listed : att ∈ DynamicConf.declareConfAtt) :
    (fieldOf att.number = none ∧ att.dataType = .noSupport) ∨
      ∃ field, fieldOf att.number = some field ∧ field.isListedAs att.dataType = true := by
  have hall : ∀ att ∈ DynamicConf.declareConfAtt,
      (fieldOf att.number).elim (decide (att.dataType = .noSupport))
        (·.isListedAs att.dataType) = true := by decide +kernel
  have hatt := hall att listed
  cases hfield : fieldOf att.number with
  | none =>
      rw [hfield] at hatt
      exact .inl ⟨rfl, of_decide_eq_true hatt⟩
  | some field =>
      rw [hfield] at hatt
      exact .inr ⟨field, rfl, hatt⟩

/-- The row of the table from which an identity comes. -/
theorem isListedAs_of_mem_identities {build : DynamicConf.Build} {identity : Identity}
    (listed : identity ∈ DynamicConf.identities build) :
    (fieldOf identity.number = none ∧ identity.dataType = .noSupport) ∨
      ∃ field, fieldOf identity.number = some field ∧
        field.isListedAs identity.dataType = true := by
  rcases List.mem_mapIdx.mp listed with ⟨position, hposition, rfl⟩
  have hrow : (DynamicConf.enabledAtts build)[position] ∈ DynamicConf.declareConfAtt :=
    (List.mem_filter.mp (List.getElem_mem hposition)).1
  exact isListedAs_of_mem hrow

namespace Conf

variable {confuse : Confuse} {conf : Conf} {value : List UInt8}

theorem setBool_eq_self {field : BoolField} {flag : Bool} (same : flag = conf.bool field) :
    conf.setBool field flag = conf := by
  rw [setBool, same, Function.update_eq_self]

theorem setUint16_eq_self {field : Uint16Field} {number : UInt16}
    (same : number = conf.uint16 field) : conf.setUint16 field number = conf := by
  rw [setUint16, same, Function.update_eq_self]

theorem setUint32_eq_self {field : Uint32Field} {number : UInt32}
    (same : number = conf.uint32 field) : conf.setUint32 field number = conf := by
  rw [setUint32, same, Function.update_eq_self]

theorem setEnum_eq_self {field : EnumField} {number : UInt32}
    (same : number = conf.enum field) : conf.setEnum field number = conf := by
  rw [setEnum, same, Function.update_eq_self]

theorem setText_eq_self {field : TextField} {text : List UInt8}
    (same : some text = conf.text field) : conf.setText field text = conf := by
  rw [setText, same, Function.update_eq_self]

theorem setChannels_eq_self {field : ChannelField} {number : UInt32}
    (same : number = conf.channels field) : conf.setChannels field number = conf := by
  rw [setChannels, same, Function.update_eq_self]

theorem overrideBool_snd (field : BoolField) :
    (conf.overrideBool (.bool field) value).2 = conf.setBool field (parseBool value) := by
  simp only [overrideBool]
  split_ifs with hsame
  · exact (setBool_eq_self hsame).symm
  · rfl

theorem overrideUint16_snd (field : Uint16Field) :
    (conf.overrideUint16 (.uint16 field) value).2 =
      conf.setUint16 field (intVal value).toUInt16 := by
  simp only [overrideUint16]
  split_ifs with hsame
  · refine (setUint16_eq_self ?_).symm
    rw [hsame, UInt16.toUInt16_toUInt32]
  · rfl

theorem overrideUint16_enum_snd (field : EnumField) :
    (conf.overrideUint16 (.enum field) value).2 =
      conf.setEnum field (conf.enum field - (conf.enum field).toUInt16.toUInt32 +
        (intVal value).toUInt16.toUInt32) := by
  simp only [overrideUint16]
  split_ifs with hsame
  · refine (setEnum_eq_self ?_).symm
    rw [hsame, UInt16.toUInt16_toUInt32, UInt32.sub_add_cancel]
  · rfl

theorem overrideUint32_snd (field : Uint32Field) :
    (conf.overrideUint32 (.uint32 field) value).2 = conf.setUint32 field (intVal value) := by
  simp only [overrideUint32]
  split_ifs with hsame
  · exact (setUint32_eq_self hsame).symm
  · rfl

theorem overrideList_snd (field : ChannelField) :
    (conf.overrideList confuse (.channels field) value).2 =
      conf.setChannels field (confParseOutputChannel confuse value) := by
  simp only [overrideList]
  split_ifs with hsame
  · exact (setChannels_eq_self hsame).symm
  · rfl

/-- The two halves of a 32-bit number. -/
theorem halves_eq (low high : UInt16) :
    (low.toUInt32 + 65536 * high.toUInt32).toUInt16 = low ∧
      ((low.toUInt32 + 65536 * high.toUInt32) >>> 16).toUInt16 = high := by
  have hlow := low.toNat_lt
  have hhigh := high.toNat_lt
  have hsum : (low.toUInt32 + 65536 * high.toUInt32).toNat = low.toNat + 65536 * high.toNat := by
    rw [UInt32.toNat_add, UInt32.toNat_mul, UInt16.toNat_toUInt32, UInt16.toNat_toUInt32]
    change (low.toNat + 65536 * high.toNat % 2 ^ 32) % 2 ^ 32 = _
    omega
  constructor
  · apply UInt16.toNat_inj.mp
    rw [UInt32.toNat_toUInt16, hsum]
    omega
  · apply UInt16.toNat_inj.mp
    rw [UInt32.toNat_toUInt16, UInt32.toNat_shiftRight, hsum]
    change (low.toNat + 65536 * high.toNat) >>> 16 % 2 ^ 16 = _
    rw [Nat.shiftRight_eq_div_pow]
    omega

theorem overrideUint32_cachePeriod_snd :
    (conf.overrideUint32 (.uint16 .outputsCachePeriod) value).2 =
      { conf.setUint16 .outputsCachePeriod (intVal value).toUInt16 with
        cachePadding := (intVal value >>> 16).toUInt16 } := by
  simp only [overrideUint32]
  split_ifs with hsame
  · have hhalves := halves_eq (conf.uint16 .outputsCachePeriod) conf.cachePadding
    rw [← hsame] at hhalves
    rw [hhalves.1, hhalves.2, setUint16_eq_self rfl]
  · rfl

theorem overrideCharStar_map_snd (field : TextField) :
    (conf.overrideCharStar (.text field) value).map Prod.snd =
      if (conf.text field).isSome then some (conf.setText field value) else none := by
  simp only [overrideCharStar]
  cases htext : conf.text field with
  | none => rfl
  | some old =>
      simp only [Option.map_some, Option.isSome_some, if_true, Option.some.injEq]
      split_ifs with hsame
      · exact (setText_eq_self (by rw [htext, hsame])).symm
      · rfl

/-- The two symbolic parameters that are read as such. -/
theorem eq_of_fieldOf_enum {number : ConfigIdentity} :
    (fieldOf number = some (.enum .inputMode) → number = .inputMode) ∧
      (fieldOf number = some (.enum .sessionRttBase) → number = .sessionReportRttBase) := by
  cases number <;> exact ⟨by decide, by decide⟩

/-- All 16-bit numbers but one are listed with their own width. -/
theorem write_uint16_of_ne {field : Uint16Field} (other : field ≠ .outputsCachePeriod) :
    conf.write confuse (.uint16 field) value =
      some (conf.setUint16 field (intVal value).toUInt16) := by
  cases field <;> first | exact absurd rfl other | rfl

/-- All output channels but those of the system report are listed as lists. -/
theorem write_channels_of_ne {field : ChannelField} (other : field ≠ .cpuMem) :
    conf.write confuse (.channels field) value =
      some (conf.setChannels field (confParseOutputChannel confuse value)) := by
  cases field <;> first | exact absurd rfl other | rfl

/-- An override through the table writes the field of the parameter. -/
theorem overrideField_map_snd {number : ConfigIdentity} {dataType : DataType} {field : Field}
    (target : fieldOf number = some field) (listed : field.isListedAs dataType = true) :
    (conf.overrideField confuse number dataType field value).map Prod.snd =
      conf.write confuse field value := by
  unfold overrideField
  by_cases hmode : number = .inputMode
  · rw [hmode] at target
    cases target
    rw [if_pos hmode]
    rfl
  by_cases hbase : number = .sessionReportRttBase
  · rw [hbase] at target
    cases target
    rw [if_neg hmode, if_pos hbase]
    rfl
  rw [if_neg hmode, if_neg hbase]
  cases field with
  | bool field =>
      cases dataType <;> first | exact absurd listed Bool.false_ne_true | skip
      exact congrArg some (overrideBool_snd field)
  | uint16 field =>
      by_cases hperiod : field = .outputsCachePeriod
      · rw [hperiod] at listed ⊢
        cases dataType <;> first | exact absurd listed Bool.false_ne_true | skip
        exact congrArg some overrideUint32_cachePeriod_snd
      · have hlisted : Field.isListedAs (.uint16 field) dataType = (dataType == .uint16) := by
          cases field <;> first | exact absurd rfl hperiod | (cases dataType <;> rfl)
        rw [hlisted] at listed
        rw [write_uint16_of_ne hperiod, eq_of_beq listed]
        exact congrArg some (overrideUint16_snd field)
  | uint32 field =>
      cases dataType <;> first | exact absurd listed Bool.false_ne_true | skip
      exact congrArg some (overrideUint32_snd field)
  | enum field =>
      cases dataType <;> first | exact absurd listed Bool.false_ne_true | skip
      cases field with
      | inputMode => exact absurd (eq_of_fieldOf_enum.1 target) hmode
      | sessionRttBase => exact absurd (eq_of_fieldOf_enum.2 target) hbase
      | outputsFormat => exact congrArg some (overrideUint16_enum_snd .outputsFormat)
      | socketType => exact congrArg some (overrideUint16_enum_snd .socketType)
  | text field =>
      cases dataType <;> first | exact absurd listed Bool.false_ne_true | skip
      exact overrideCharStar_map_snd field
  | channels field =>
      by_cases hcpuMem : field = .cpuMem
      · rw [hcpuMem] at listed ⊢
        cases dataType <;> first | exact absurd listed Bool.false_ne_true | rfl
      · have hlisted : Field.isListedAs (.channels field) dataType = (dataType == .list) := by
          cases field <;> first | exact absurd rfl hcpuMem | (cases dataType <;> rfl)
        rw [hlisted] at listed
        rw [write_channels_of_ne hcpuMem, eq_of_beq listed]
        exact congrArg some (overrideList_snd field)
  | protocols =>
      cases dataType <;> first | exact absurd listed Bool.false_ne_true | rfl

/-- What an override leaves: the configuration as it was when the parameter has no field
or its block is missing, and otherwise what is written into the field. -/
theorem overrideElementByIdent_map_snd {build : DynamicConf.Build} {identity : Identity}
    (listed : identity ∈ DynamicConf.identities build) :
    (conf.overrideElementByIdent confuse identity value).map Prod.snd =
      match fieldOf identity.number with
      | none => some conf
      | some field =>
          if conf.reaches field then conf.write confuse field value
          else match field with
            | .bool _ => some conf
            | _ => none := by
  unfold overrideElementByIdent
  rcases isListedAs_of_mem_identities listed with ⟨hnone, -⟩ | ⟨field, hfield, htype⟩
  · rw [hnone]
    rfl
  · simp only [hfield]
    split_ifs
    · exact overrideField_map_snd hfield htype
    · cases field <;> rfl

/-- A symbolic value is written into its own field only. -/
theorem overrideEnum_frame (field : EnumField) (value : List UInt8) :
    (∀ beside, beside ≠ .enum field →
        (conf.overrideEnum field value).2.cell beside = conf.cell beside) ∧
      (conf.overrideEnum field value).2.hasBlock = conf.hasBlock := by
  unfold overrideEnum
  split
  · exact ⟨fun _ _ => rfl, rfl⟩
  · exact ⟨fun _ apart => setEnum_cell_of_ne apart _, rfl⟩

/-- A parameter is written into its own field only. -/
theorem write_frame {target : Conf} {field : Field}
    (written : conf.write confuse field value = some target) :
    (∀ beside, beside ≠ field → target.cell beside = conf.cell beside) ∧
      target.hasBlock = conf.hasBlock := by
  cases field with
  | bool field =>
      cases written
      exact ⟨fun _ apart => setBool_cell_of_ne apart _, rfl⟩
  | uint16 field =>
      by_cases hperiod : field = .outputsCachePeriod
      · rw [hperiod] at written ⊢
        cases written
        refine ⟨?_, rfl⟩
        intro beside apart
        rw [padding_cell]
        exact setUint16_cell_of_ne apart _
      · rw [write_uint16_of_ne hperiod] at written
        cases written
        exact ⟨fun _ apart => setUint16_cell_of_ne apart _, rfl⟩
  | uint32 field =>
      cases written
      exact ⟨fun _ apart => setUint32_cell_of_ne apart _, rfl⟩
  | enum field =>
      cases field with
      | inputMode =>
          cases written
          exact overrideEnum_frame .inputMode value
      | sessionRttBase =>
          cases written
          exact overrideEnum_frame .sessionRttBase value
      | outputsFormat | socketType =>
          cases written
          exact ⟨fun _ apart => setEnum_cell_of_ne apart _, rfl⟩
  | text field =>
      simp only [write] at written
      split_ifs at written
      cases written
      exact ⟨fun _ apart => setText_cell_of_ne apart _, rfl⟩
  | channels field =>
      by_cases hcpuMem : field = .cpuMem
      · rw [hcpuMem] at written
        cases written
      · rw [write_channels_of_ne hcpuMem] at written
        cases written
        exact ⟨fun _ apart => setChannels_cell_of_ne apart _, rfl⟩
  | protocols =>
      cases written
      exact ⟨fun _ _ => rfl, rfl⟩

/-- Only a parameter with a field of type `bool` changes such a field. -/
theorem write_bool {target : Conf} {field : Field} (other : ∀ flag, field ≠ .bool flag)
    (written : conf.write confuse field value = some target) : target.bool = conf.bool := by
  funext flag
  exact Cell.bool.inj ((write_frame written).1 (.bool flag) (other flag).symm)

/-- What an override does to the fields of type `bool`. -/
theorem overrideElementByIdent_bool {build : DynamicConf.Build} {identity : Identity}
    {target : Conf} (listed : identity ∈ DynamicConf.identities build)
    (applied : (conf.overrideElementByIdent confuse identity value).map Prod.snd = some target) :
    (target.bool = conf.bool ∧ ∀ field, fieldOf identity.number = some (.bool field) →
        conf.reaches (.bool field) = false) ∨
      ∃ field, fieldOf identity.number = some (.bool field) ∧
        target.bool = Function.update conf.bool field (parseBool value) := by
  rw [overrideElementByIdent_map_snd listed] at applied
  cases hfield : fieldOf identity.number with
  | none =>
      rw [hfield] at applied
      cases applied
      exact .inl ⟨rfl, fun _ => nofun⟩
  | some field =>
      simp only [hfield] at applied
      cases field with
      | bool flag =>
          split_ifs at applied with hreaches
          · cases applied
            exact .inr ⟨flag, rfl, rfl⟩
          · cases applied
            refine .inl ⟨rfl, ?_⟩
            rintro _ ⟨⟩
            exact Bool.not_eq_true _ ▸ hreaches
      | uint16 _ | uint32 _ | enum _ | text _ | channels _ | protocols =>
          refine .inl ⟨?_, by simp⟩
          split_ifs at applied with hreaches
          exact write_bool (by simp) applied

end Conf

end MmtProbe.Configure
