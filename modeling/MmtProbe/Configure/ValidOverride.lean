/-
# Overrides of a validated configuration

`conf_validate` relates several fields; an override writes one of them and does not
validate again.  `Valid` spells out what it means that `conf_validate` finds no error and
changes nothing, and `KeepsValid` says, field by field, for which values an override of a
valid configuration leaves a valid one.
-/

import MmtProbe.Configure.Override
import MmtProbe.Configure.Validate
import MmtProbe.Math.Word
import Mathlib.Tactic.MkIffOfInductiveProp

namespace MmtProbe.Configure

open MmtProbe.Math
open MmtProbe.DynamicConf (Identity)

/-! ## Validation of the whole configuration -/

/-- The modules of a build of which `conf_validate` knows. -/
def validationBuild (build : DynamicConf.Build) (dpdkCapture qos : Bool) : Build where
  forwardPacketModule := build .forwardPacket
  securityModule := build .security
  tcpReassemblyModule := build .tcpReassembly
  ftpReconstructModule := build .ftpReconstruct
  httpReconstructModule := build .httpReconstruct
  dpdkCaptureModule := dpdkCapture
  qosModule := qos

namespace Conf

/-- The part of the configuration that `conf_validate` reads.  All the blocks but those of
`reconstruct-data` are there. -/
def checked (conf : Conf) : ProbeConf where
  forwardPacketIsEnable := conf.bool .forwardPacketIsEnable
  forwardPacketNbCopies := conf.uint32 .forwardPacketNbCopies
  securityIsEnable := conf.bool .securityIsEnable
  microflow := some {
    isEnable := conf.bool .microflowIsEnable
    packetThreshold := conf.uint32 .microflowPacketThreshold
    byteThreshold := conf.uint32 .microflowByteThreshold
    reportPacketsCount := conf.uint32 .microflowReportPacketsCount
    reportBytesCount := conf.uint32 .microflowReportBytesCount
    reportFlowsCount := conf.uint32 .microflowReportFlowsCount }
  pcapDumpFrequency := some (conf.uint16 .pcapDumpFrequency)
  session := {
    isEnable := conf.bool .sessionIsEnable
    isFtp := conf.bool .sessionIsFtp
    isHttp := conf.bool .sessionIsHttp
    isSsl := conf.bool .sessionIsSsl
    isRtp := conf.bool .sessionIsRtp
    isGtp := conf.bool .sessionIsGtp
    rttBase :=
      if conf.enum .sessionRttBase = 1 then .sender
      else if conf.enum .sessionRttBase = 2 then .captor
      else .preferSender }
  behaviourIsEnable := conf.bool .behaviourIsEnable
  isEnableIpDefragmentation := conf.bool .isEnableIpDefragmentation
  isEnableTcpReassembly := conf.bool .isEnableTcpReassembly
  ftpReconstructIsEnable := conf.bool .ftpIsEnable
  httpReconstructIsEnable := conf.bool .httpIsEnable
  inputMode := if conf.enum .inputMode = 1 then .offlineAnalysis else .onlineAnalysis
  threadCount := conf.uint16 .threadCount
  threadQueuePacketThreshold := conf.uint32 .threadQueuePacketThreshold

/-- The fields that `conf_validate` writes. -/
def stored (conf : Conf) (result : ProbeConf) : Conf :=
  { conf with
    uint32 := fun
      | .microflowReportBytesCount =>
          result.microflow.elim (conf.uint32 .microflowReportBytesCount) (·.reportBytesCount)
      | .microflowByteThreshold =>
          result.microflow.elim (conf.uint32 .microflowByteThreshold) (·.byteThreshold)
      | field => conf.uint32 field
    uint16 := fun
      | .pcapDumpFrequency => result.pcapDumpFrequency.getD (conf.uint16 .pcapDumpFrequency)
      | field => conf.uint16 field }

/-- A missing `reconstruct-data` block is looked into. -/
def followsNull (build : Build) (conf : Conf) : Bool :=
  !conf.bool .isEnableTcpReassembly &&
    (build.ftpReconstructModule && !conf.hasBlock .ftp ||
      build.httpReconstructModule && !conf.hasBlock .http)

/-- `conf_validate` on the whole configuration: the number of errors, and the
configuration afterwards.  It does not return after a failed assertion, or when it
follows a NULL. -/
def validate (build : Build) (conf : Conf) : Option (Nat × Conf) :=
  if conf.followsNull build then none
  else (confValidate build conf.checked).map fun result => (result.1, conf.stored result.2)

/-- What `conf_validate` asks for. -/
@[mk_iff]
structure Valid (build : Build) (conf : Conf) : Prop where
  forward : build.forwardPacketModule = true → conf.bool .forwardPacketIsEnable = true →
    build.securityModule = true ∧ conf.bool .securityIsEnable = true ∧
      conf.uint32 .forwardPacketNbCopies ≠ 0
  reportBytes : conf.uint32 .microflowReportBytesCount ≠ 0
  byteThreshold : conf.uint32 .microflowByteThreshold ≠ 0
  dumpPeriod : conf.uint16 .pcapDumpFrequency ≠ 0
  gtp : conf.bool .sessionIsEnable = true → conf.bool .sessionIsGtp = true →
    conf.bool .sessionIsHttp = false ∧ conf.bool .sessionIsSsl = false ∧
      conf.bool .sessionIsFtp = false ∧ conf.bool .sessionIsRtp = false
  behaviour : conf.bool .behaviourIsEnable = true → conf.bool .sessionIsEnable = true
  reassembly : build.tcpReassemblyModule = true → conf.bool .isEnableTcpReassembly = true →
    conf.bool .isEnableIpDefragmentation = true
  ftp : build.ftpReconstructModule = true → conf.bool .isEnableTcpReassembly = false →
    conf.hasBlock .ftp = true ∧ conf.bool .ftpIsEnable = false
  http : build.httpReconstructModule = true → conf.bool .isEnableTcpReassembly = false →
    conf.hasBlock .http = true ∧ conf.bool .httpIsEnable = false
  dpdk : build.dpdkCaptureModule = true → conf.enum .inputMode ≠ 1 ∧
    conf.uint16 .threadCount ≠ 0 ∧
      isPowerOfTwo (conf.uint32 .threadQueuePacketThreshold).toUInt64 = true

/-- The values that a parameter may get in a valid configuration. -/
def KeepsValid (build : Build) (conf : Conf) (value : List UInt8) : Field → Prop
  | .bool .forwardPacketIsEnable =>
      parseBool value = true → build.forwardPacketModule = true →
        build.securityModule = true ∧ conf.bool .securityIsEnable = true ∧
          conf.uint32 .forwardPacketNbCopies ≠ 0
  | .bool .securityIsEnable =>
      parseBool value = false → build.forwardPacketModule = true →
        conf.bool .forwardPacketIsEnable = false
  | .uint32 .forwardPacketNbCopies =>
      intVal value = 0 → build.forwardPacketModule = true →
        conf.bool .forwardPacketIsEnable = false
  | .uint32 .microflowReportBytesCount | .uint32 .microflowByteThreshold => intVal value ≠ 0
  | .uint16 .pcapDumpFrequency => (intVal value).toUInt16 ≠ 0
  | .bool .sessionIsEnable =>
      (parseBool value = true → conf.bool .sessionIsGtp = true →
        conf.bool .sessionIsHttp = false ∧ conf.bool .sessionIsSsl = false ∧
          conf.bool .sessionIsFtp = false ∧ conf.bool .sessionIsRtp = false) ∧
        (parseBool value = false → conf.bool .behaviourIsEnable = false)
  | .bool .sessionIsGtp =>
      parseBool value = true → conf.bool .sessionIsEnable = true →
        conf.bool .sessionIsHttp = false ∧ conf.bool .sessionIsSsl = false ∧
          conf.bool .sessionIsFtp = false ∧ conf.bool .sessionIsRtp = false
  | .bool .sessionIsHttp | .bool .sessionIsSsl | .bool .sessionIsFtp | .bool .sessionIsRtp =>
      parseBool value = true → conf.bool .sessionIsEnable = true →
        conf.bool .sessionIsGtp = false
  | .bool .behaviourIsEnable => parseBool value = true → conf.bool .sessionIsEnable = true
  | .bool .isEnableIpDefragmentation =>
      parseBool value = false → build.tcpReassemblyModule = true →
        conf.bool .isEnableTcpReassembly = false
  | .bool .isEnableTcpReassembly =>
      (parseBool value = true → build.tcpReassemblyModule = true →
        conf.bool .isEnableIpDefragmentation = true) ∧
        (parseBool value = false →
          (build.ftpReconstructModule = true →
            conf.hasBlock .ftp = true ∧ conf.bool .ftpIsEnable = false) ∧
          (build.httpReconstructModule = true →
            conf.hasBlock .http = true ∧ conf.bool .httpIsEnable = false))
  | .bool .ftpIsEnable =>
      parseBool value = true → build.ftpReconstructModule = true →
        conf.bool .isEnableTcpReassembly = true
  | .bool .httpIsEnable =>
      parseBool value = true → build.httpReconstructModule = true →
        conf.bool .isEnableTcpReassembly = true
  | .enum .inputMode =>
      build.dpdkCaptureModule = true → EnumField.parse .inputMode value ≠ some 1
  | .uint16 .threadCount => build.dpdkCaptureModule = true → (intVal value).toUInt16 ≠ 0
  | .uint32 .threadQueuePacketThreshold =>
      build.dpdkCaptureModule = true → isPowerOfTwo (intVal value).toUInt64 = true
  | _ => True

variable {build : Build} {conf target : Conf} {confuse : Confuse} {value : List UInt8}

/-- Texts, channels and protocols do not matter. -/
theorem Valid.frame (valid : conf.Valid build) (bool : target.bool = conf.bool)
    (uint16 : target.uint16 = conf.uint16) (uint32 : target.uint32 = conf.uint32)
    (enum : target.enum = conf.enum) (hasBlock : target.hasBlock = conf.hasBlock) :
    target.Valid build := by
  rw [valid_iff] at valid ⊢
  rw [bool, uint16, uint32, enum, hasBlock]
  exact valid

theorem setBool_valid_iff (valid : conf.Valid build) (field : BoolField) :
    (conf.setBool field (parseBool value)).Valid build ↔
      conf.KeepsValid build value (.bool field) := by
  rw [valid_iff] at valid ⊢
  cases field <;>
    simp only [setBool, Function.update_apply, reduceCtorEq, if_true, if_false, KeepsValid] <;>
    grind

theorem setUint16_valid_iff (valid : conf.Valid build) (field : Uint16Field) (padding : UInt16) :
    ({ conf.setUint16 field (intVal value).toUInt16 with cachePadding := padding }).Valid build ↔
      conf.KeepsValid build value (.uint16 field) := by
  rw [valid_iff] at valid ⊢
  cases field <;>
    simp only [setUint16, Function.update_apply, reduceCtorEq, if_true, if_false, KeepsValid] <;>
    grind

theorem setUint32_valid_iff (valid : conf.Valid build) (field : Uint32Field) :
    (conf.setUint32 field (intVal value)).Valid build ↔
      conf.KeepsValid build value (.uint32 field) := by
  rw [valid_iff] at valid ⊢
  cases field <;>
    simp only [setUint32, Function.update_apply, reduceCtorEq, if_true, if_false, KeepsValid] <;>
    grind

theorem setEnum_valid_iff (valid : conf.Valid build) (field : EnumField) (number : UInt32) :
    (conf.setEnum field number).Valid build ↔
      (field = .inputMode → build.dpdkCaptureModule = true → number ≠ 1) := by
  rw [valid_iff] at valid ⊢
  cases field <;>
    simp only [setEnum, Function.update_apply, reduceCtorEq, if_true, if_false] <;>
    grind

theorem overrideEnum_valid_iff (valid : conf.Valid build) (field : EnumField) :
    (conf.overrideEnum field value).2.Valid build ↔
      (field = .inputMode → build.dpdkCaptureModule = true → field.parse value ≠ some 1) := by
  unfold overrideEnum
  cases hparse : field.parse value with
  | none => exact iff_of_true valid fun _ _ => nofun
  | some number =>
      rw [setEnum_valid_iff valid]
      simp only [ne_eq, Option.some.injEq]

/-- What is written into one field keeps a valid configuration valid exactly under the
condition on that field. -/
theorem write_valid_iff (valid : conf.Valid build) {field : Field}
    (written : conf.write confuse field value = some target) :
    target.Valid build ↔ conf.KeepsValid build value field := by
  cases field with
  | bool field =>
      cases written
      exact setBool_valid_iff valid field
  | uint16 field =>
      by_cases hperiod : field = .outputsCachePeriod
      · rw [hperiod] at written ⊢
        cases written
        exact setUint16_valid_iff valid _ _
      · rw [write_uint16_of_ne hperiod] at written
        cases written
        exact setUint16_valid_iff valid field conf.cachePadding
  | uint32 field =>
      cases written
      exact setUint32_valid_iff valid field
  | enum field =>
      cases field with
      | inputMode =>
          cases written
          rw [overrideEnum_valid_iff valid]
          exact ⟨fun hmode => hmode rfl, fun hmode _ => hmode⟩
      | sessionRttBase =>
          cases written
          rw [overrideEnum_valid_iff valid]
          exact iff_of_true nofun trivial
      | outputsFormat =>
          cases written
          rw [setEnum_valid_iff valid]
          exact iff_of_true nofun trivial
      | socketType =>
          cases written
          rw [setEnum_valid_iff valid]
          exact iff_of_true nofun trivial
  | text field =>
      simp only [write] at written
      split_ifs at written
      cases written
      exact iff_of_true (valid.frame rfl rfl rfl rfl rfl) trivial
  | channels field =>
      cases field <;> cases written
      all_goals exact iff_of_true (valid.frame rfl rfl rfl rfl rfl) trivial
  | protocols =>
      cases written
      exact iff_of_true valid trivial

/-- The condition on an override: it is one on the field of the parameter, when that
field is there. -/
def KeepsValidBy (build : Build) (conf : Conf) (identity : Identity) (value : List UInt8) : Prop :=
  ∀ field, fieldOf identity.number = some field → conf.reaches field = true →
    conf.KeepsValid build value field

theorem overrideElementByIdent_valid_iff {table : DynamicConf.Build} {identity : Identity}
    (valid : conf.Valid build) (listed : identity ∈ DynamicConf.identities table)
    (applied : (conf.overrideElementByIdent confuse identity value).map Prod.snd = some target) :
    target.Valid build ↔ conf.KeepsValidBy build identity value := by
  rw [overrideElementByIdent_map_snd listed] at applied
  unfold KeepsValidBy
  cases hfield : fieldOf identity.number with
  | none =>
      rw [hfield] at applied
      cases applied
      exact iff_of_true valid fun _ => nofun
  | some field =>
      simp only [hfield] at applied
      simp only [Option.some.injEq, forall_eq']
      by_cases hreaches : conf.reaches field = true
      · rw [if_pos hreaches] at applied
        rw [forall_prop_of_true hreaches]
        exact write_valid_iff valid applied
      · rw [if_neg hreaches] at applied
        refine iff_of_true ?_ fun hreached => absurd hreached hreaches
        cases field <;> cases applied
        exact valid

/-! ## `Valid` is what `conf_validate` finds -/

/-- The configuration with the defaults for limits that are zero. -/
def withDefaults (conf : Conf) : Conf :=
  conf.stored { conf.checked with
    microflow := conf.checked.microflow.map MicroFlowConf.defaults
    pcapDumpFrequency := conf.checked.pcapDumpFrequency.map fun f => if f = 0 then 3600 else f }

/-- Nothing is changed when the three limits are not zero. -/
theorem withDefaults_eq_self_iff (conf : Conf) :
    conf.withDefaults = conf ↔
      conf.uint32 .microflowReportBytesCount ≠ 0 ∧ conf.uint32 .microflowByteThreshold ≠ 0 ∧
        conf.uint16 .pcapDumpFrequency ≠ 0 := by
  have hmax : int32Max ≠ 0 := by decide
  have hhour : (3600 : UInt16) ≠ 0 := by decide
  have hbytes := ite_zero_eq_self_iff (conf.uint32 .microflowReportBytesCount) hmax
  have hthreshold := ite_zero_eq_self_iff (conf.uint32 .microflowByteThreshold) hmax
  have hperiod := ite_zero_eq_self_iff (conf.uint16 .pcapDumpFrequency) hhour
  rw [← hbytes, ← hthreshold, ← hperiod]
  constructor
  · intro hself
    have huint32 := congrArg Conf.uint32 hself
    exact ⟨congrFun huint32 .microflowReportBytesCount, congrFun huint32 .microflowByteThreshold,
      congrFun (congrArg Conf.uint16 hself) .pcapDumpFrequency⟩
  · rintro ⟨hbytes, hthreshold, hperiod⟩
    apply Conf.ext <;> first | rfl | skip
    · funext field
      cases field <;> first | rfl | exact hperiod
    · funext field
      cases field <;> first | rfl | exact hbytes | exact hthreshold

theorem withDefaults_withDefaults (conf : Conf) :
    conf.withDefaults.withDefaults = conf.withDefaults := by
  have hnonzero : ∀ {α : Type} [Zero α] [DecidableEq α] (x : α) {default : α}, default ≠ 0 →
      (if x = 0 then default else x) ≠ 0 := by
    intro α _ _ x default filled
    split_ifs with hzero
    · exact filled
    · exact hzero
  rw [withDefaults_eq_self_iff]
  exact ⟨hnonzero _ (by decide), hnonzero _ (by decide), hnonzero _ (by decide)⟩

/-- No assertion of `conf_validate` fails and no error is counted. -/
def HasNoError (build : Build) (conf : Conf) : Prop :=
  forwardAssertions build conf.checked = true ∧ conf.checked.session.mixesGtp = false ∧
    (conf.bool .behaviourIsEnable && !conf.bool .sessionIsEnable) = false ∧
    (build.tcpReassemblyModule && !conf.bool .isEnableIpDefragmentation &&
      conf.bool .isEnableTcpReassembly) = false ∧
    (build.ftpReconstructModule && !conf.bool .isEnableTcpReassembly &&
      conf.bool .ftpIsEnable) = false ∧
    (build.httpReconstructModule && !conf.bool .isEnableTcpReassembly &&
      conf.bool .httpIsEnable) = false ∧
    (build.dpdkCaptureModule && conf.checked.inputMode == .offlineAnalysis) = false ∧
    (build.dpdkCaptureModule && conf.uint16 .threadCount == 0) = false ∧
    (build.dpdkCaptureModule &&
      !isPowerOfTwo (conf.uint32 .threadQueuePacketThreshold).toUInt64) = false

theorem countIf_eq_zero_iff {condition : Bool} : countIf condition = 0 ↔ condition = false := by
  cases condition <;> simp [countIf]

/-- `conf_validate` returns 0 when it follows no NULL and finds no error. -/
theorem validate_eq_zero_iff :
    conf.validate build = some (0, target) ↔
      conf.followsNull build = false ∧ conf.HasNoError build ∧ conf.withDefaults = target := by
  unfold validate confValidate HasNoError
  split_ifs with hnull hassert
  · exact iff_of_false nofun fun holds => absurd holds.1 (by simp [hnull])
  · simp only [Option.map_some, Option.some.injEq, Prod.mk.injEq, Nat.add_eq_zero_iff,
      countIf_eq_zero_iff, hassert, hnull, true_and, and_assoc]
    rfl
  · exact iff_of_false nofun fun holds => hassert holds.2.1.1

theorem forwardAssertions_iff (build : Build) (conf : Conf) :
    forwardAssertions build conf.checked = true ↔
      (build.forwardPacketModule = true → conf.bool .forwardPacketIsEnable = true →
        build.securityModule = true ∧ conf.bool .securityIsEnable = true ∧
          conf.uint32 .forwardPacketNbCopies ≠ 0) := by
  have hcopies : conf.uint32 .forwardPacketNbCopies > 0 ↔
      conf.uint32 .forwardPacketNbCopies ≠ 0 := UInt32.pos_iff_ne_zero
  unfold forwardAssertions checked
  grind

theorem mixesGtp_eq_false_iff (conf : Conf) :
    conf.checked.session.mixesGtp = false ↔
      (conf.bool .sessionIsEnable = true → conf.bool .sessionIsGtp = true →
        conf.bool .sessionIsHttp = false ∧ conf.bool .sessionIsSsl = false ∧
          conf.bool .sessionIsFtp = false ∧ conf.bool .sessionIsRtp = false) := by
  unfold SessionReportConf.mixesGtp checked
  grind

theorem inputMode_beq (conf : Conf) :
    (conf.checked.inputMode == .offlineAnalysis) = decide (conf.enum .inputMode = 1) := by
  unfold checked
  by_cases hoffline : conf.enum .inputMode = 1 <;> simp [hoffline]

/-- `conf_validate` returns 0 and changes nothing exactly for the valid configurations. -/
theorem validate_eq_some_iff : conf.validate build = some (0, conf) ↔ conf.Valid build := by
  rw [validate_eq_zero_iff, withDefaults_eq_self_iff]
  unfold HasNoError followsNull
  rw [forwardAssertions_iff, mixesGtp_eq_false_iff, inputMode_beq]
  constructor
  · rintro ⟨hnull, ⟨hforward, hgtp, hbehaviour, htcp, hftp, hhttp, hmode, hcount, hqueue⟩, hbytes,
      hthreshold, hperiod⟩
    exact {
      forward := hforward
      reportBytes := hbytes
      byteThreshold := hthreshold
      dumpPeriod := hperiod
      gtp := hgtp
      behaviour := by grind
      reassembly := by grind
      ftp := by grind
      http := by grind
      dpdk := by grind }
  · intro valid
    rcases valid with ⟨hforward, hbytes, hthreshold, hperiod, hgtp, hbehaviour, htcp, hftp, hhttp,
      hdpdk⟩
    refine ⟨?_, ⟨hforward, hgtp, ?_, ?_, ?_, ?_, ?_, ?_, ?_⟩, hbytes, hthreshold, hperiod⟩ <;> grind

/-- What `conf_validate` leaves when it returns 0 is valid. -/
theorem valid_of_validate {given : Conf} (validated : given.validate build = some (0, conf)) :
    conf.Valid build := by
  rcases validate_eq_zero_iff.mp validated with ⟨hnull, herror, rfl⟩
  rw [← validate_eq_some_iff, validate_eq_zero_iff]
  -- the fields that get a default are not among those that the checks compare
  exact ⟨hnull, herror, withDefaults_withDefaults given⟩

end Conf

end MmtProbe.Configure
