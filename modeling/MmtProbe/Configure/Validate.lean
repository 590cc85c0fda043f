/-
# The checks on a configuration

`conf_validate` is called once before the probe starts.  It replaces zero limits
by their defaults and counts the combinations of options that the modules cannot
serve; the probe starts only when it counts none.  Which checks are made depends
on the modules that were compiled in.
-/

import Mathlib.Tactic.SplitIfs

namespace MmtProbe.Configure

/-! ## The configuration -/

/-- The modules that were compiled in and that change what the modelled functions
do. -/
structure Build where
  forwardPacketModule : Bool
  securityModule : Bool
  tcpReassemblyModule : Bool
  ftpReconstructModule : Bool
  httpReconstructModule : Bool
  dpdkCaptureModule : Bool
  qosModule : Bool
deriving DecidableEq, Repr

/-- `conf_rtt_base_t` -/
inductive RttBase where
  | sender
  | captor
  | preferSender
deriving DecidableEq, Repr

/-- The values of `input_mode`. -/
inductive InputMode where
  | onlineAnalysis
  | offlineAnalysis
deriving DecidableEq, Repr

/-- `session_report_conf_t` -/
structure SessionReportConf where
  isEnable : Bool
  isFtp : Bool
  isHttp : Bool
  isSsl : Bool
  isRtp : Bool
  isGtp : Bool
  rttBase : RttBase
deriving DecidableEq, Repr

/-- `micro_flow_conf_t` -/
structure MicroFlowConf where
  isEnable : Bool
  packetThreshold : UInt32
  byteThreshold : UInt32
  reportPacketsCount : UInt32
  reportBytesCount : UInt32
  reportFlowsCount : UInt32
deriving DecidableEq, Repr

/-- The part of `probe_conf_t` that `conf_validate` reads or writes. -/
structure ProbeConf where
  forwardPacketIsEnable : Bool
  forwardPacketNbCopies : UInt32
  securityIsEnable : Bool
  microflow : Option MicroFlowConf
  /-- The frequency of the packet dump, when there is a dump. -/
  pcapDumpFrequency : Option UInt16
  session : SessionReportConf
  behaviourIsEnable : Bool
  isEnableIpDefragmentation : Bool
  isEnableTcpReassembly : Bool
  ftpReconstructIsEnable : Bool
  httpReconstructIsEnable : Bool
  inputMode : InputMode
  threadCount : UInt16
  threadQueuePacketThreshold : UInt32
deriving DecidableEq, Repr

/-! ## Validation -/

/-- `INT32_MAX` -/
def int32Max : UInt32 := 2147483647

/-- `is_power_of_two` -/
def isPowerOfTwo (x : UInt64) : Bool := x != 0 && (x &&& (x - 1)) == 0

/-- One error, counted when its condition holds. -/
def countIf (condition : Bool) : Nat := if condition then 1 else 0

/-- The defaults for limits that are zero. -/
def MicroFlowConf.defaults (conf : MicroFlowConf) : MicroFlowConf :=
  { conf with
    reportBytesCount := if conf.reportBytesCount = 0 then int32Max else conf.reportBytesCount
    byteThreshold := if conf.byteThreshold = 0 then int32Max else conf.byteThreshold }

/-- The report of GTP sessions excludes the reports of the other applications. -/
def SessionReportConf.mixesGtp (conf : SessionReportConf) : Bool :=
  conf.isEnable && conf.isGtp && (conf.isHttp || conf.isSsl || conf.isFtp || conf.isRtp)

/-- The two assertions on packet forwarding. -/
def forwardAssertions (build : Build) (conf : ProbeConf) : Bool :=
  !(build.forwardPacketModule && conf.forwardPacketIsEnable) ||
    ((build.securityModule && conf.securityIsEnable) && conf.forwardPacketNbCopies > 0)

/-- `conf_validate`: the number of errors, and the configuration with its
defaults. `none` is a failed assertion, which aborts the process. -/
def confValidate (build : Build) (conf : ProbeConf) : Option (Nat × ProbeConf) :=
  if forwardAssertions build conf then
    some (countIf conf.session.mixesGtp +
        countIf (conf.behaviourIsEnable && !conf.session.isEnable) +
        countIf (build.tcpReassemblyModule && !conf.isEnableIpDefragmentation &&
          conf.isEnableTcpReassembly) +
        countIf (build.ftpReconstructModule && !conf.isEnableTcpReassembly &&
          conf.ftpReconstructIsEnable) +
        countIf (build.httpReconstructModule && !conf.isEnableTcpReassembly &&
          conf.httpReconstructIsEnable) +
        countIf (build.dpdkCaptureModule && conf.inputMode == .offlineAnalysis) +
        countIf (build.dpdkCaptureModule && conf.threadCount == 0) +
        countIf (build.dpdkCaptureModule &&
          !isPowerOfTwo conf.threadQueuePacketThreshold.toUInt64),
      { conf with
        microflow := conf.microflow.map MicroFlowConf.defaults
        pcapDumpFrequency := conf.pcapDumpFrequency.map fun f => if f = 0 then 3600 else f })
  else none

/-- The configurations with which the probe starts, with their defaults. -/
def Accepted (build : Build) (conf : ProbeConf) : Prop :=
  ∃ given, confValidate build given = some (0, conf)

/-- A configuration that was accepted does not mix GTP with another application. -/
theorem not_mixesGtp_of_accepted {build : Build} {conf : ProbeConf}
    (accepted : Accepted build conf) : conf.session.mixesGtp = false := by
  rcases accepted with ⟨given, haccepted⟩
  unfold confValidate at haccepted
  split_ifs at haccepted with hassert
  have hpair := Option.some.inj haccepted
  have hcount := congrArg Prod.fst hpair
  have hsession : given.session = conf.session := congrArg (fun pair => pair.2.session) hpair
  have hzero : countIf given.session.mixesGtp = 0 := by
    simp only at hcount
    omega
  have hgiven : given.session.mixesGtp = false := by
    simpa [countIf] using hzero
  rw [← hsession]
  exact hgiven

end MmtProbe.Configure
