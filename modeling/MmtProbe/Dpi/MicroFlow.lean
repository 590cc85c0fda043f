/-
# Micro-flows

A session whose counters stay below one of two thresholds is not reported on its
own.  When it ends, its traffic is added to a statistic of its application, which
is printed and emptied as soon as it passes one of three limits.
-/

import MmtProbe.Dpi.SessionReport

namespace MmtProbe.Dpi

open MmtProbe.Configure

/-- `is_micro_flow` -/
def isMicroFlow (conf : MicroFlowConf) (dpi : DpiSession) : Bool :=
  conf.byteThreshold.toUInt64 ≥ dpi.byteCount || conf.packetThreshold.toUInt64 ≥ dpi.packetCount

/-- `micro_flow_stats_t` -/
structure MicroFlowStats where
  lastTime : Timeval
  applicationId : UInt32
  flowsNb : UInt32
  dlPcount : UInt32
  ulPcount : UInt32
  dlBcount : UInt32
  ulBcount : UInt32
deriving DecidableEq, Repr

/-- The traffic of a session is added to the statistic. -/
def MicroFlowStats.add (stat : MicroFlowStats) (dpi : DpiSession) : MicroFlowStats :=
  { stat with
    dlPcount := stat.dlPcount + dpi.packets.download.toUInt32
    dlBcount := stat.dlBcount + dpi.bytes.download.toUInt32
    ulPcount := stat.ulPcount + dpi.packets.upload.toUInt32
    ulBcount := stat.ulBcount + dpi.bytes.upload.toUInt32
    lastTime := dpi.lastActivityTime
    flowsNb := stat.flowsNb + 1 }

/-- The statistic passes one of its limits. The download packets are counted twice, in
place of the upload packets. -/
def MicroFlowStats.isFull (conf : MicroFlowConf) (stat : MicroFlowStats) : Bool :=
  stat.dlBcount + stat.ulBcount > conf.reportBytesCount ||
    stat.dlPcount + stat.dlPcount > conf.reportPacketsCount ||
    stat.flowsNb > conf.reportFlowsCount

/-- The counters of a statistic that was printed. -/
def MicroFlowStats.reset (stat : MicroFlowStats) : MicroFlowStats :=
  { stat with dlPcount := 0, dlBcount := 0, ulPcount := 0, ulBcount := 0, flowsNb := 0 }

/-- `micro_flow_report__update`, on the statistic of the application of the session:
the statistic afterwards and the one that was printed. -/
def microFlowReportUpdate (conf : MicroFlowConf) (stat : MicroFlowStats) (dpi : DpiSession) :
    MicroFlowStats × Option MicroFlowStats :=
  if (stat.add dpi).isFull conf then ((stat.add dpi).reset, some (stat.add dpi))
  else (stat.add dpi, none)

/-- A session that is not a micro-flow does not become one again. -/
theorem isMicroFlow_antitone {conf : MicroFlowConf} {now next : DpiSession}
    (bytes : now.byteCount ≤ next.byteCount) (packets : now.packetCount ≤ next.packetCount)
    (micro : isMicroFlow conf next = true) : isMicroFlow conf now = true := by
  unfold isMicroFlow at micro ⊢
  rw [Bool.or_eq_true, decide_eq_true_iff, decide_eq_true_iff] at micro ⊢
  rcases micro with hbytes | hpackets
  · exact .inl (UInt64.le_trans bytes hbytes)
  · exact .inr (UInt64.le_trans packets hpackets)

/-! ## What is counted -/

/-- The quantities of a report. -/
inductive Quantity where
  | flows
  | dlPackets
  | ulPackets
  | dlBytes
  | ulBytes
deriving DecidableEq, Repr

/-- A printed number. -/
def MicroFlowStats.count (stat : MicroFlowStats) : Quantity → Nat
  | .flows => stat.flowsNb.toNat
  | .dlPackets => stat.dlPcount.toNat
  | .ulPackets => stat.ulPcount.toNat
  | .dlBytes => stat.dlBcount.toNat
  | .ulBytes => stat.ulBcount.toNat

/-- What one session carries. -/
def DpiSession.count (dpi : DpiSession) : Quantity → Nat
  | .flows => 1
  | .dlPackets => dpi.packets.download.toNat
  | .ulPackets => dpi.packets.upload.toNat
  | .dlBytes => dpi.bytes.download.toNat
  | .ulBytes => dpi.bytes.upload.toNat

instance {p : Quantity → Prop} [DecidablePred p] : Decidable (∀ quantity, p quantity) :=
  decidable_of_iff
    (p .flows ∧ p .dlPackets ∧ p .ulPackets ∧ p .dlBytes ∧ p .ulBytes)
    ⟨fun all quantity => by cases quantity <;> simp [all], fun all => by simp [all]⟩

/-- No counter of the statistic wraps when the session is added. -/
def MicroFlowStats.HasRoom (stat : MicroFlowStats) (dpi : DpiSession) : Prop :=
  ∀ quantity, stat.count quantity + dpi.count quantity < 2 ^ 32

instance (stat : MicroFlowStats) (dpi : DpiSession) : Decidable (stat.HasRoom dpi) :=
  inferInstanceAs (Decidable (∀ quantity, stat.count quantity + dpi.count quantity < 2 ^ 32))

variable {conf : MicroFlowConf} {stat : MicroFlowStats} {dpi : DpiSession}

theorem MicroFlowStats.count_add {quantity : Quantity}
    (below : stat.count quantity + dpi.count quantity < 2 ^ 32) :
    (stat.add dpi).count quantity = stat.count quantity + dpi.count quantity := by
  cases quantity <;>
    simp only [MicroFlowStats.count, DpiSession.count, MicroFlowStats.add, UInt32.toNat_add,
      UInt64.toNat_toUInt32] at below ⊢
  · exact Nat.mod_eq_of_lt below
  all_goals omega

theorem MicroFlowStats.count_reset (stat : MicroFlowStats) (quantity : Quantity) :
    stat.reset.count quantity = 0 := by
  cases quantity <;> rfl

/-- What an update does to the statistic of its application, and what it prints. -/
theorem microFlowReportUpdate_cases (conf : MicroFlowConf) (stat : MicroFlowStats)
    (dpi : DpiSession) :
    microFlowReportUpdate conf stat dpi = ((stat.add dpi).reset, some (stat.add dpi)) ∨
      microFlowReportUpdate conf stat dpi = (stat.add dpi, none) := by
  unfold microFlowReportUpdate
  split_ifs
  · exact Or.inl rfl
  · exact Or.inr rfl

/-- What an update leaves in the statistic, with what it has printed, is what was there and the
session. -/
theorem microFlowReportUpdate_count (room : stat.HasRoom dpi) (quantity : Quantity) :
    (microFlowReportUpdate conf stat dpi).1.count quantity +
        ((microFlowReportUpdate conf stat dpi).2.toList.map (·.count quantity)).sum =
      stat.count quantity + dpi.count quantity := by
  rcases microFlowReportUpdate_cases conf stat dpi with hfull | hquiet
  · rw [hfull]
    simp [MicroFlowStats.count_reset, MicroFlowStats.count_add (room quantity)]
  · rw [hquiet]
    simp [MicroFlowStats.count_add (room quantity)]

end MmtProbe.Dpi
