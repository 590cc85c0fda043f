/-
# Session reports telescope

Over the whole life of a session, the numbers in its reports add up to the counters
of the packet inspection: nothing is reported twice, and what was there at a call of
`session_report_do_report` is in a report afterwards.

The calls are those of the periodic callback, of a new HTTP request and of the end of
the session, in any order and any number.  Between two reports the upload and the
download of a quantity must not grow by 2^64 or more together: the total is computed
in 64 bits, and so is the comparison that looks for new packets.
-/

import MmtProbe.Dpi.Session

namespace MmtProbe.Dpi

open MmtProbe.Math MmtProbe.Configure

/-! ## Sums over reports -/

/-- The counters at the last report. -/
def lastReported (reports : List Emitted) : Traffic :=
  (reports.getLast?.map (·.now)).getD .zero

/-- The sum of one field over reports. -/
def sumOf (field : SessionReport → UInt64) (reports : List Emitted) : Nat :=
  (reports.map fun emitted => (field emitted.report).toNat).sum

/-- The three fields of one quantity add up to its counters. -/
structure SumsTo (quantity : SessionReport → Delta) (reports : List Emitted)
    (counters : FlowStatData) : Prop where
  ul : sumOf (fun report => (quantity report).ul) reports = counters.upload.toNat
  dl : sumOf (fun report => (quantity report).dl) reports = counters.download.toNat
  total : sumOf (fun report => (quantity report).total) reports = FlowStatData.total counters

/-- The numbers of a report are the mathematical differences, and one of them says that
packets arrived. -/
structure Emitted.Exact (emitted : Emitted) : Prop where
  volumes : emitted.report.volumes.Exact emitted.before.volumes emitted.now.volumes
  payload : emitted.report.payload.Exact emitted.before.payload emitted.now.payload
  packets : emitted.report.packets.Exact emitted.before.packets emitted.now.packets
  somePackets : 0 < emitted.report.packets.ul.toNat ∨ 0 < emitted.report.packets.dl.toNat

/-- What the reports of a session say about its traffic. -/
structure Telescopes (s : SessionState) : Prop where
  exact : ∀ emitted ∈ s.reports, emitted.Exact
  volumes : SumsTo (·.volumes) s.reports (lastReported s.reports).volumes
  payload : SumsTo (·.payload) s.reports (lastReported s.reports).payload
  packets : SumsTo (·.packets) s.reports (lastReported s.reports).packets
  complete : s.lastCall = lastReported s.reports

@[simp]
theorem lastReported_append (reports : List Emitted) (emitted : Emitted) :
    lastReported (reports ++ [emitted]) = emitted.now := by
  simp [lastReported]

@[simp]
theorem sumOf_append (field : SessionReport → UInt64) (reports : List Emitted)
    (emitted : Emitted) :
    sumOf field (reports ++ [emitted]) = sumOf field reports + (field emitted.report).toNat := by
  simp [sumOf]

/-- One more exact report moves the sums to its counters. -/
theorem SumsTo.append {quantity : SessionReport → Delta} {reports : List Emitted}
    {emitted : Emitted} {old now : FlowStatData} (sums : SumsTo quantity reports old)
    (exact : (quantity emitted.report).Exact old now) :
    SumsTo quantity (reports ++ [emitted]) now := by
  constructor
  · rw [sumOf_append, sums.ul]
    exact exact.ul
  · rw [sumOf_append, sums.dl]
    exact exact.dl
  · rw [sumOf_append, sums.total, exact.total, FlowStatData.total, FlowStatData.total,
      ← exact.ul, ← exact.dl]
    ac_rfl

/-! ## The counters of a session -/

/-- The growth of a quantity since the last report fits in 64 bits. -/
def Fits (s : SessionState) : Prop :=
  match s.phase with
  | .live (some stat) =>
      FlowStatData.growth stat.volumes s.dpi.cap.volumes < 2 ^ 64 ∧
        FlowStatData.growth stat.payload s.dpi.cap.payload < 2 ^ 64 ∧
        FlowStatData.growth stat.packets s.dpi.cap.packets < 2 ^ 64
  | _ => True

/-- The condition on a run: the growth fits whenever a report may be made. -/
def ReportsFit (s : SessionState) : SessionAct → Prop
  | .tick | .webMethod _ _ | .finish => Fits s
  | _ => True

instance (s : SessionState) : Decidable (Fits s) := by
  unfold Fits
  cases s.phase with
  | live stat =>
      cases stat with
      | none => exact inferInstanceAs (Decidable True)
      | some stat => exact inferInstanceAs (Decidable (_ ∧ _))
  | new | ended | crashed _ => exact inferInstanceAs (Decidable True)

instance (s : SessionState) (act : SessionAct) : Decidable (ReportsFit s act) :=
  match act with
  | .tick | .webMethod _ _ | .finish => inferInstanceAs (Decidable (Fits s))
  | .start _ | .packet _ _ | .web _ _ | .ssl _ | .rtp _ | .gtp _ _ _ =>
      inferInstanceAs (Decidable True)

/-- Counters of a later moment. -/
structure Traffic.Le (old now : Traffic) : Prop where
  volumes : FlowStatData.le old.volumes now.volumes
  payload : FlowStatData.le old.payload now.payload
  packets : FlowStatData.le old.packets now.packets
  still : now.packets = old.packets → now.volumes = old.volumes ∧ now.payload = old.payload

theorem FlowStatData.le_refl (data : FlowStatData) : FlowStatData.le data data :=
  ⟨UInt64.le_refl _, UInt64.le_refl _⟩

theorem FlowStatData.le_trans {first second third : FlowStatData}
    (left : FlowStatData.le first second) (right : FlowStatData.le second third) :
    FlowStatData.le first third :=
  ⟨UInt64.le_trans left.1 right.1, UInt64.le_trans left.2 right.2⟩

theorem FlowStatData.le_antisymm {first second : FlowStatData}
    (left : FlowStatData.le first second) (right : FlowStatData.le second first) :
    first = second := by
  apply FlowStatData.eq_of_toNat
  · rw [UInt64.le_antisymm left.1 right.1]
  · rw [UInt64.le_antisymm left.2 right.2]

theorem Traffic.Le.refl (traffic : Traffic) : Traffic.Le traffic traffic :=
  ⟨FlowStatData.le_refl _, FlowStatData.le_refl _, FlowStatData.le_refl _, fun _ => ⟨rfl, rfl⟩⟩

/-- The counters of the packet inspection move away from those of the last report. -/
theorem Traffic.Le.grows {old : Traffic} {now next : DpiSession} (le : Traffic.Le old now.cap)
    (grows : now.Grows next) : Traffic.Le old next.cap := by
  rcases grows with ⟨hvolumes, hpayload, hpackets, _, _, hstill⟩
  apply Traffic.Le.mk (FlowStatData.le_trans le.volumes hvolumes)
    (FlowStatData.le_trans le.payload hpayload) (FlowStatData.le_trans le.packets hpackets)
  intro hsame
  have hback : FlowStatData.le now.cap.packets old.packets := hsame ▸ hpackets
  have hnow : now.cap.packets = old.packets := FlowStatData.le_antisymm hback le.packets
  rcases hstill (hsame.trans hnow.symm) with ⟨hvolumes', hpayload'⟩
  rcases le.still hnow with ⟨hvolumes'', hpayload''⟩
  exact ⟨hvolumes'.trans hvolumes'', hpayload'.trans hpayload''⟩

/-! ## The invariant -/

/-- What holds in every state: the reports telescope, and the session remembers the
counters of the last one. -/
structure TelescopeInv (s : SessionState) : Prop where
  telescopes : Telescopes s
  starts : s.phase = .new → s.reports = []
  remembers : ∀ stat, s.phase = .live (some stat) → stat.toTraffic = lastReported s.reports
  ordered : Traffic.Le (lastReported s.reports) s.dpi.cap

theorem telescopeInv_fresh (micro : MicroFlowStats) : TelescopeInv (.fresh micro) where
  telescopes :=
    ⟨by simp [SessionState.fresh], ⟨rfl, rfl, rfl⟩, ⟨rfl, rfl, rfl⟩, ⟨rfl, rfl, rfl⟩, rfl⟩
  starts := fun _ => rfl
  remembers := by
    intro stat hlive
    cases hlive
  ordered := .refl _

/-- A report of growth that fits is exact. -/
theorem emitted_exact {report : SessionReport} {old now : Traffic}
    (differences : report.Differences old now) (ordered : Traffic.Le old now)
    (volumes : FlowStatData.growth old.volumes now.volumes < 2 ^ 64)
    (payload : FlowStatData.growth old.payload now.payload < 2 ^ 64)
    (packets : FlowStatData.growth old.packets now.packets < 2 ^ 64)
    (new : now.packets ≠ old.packets) : (⟨report, old, now⟩ : Emitted).Exact := by
  have hvolumes := FlowStatData.delta_exact ordered.volumes volumes
  have hpayload := FlowStatData.delta_exact ordered.payload payload
  have hpackets := FlowStatData.delta_exact ordered.packets packets
  rw [← differences.volumes] at hvolumes
  rw [← differences.payload] at hpayload
  rw [← differences.packets] at hpackets
  apply Emitted.Exact.mk hvolumes hpayload hpackets
  by_contra hnone
  rw [not_or, Nat.not_lt, Nat.not_lt] at hnone
  apply new
  apply FlowStatData.eq_of_toNat
  · rw [← hpackets.ul, Nat.le_zero.mp hnone.1, Nat.add_zero]
  · rw [← hpackets.dl, Nat.le_zero.mp hnone.2, Nat.add_zero]

variable {env : Env} {s target : SessionState} {act : SessionAct}

/-- The same reports telescope in another state. -/
theorem Telescopes.congr (telescopes : Telescopes s) (reports : target.reports = s.reports)
    (complete : target.lastCall = lastReported s.reports) : Telescopes target := by
  constructor
  all_goals rw [reports]
  · exact telescopes.exact
  · exact telescopes.volumes
  · exact telescopes.payload
  · exact telescopes.packets
  · exact complete

/-- One more exact report telescopes with the others. -/
theorem Telescopes.append (telescopes : Telescopes s) {emitted : Emitted}
    (exact : emitted.Exact) (follows : emitted.before = lastReported s.reports)
    (reports : target.reports = s.reports ++ [emitted])
    (complete : target.lastCall = emitted.now) : Telescopes target := by
  constructor
  all_goals rw [reports]
  · intro other hother
    rcases List.mem_append.mp hother with hmem | hmem
    · exact telescopes.exact other hmem
    · rw [List.mem_singleton.mp hmem]
      exact exact
  · rw [lastReported_append]
    exact telescopes.volumes.append (follows ▸ exact.volumes)
  · rw [lastReported_append]
    exact telescopes.payload.append (follows ▸ exact.payload)
  · rw [lastReported_append]
    exact telescopes.packets.append (follows ▸ exact.packets)
  · rw [lastReported_append]
    exact complete

/-- A callback that makes no report keeps the invariant. -/
theorem TelescopeInv.quiet (inv : TelescopeInv s) (quiet : Quiet s target)
    (started : target.phase ≠ .new) (ordered : Traffic.Le (lastReported s.reports) target.dpi.cap) :
    TelescopeInv target := by
  rcases inv with ⟨htelescopes, hstarts, hremembers, _⟩
  constructor
  · exact htelescopes.congr quiet.reports (quiet.lastCall.trans htelescopes.complete)
  · exact fun hnew => absurd hnew started
  · intro stat hlive
    rw [quiet.reports]
    rcases quiet.remembers stat hlive with ⟨hnew, hzero⟩ | ⟨old, hold, hsame⟩
    · rw [hstarts hnew]
      exact hzero
    · rw [hsame]
      exact hremembers old hold
  · rw [quiet.reports]
    exact ordered

/-- A call of `session_report_do_report` keeps the invariant when the growth fits. -/
theorem TelescopeInv.calls (inv : TelescopeInv s) (calls : Calls env s target) (fits : Fits s)
    (started : target.phase ≠ .new) : TelescopeInv target := by
  rcases calls with ⟨hdpi, old, prepared, middle, report, hlive, hprepared, hprint, hreports,
    hlastCall, hremembers⟩
  have hold : old.toTraffic = lastReported s.reports := inv.remembers old hlive
  have hlast : prepared.toTraffic = lastReported s.reports := hprepared.trans hold
  simp only [Fits, hlive, hold] at fits
  rcases fits with ⟨hvolumes, hpayload, hpackets⟩
  have hsum := FlowStatData.sum_eq_iff inv.ordered.packets hpackets
  have hnothing : NoNewPackets s.dpi prepared ↔
      s.dpi.cap.packets = (lastReported s.reports).packets := by
    rw [← hsum, NoNewPackets, hlast]
  rcases printIpSessionReport_eq_ok hprint with ⟨hnone, rfl, rfl⟩ |
    ⟨hsome, htraffic, _, _, printed, rfl, hdifferences⟩
  · -- nothing is printed: the counters are those of the last report
    have hsame := hnothing.mp hnone
    rcases inv.ordered.still hsame with ⟨hvolumes', hpayload'⟩
    have hcap : s.dpi.cap = lastReported s.reports := Traffic.ext hvolumes' hpayload' hsame
    have hreports' : target.reports = s.reports := by simpa using hreports
    constructor
    · exact inv.telescopes.congr hreports' (hlastCall.trans hcap)
    · exact fun hnew => absurd hnew started
    · intro stat hstat
      rw [hreports', hremembers stat hstat, hlast]
    · rw [hreports', hdpi]
      exact inv.ordered
  · rw [hlast] at hdifferences
    have hexact := emitted_exact hdifferences inv.ordered hvolumes hpayload hpackets
      (fun hsame => hsome (hnothing.mpr hsame))
    have hreports' : target.reports = s.reports ++
        [⟨printed, lastReported s.reports, s.dpi.cap⟩] := by simpa [hold] using hreports
    constructor
    · exact inv.telescopes.append hexact rfl hreports' hlastCall
    · exact fun hnew => absurd hnew started
    · intro stat hstat
      rw [hreports', lastReported_append, hremembers stat hstat]
      exact htraffic
    · rw [hreports', lastReported_append, hdpi]
      exact .refl _

theorem TelescopeInv.step (inv : TelescopeInv s) (fit : ReportsFit s act)
    (enabled : sessionStep env s act = some target) : TelescopeInv target := by
  have hstarted := sessionStep_phase_ne_new enabled
  rcases sessionStep_traffic enabled with ⟨hquiet, hdpi⟩ | ⟨hquiet, hgrows, _⟩ |
    ⟨hcalls, stat, _, hreports⟩
  · exact inv.quiet hquiet hstarted (hdpi ▸ inv.ordered)
  · exact inv.quiet hquiet hstarted (inv.ordered.grows hgrows)
  · apply inv.calls hcalls _ hstarted
    cases act with
    | tick | webMethod _ _ | finish => exact fit
    | start _ | packet _ _ | web _ _ | ssl _ | rtp _ | gtp _ _ _ => exact hreports.elim

/-- In every run in which the growth between two reports fits in 64 bits, the numbers of
every report are the mathematical differences, and their sums are the counters at the
last call. -/
theorem telescopes_of_reportsFit (env : Env) (s : SessionState)
    (reached : (sessionMachine env).ReachableWhen ReportsFit s) : Telescopes s := by
  have hinv : TelescopeInv s := by
    apply reached.invariant TelescopeInv
    · rintro _ ⟨micro, rfl⟩
      exact telescopeInv_fresh micro
    · intro state label next inv fit enabled
      exact inv.step fit enabled
  exact hinv.telescopes

/-! ## Two runs -/

/-- A probe without micro-flows that reports every session. -/
def plainEnv : Env where
  build := ⟨false, false, false, false, false, false, false⟩
  conf :=
    { forwardPacketIsEnable := false
      forwardPacketNbCopies := 1
      securityIsEnable := false
      microflow := none
      pcapDumpFrequency := none
      session := ⟨true, false, true, true, true, false, .captor⟩
      behaviourIsEnable := false
      isEnableIpDefragmentation := false
      isEnableTcpReassembly := false
      ftpReconstructIsEnable := false
      httpReconstructIsEnable := false
      inputMode := .onlineAnalysis
      threadCount := 1
      threadQueuePacketThreshold := 1024 }

/-- A probe with the response times that reports every session. -/
def qosEnv : Env := { plainEnv with build := { plainEnv.build with qosModule := true } }

/-- The counters after a number of packets of 100 bytes in each direction. -/
def countedPackets (up down : UInt64) : DpiSession :=
  { DpiSession.zero with
    cap := ⟨⟨100 * up, 100 * down⟩, ⟨60 * up, 60 * down⟩, ⟨up, down⟩⟩
    byteCount := 100 * (up + down)
    packetCount := up + down
    bytes := ⟨100 * up, 100 * down⟩
    packets := ⟨up, down⟩ }

/-- A packet without TCP. -/
def plainPacket : PacketInfo :=
  ⟨1, [.other 99, .ip], false, ⟨1, 0⟩, ⟨none, none, none, none, none, none, false⟩⟩

/-- No micro-flow of the application was seen. -/
def noMicroFlows : MicroFlowStats := ⟨.zero, 0, 0, 0, 0, 0, 0⟩

/-- Two periods and the end of a session. -/
theorem telescopes_of_reportsFit_run :
    Telescopes (((sessionMachine plainEnv).restrict ReportsFit).after
      [.start .ip, .packet (countedPackets 3 2) plainPacket, .tick, .tick,
        .packet (countedPackets 3 7) plainPacket, .finish] (.fresh noMicroFlows)) :=
  telescopes_of_reportsFit plainEnv _
    (Machine.reachableWhen_after ⟨noMicroFlows, rfl⟩ (by decide +kernel))

/-- 2^63 packets in each direction between two reports: their number is 0 in 64 bits, and
they are not reported. -/
theorem not_telescopes_of_wrap :
    ∃ s, (sessionMachine plainEnv).Reachable s ∧ ¬ Telescopes s := by
  have hreached : (sessionMachine plainEnv).Reachable ((sessionMachine plainEnv).after
      [.start .ip, .packet (countedPackets (2 ^ 63) (2 ^ 63)) plainPacket, .tick]
      (.fresh noMicroFlows)) :=
    Machine.reachable_after ⟨noMicroFlows, rfl⟩ (by decide +kernel)
  refine ⟨_, hreached, ?_⟩
  intro htelescopes
  exact absurd htelescopes.complete (by decide +kernel)

end MmtProbe.Dpi
