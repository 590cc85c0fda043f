/-
# The life of a session

The packet inspection calls the probe when a session starts, for its packets, for
the attributes of the applications that are enabled, periodically, and when the
session ends.  One machine has all these callbacks as steps, in any order, on one
session.

The counters of the packet inspection are part of the state.  They are only known
not to decrease, and the volumes and payloads not to change without a packet.  A
callback that does not return leaves the session crashed.  The last fields of the
state are history: no step looks at them.
-/

import MmtProbe.Dpi.MicroFlow
import MmtProbe.Math.Machine

namespace MmtProbe.Dpi

open MmtProbe.Configure MmtProbe.Math

/-! ## Configuration -/

/-- The probe that watches the session. -/
structure Env where
  build : Build
  conf : ProbeConf

namespace Env

/-- `context->micro_reports`: there is one only when micro-flows are enabled. -/
def microReports (env : Env) : Option MicroFlowConf := env.conf.microflow.filter (·.isEnable)

/-- Whether the session counts as a micro-flow. -/
def isMicro (env : Env) (dpi : DpiSession) : Bool :=
  match env.microReports with
  | none => false
  | some conf => isMicroFlow conf dpi

/-- `session_report_register`: the applications whose callbacks are registered. -/
def registered (env : Env) : AppType → Bool
  | .web => env.conf.session.isEnable && env.conf.session.isHttp
  | .ssl => env.conf.session.isEnable && env.conf.session.isSsl
  | .rtp => env.conf.session.isEnable && env.conf.session.isRtp
  | .gtp => env.conf.session.isEnable && env.conf.session.isGtp
  | .ip | .ftp => false

end Env

/-! ## State and history -/

/-- What became of the session. -/
inductive Phase where
  /-- No callback was made yet. -/
  | new
  | live (stat : Option SessionStat)
  | ended
  | crashed (why : Crash)
deriving DecidableEq

/-- The end of a session, unless it has crashed. -/
def Phase.close : Phase → Phase
  | .crashed why => .crashed why
  | _ => .ended

/-- A report, with the counters from which it was computed: those that were
remembered, and those of the packet inspection. -/
structure Emitted where
  report : SessionReport
  before : Traffic
  now : Traffic
deriving DecidableEq, Repr

/-- The micro-flow statistic of the application of the session. -/
structure MicroLedger where
  /-- As the session has found it. -/
  found : MicroFlowStats
  now : MicroFlowStats
  /-- What the session has caused to be printed of it. -/
  printed : List MicroFlowStats
deriving DecidableEq

/-- `micro_flow_report__update` on the statistic. -/
def MicroLedger.update (conf : MicroFlowConf) (dpi : DpiSession) (ledger : MicroLedger) :
    MicroLedger :=
  let (stat, printed) := microFlowReportUpdate conf ledger.now dpi
  { ledger with now := stat, printed := ledger.printed ++ printed.toList }

/-- The session, what the packet inspection counts for it, the micro-flow statistic of
its application, and the history. -/
structure SessionState where
  dpi : DpiSession
  phase : Phase
  micro : MicroLedger
  /-- The session reports that were printed. -/
  reports : List Emitted
  /-- The counters at the last call of `session_report_do_report` that returned. -/
  lastCall : Traffic
  /-- The applications whose callbacks reached the statistics of the session. -/
  fired : List AppType
  /-- Whether the ending callback was made. -/
  ending : Bool
deriving DecidableEq

/-- The callbacks, with what the packet inspection gives them. -/
inductive SessionAct where
  /-- The first callback; `proto` is the protocol at the index of the session. -/
  | start (proto : Proto)
  /-- A packet; `next` are the counters that include it. -/
  | packet (next : DpiSession) (info : PacketInfo)
  | web (ts : Timeval) (att : WebAttribute)
  | webMethod (ts : Timeval) (val : Option (List UInt8))
  | ssl (val : Option (List UInt8))
  | rtp (att : RtpAttribute)
  /-- An IP source; `afterGtp` says whether the session is the one on top of GTP. -/
  | gtp (afterGtp : Bool) (outer : OuterIp) (teid : Option UInt32)
  /-- The end of a period of statistics. -/
  | tick
  | finish

/-- What is known of the counters of the packet inspection. -/
def DpiSession.Grows (now next : DpiSession) : Prop :=
  FlowStatData.le now.cap.volumes next.cap.volumes ∧
    FlowStatData.le now.cap.payload next.cap.payload ∧
    FlowStatData.le now.cap.packets next.cap.packets ∧
    now.byteCount ≤ next.byteCount ∧ now.packetCount ≤ next.packetCount ∧
    (next.cap.packets = now.cap.packets →
      next.cap.volumes = now.cap.volumes ∧ next.cap.payload = now.cap.payload)

instance (now next : DpiSession) : Decidable (now.Grows next) :=
  inferInstanceAs (Decidable (_ ∧ _))

/-- Nothing was counted. -/
def DpiSession.zero : DpiSession := ⟨.zero, 0, 0, ⟨0, 0⟩, ⟨0, 0⟩, .zero, .zero⟩

/-- `session_report_callback_on_starting_session`: only sessions directly on top of IP
have statistics. -/
def startingSession (proto : Proto) : Option SessionStat :=
  if proto = .ip ∨ proto = .ipv6 then some .fresh else none

namespace SessionState

/-- A session of which nothing is known yet. -/
def fresh (micro : MicroFlowStats) : SessionState where
  dpi := .zero
  phase := .new
  micro := ⟨micro, micro, []⟩
  reports := []
  lastCall := .zero
  fired := []
  ending := false

/-- A callback returned or not. -/
def settle (s : SessionState) : Except Crash (Option SessionStat) → SessionState
  | .ok stat => { s with phase := .live stat }
  | .error why => { s with phase := .crashed why }

/-- A callback returned with or without a report. It called
`session_report_do_report` when there are counters that were remembered `before`. -/
def afterCall (s : SessionState) (before : Option Traffic) :
    Except Crash (Option SessionReport × SessionStat) → SessionState
  | .error why => { s with phase := .crashed why }
  | .ok (report, stat) =>
      match before with
      | none => { s with phase := .live (some stat) }
      | some before =>
          { s with
            phase := .live (some stat)
            reports := s.reports ++ (report.map fun report => ⟨report, before, s.dpi.cap⟩).toList
            lastCall := s.dpi.cap }

/-- A callback of an application on the statistics of the session. -/
def onApp (s : SessionState) (app : AppType) (stat : Option SessionStat)
    (handle : SessionStat → Except Crash SessionStat) : SessionState :=
  match stat with
  | none => s
  | some stat => { s.settle ((handle stat).map some) with fired := s.fired ++ [app] }

/-- `_packet_handler` -/
def packet (s : SessionState) (env : Env) (stat : Option SessionStat) (next : DpiSession)
    (info : PacketInfo) : SessionState :=
  let s := { s with dpi := next }
  if env.conf.session.isEnable then
    s.settle (receivingPacket env.build env.conf.session.rttBase info stat)
  else s

/-- `_web_method_handle` on the statistics of the session. -/
def webMethod (s : SessionState) (env : Env) (stat : Option SessionStat) (ts : Timeval)
    (val : Option (List UInt8)) : SessionState :=
  match stat with
  | none => s
  | some stat =>
      { s.afterCall (if stat.hasRequest then some stat.toTraffic else none)
          (webMethodHandle env.build s.dpi ts val stat) with
        fired := s.fired ++ [AppType.web] }

/-- `_gtp_ip_src_handle` -/
def gtp (s : SessionState) (stat : Option SessionStat) (afterGtp : Bool) (outer : OuterIp)
    (teid : Option UInt32) : SessionState :=
  if afterGtp then
    { s.settle (gtpIpSrcHandle stat outer teid) with
      fired := if stat.isSome then s.fired ++ [AppType.gtp] else s.fired }
  else s

/-- A call of `session_report_do_report`. -/
def doReport (s : SessionState) (env : Env) (stat : Option SessionStat) : SessionState :=
  s.afterCall (stat.map (·.toTraffic)) (sessionReportDoReport env.build s.dpi stat)

/-- `_period_session_report` -/
def tick (s : SessionState) (env : Env) (stat : Option SessionStat) : SessionState :=
  if stat.isSome ∧ env.isMicro s.dpi = false then s.doReport env stat else s

/-- `micro_flow_report__update` on the statistic of the application. -/
def updateMicro (s : SessionState) (env : Env) : SessionState :=
  match env.microReports with
  | none => s
  | some conf => { s with micro := s.micro.update conf s.dpi }

/-- The session is freed, unless the callback did not get that far. -/
def close (s : SessionState) : SessionState := { s with phase := s.phase.close }

/-- The ending callback is made. -/
def beginEnding (s : SessionState) : SessionState := { s with ending := true }

/-- `_ending_session_handler` -/
def finish (s : SessionState) (env : Env) (stat : Option SessionStat) : SessionState :=
  if env.isMicro s.dpi then (s.beginEnding.updateMicro env).close
  else if env.conf.session.isEnable then (s.beginEnding.doReport env stat).close
  else s.beginEnding.close

end SessionState

/-- One callback. The callbacks of an application are made only when they are
registered, and the periodic one only when session reports are enabled. -/
def sessionStep (env : Env) (s : SessionState) (act : SessionAct) : Option SessionState :=
  match s.phase, act with
  | .new, .start proto => some { s with phase := .live (startingSession proto) }
  | .live stat, .packet next info =>
      if s.dpi.Grows next then some (s.packet env stat next info) else none
  | .live stat, .web ts att =>
      if env.registered .web then
        some (s.onApp .web stat fun stat => webHandle env.build stat ts att)
      else none
  | .live stat, .webMethod ts val =>
      if env.registered .web then some (s.webMethod env stat ts val) else none
  | .live stat, .ssl val =>
      if env.registered .ssl then
        some (s.onApp .ssl stat fun stat => sslServerNameHandle stat val)
      else none
  | .live stat, .rtp att =>
      if env.registered .rtp then some (s.onApp .rtp stat fun stat => rtpHandle stat att)
      else none
  | .live stat, .gtp afterGtp outer teid =>
      if env.registered .gtp then some (s.gtp stat afterGtp outer teid) else none
  | .live stat, .tick =>
      if env.conf.session.isEnable then some (s.tick env stat) else none
  | .live stat, .finish => some (s.finish env stat)
  | _, _ => none

/-- The callbacks on one session, whatever the other sessions of its application have added to
its statistic before. -/
def sessionMachine (env : Env) : Machine SessionState SessionAct where
  init s := ∃ micro, s = .fresh micro
  step := sessionStep env

/-! ## What a callback does -/

variable {env : Env} {s target : SessionState} {act : SessionAct}

/-- What a step is, by its label. -/
theorem sessionStep_eq_some (enabled : sessionStep env s act = some target) :
    match act with
    | .start proto => s.phase = .new ∧ target = { s with phase := .live (startingSession proto) }
    | .packet next info => ∃ stat, s.phase = .live stat ∧ s.dpi.Grows next ∧
        target = s.packet env stat next info
    | .web ts att => ∃ stat, s.phase = .live stat ∧ env.registered .web = true ∧
        target = s.onApp .web stat fun stat => webHandle env.build stat ts att
    | .webMethod ts val => ∃ stat, s.phase = .live stat ∧ env.registered .web = true ∧
        target = s.webMethod env stat ts val
    | .ssl val => ∃ stat, s.phase = .live stat ∧ env.registered .ssl = true ∧
        target = s.onApp .ssl stat fun stat => sslServerNameHandle stat val
    | .rtp att => ∃ stat, s.phase = .live stat ∧ env.registered .rtp = true ∧
        target = s.onApp .rtp stat fun stat => rtpHandle stat att
    | .gtp afterGtp outer teid => ∃ stat, s.phase = .live stat ∧ env.registered .gtp = true ∧
        target = s.gtp stat afterGtp outer teid
    | .tick => ∃ stat, s.phase = .live stat ∧ env.conf.session.isEnable = true ∧
        target = s.tick env stat
    | .finish => ∃ stat, s.phase = .live stat ∧ target = s.finish env stat := by
  unfold sessionStep at enabled
  split at enabled
  · exact ⟨‹_›, (Option.some.inj enabled).symm⟩
  case h_10 => cases enabled
  case h_9 stat hphase _ => exact ⟨stat, hphase, (Option.some.inj enabled).symm⟩
  all_goals
    split_ifs at enabled with hcondition
    exact ⟨_, ‹s.phase = .live _›, hcondition, (Option.some.inj enabled).symm⟩

/-! ## What a callback does to the counters -/

/-- A step makes no report: the history of reports stays, and so do the counters that
the session remembers. -/
structure Quiet (s target : SessionState) : Prop where
  reports : target.reports = s.reports
  lastCall : target.lastCall = s.lastCall
  remembers : ∀ stat, target.phase = .live (some stat) →
    (s.phase = .new ∧ stat.toTraffic = .zero) ∨
      ∃ old, s.phase = .live (some old) ∧ stat.toTraffic = old.toTraffic

/-- A step calls `session_report_do_report`, and the call returns. -/
structure Calls (env : Env) (s target : SessionState) : Prop where
  dpi : target.dpi = s.dpi
  returned : ∃ old prepared middle report, s.phase = .live (some old) ∧
    prepared.toTraffic = old.toTraffic ∧
    printIpSessionReport env.build s.dpi prepared = .ok (report, middle) ∧
    target.reports =
      s.reports ++
        (report.map fun report => (⟨report, old.toTraffic, s.dpi.cap⟩ : Emitted)).toList ∧
    target.lastCall = s.dpi.cap ∧
    ∀ stat, target.phase = .live (some stat) → stat.toTraffic = middle.toTraffic

/-- The steps that may report, and the condition under which they do. -/
def Reports (env : Env) (s : SessionState) (stat : SessionStat) : SessionAct → Prop
  | .tick => env.isMicro s.dpi = false
  | .finish => env.isMicro s.dpi = false ∧ env.conf.session.isEnable = true
  | .webMethod _ _ => stat.hasRequest = true
  | _ => False

/-- A step makes no report and changes at most the application of the session. -/
structure Silent (s target : SessionState) : Prop where
  reports : target.reports = s.reports
  lastCall : target.lastCall = s.lastCall
  keeps : ∀ stat, target.phase = .live (some stat) →
    (s.phase = .new ∧ stat = .fresh) ∨ ∃ old, s.phase = .live (some old) ∧ old.OnlyApp stat

/-- A step calls `session_report_do_report`, the call returns, and around it only the
application of the session changes. -/
structure Called (env : Env) (s target : SessionState) : Prop where
  dpi : target.dpi = s.dpi
  returned : ∃ old prepared middle report, s.phase = .live (some old) ∧ old.OnlyApp prepared ∧
    printIpSessionReport env.build s.dpi prepared = .ok (report, middle) ∧
    target.reports =
      s.reports ++
        (report.map fun report => (⟨report, old.toTraffic, s.dpi.cap⟩ : Emitted)).toList ∧
    target.lastCall = s.dpi.cap ∧
    ∀ stat, target.phase = .live (some stat) → middle.OnlyApp stat

/-- A step that changes at most the application keeps the counters. -/
theorem Silent.quiet (silent : Silent s target) : Quiet s target := by
  apply Quiet.mk silent.reports silent.lastCall
  intro stat live
  rcases silent.keeps stat live with ⟨hnew, rfl⟩ | ⟨old, hlive, honly⟩
  · exact .inl ⟨hnew, rfl⟩
  · exact .inr ⟨old, hlive, honly.toTraffic_eq⟩

theorem Called.calls (called : Called env s target) : Calls env s target := by
  rcases called.returned with ⟨old, prepared, middle, report, hlive, hprepared, hprint, hreports,
    hlast, hafter⟩
  exact ⟨called.dpi, old, prepared, middle, report, hlive, hprepared.toTraffic_eq, hprint,
    hreports, hlast, fun stat live => (hafter stat live).toTraffic_eq⟩

/-- A step that leaves the session crashed or ended makes no report when it adds none. -/
theorem Silent.of_not_live (reports : target.reports = s.reports)
    (lastCall : target.lastCall = s.lastCall) (gone : ∀ stat, target.phase ≠ .live (some stat)) :
    Silent s target :=
  ⟨reports, lastCall, fun stat live => absurd live (gone stat)⟩

/-- A step that changes at most the application of a session. -/
theorem Silent.of_live {old new : SessionStat} (reports : target.reports = s.reports)
    (lastCall : target.lastCall = s.lastCall) (before : s.phase = .live (some old))
    (after : target.phase = .live (some new)) (only : old.OnlyApp new) :
    Silent s target := by
  apply Silent.mk reports lastCall
  intro stat live
  rw [after] at live
  cases live
  exact .inr ⟨old, before, only⟩

theorem Silent.refl (s : SessionState) : Silent s s :=
  ⟨rfl, rfl, fun stat live => .inr ⟨stat, live, .refl stat⟩⟩

namespace SessionState

@[simp]
theorem settle_dpi (s : SessionState) (result : Except Crash (Option SessionStat)) :
    (s.settle result).dpi = s.dpi := by
  cases result <;> rfl

@[simp]
theorem afterCall_dpi (s : SessionState) (before : Option Traffic)
    (result : Except Crash (Option SessionReport × SessionStat)) :
    (s.afterCall before result).dpi = s.dpi := by
  cases result <;> cases before <;> rfl

@[simp]
theorem afterCall_fired (s : SessionState) (before : Option Traffic)
    (result : Except Crash (Option SessionReport × SessionStat)) :
    (s.afterCall before result).fired = s.fired := by
  cases result <;> cases before <;> rfl

@[simp]
theorem afterCall_micro (s : SessionState) (before : Option Traffic)
    (result : Except Crash (Option SessionReport × SessionStat)) :
    (s.afterCall before result).micro = s.micro := by
  cases result <;> cases before <;> rfl

@[simp]
theorem afterCall_ending (s : SessionState) (before : Option Traffic)
    (result : Except Crash (Option SessionReport × SessionStat)) :
    (s.afterCall before result).ending = s.ending := by
  cases result <;> cases before <;> rfl

@[simp]
theorem settle_reports (s : SessionState) (result : Except Crash (Option SessionStat)) :
    (s.settle result).reports = s.reports := by
  cases result <;> rfl

@[simp]
theorem settle_lastCall (s : SessionState) (result : Except Crash (Option SessionStat)) :
    (s.settle result).lastCall = s.lastCall := by
  cases result <;> rfl

@[simp]
theorem settle_micro (s : SessionState) (result : Except Crash (Option SessionStat)) :
    (s.settle result).micro = s.micro := by
  cases result <;> rfl

@[simp]
theorem settle_ending (s : SessionState) (result : Except Crash (Option SessionStat)) :
    (s.settle result).ending = s.ending := by
  cases result <;> rfl

@[simp]
theorem settle_fired (s : SessionState) (result : Except Crash (Option SessionStat)) :
    (s.settle result).fired = s.fired := by
  cases result <;> rfl

theorem settle_phase_ne_new (s : SessionState) (result : Except Crash (Option SessionStat)) :
    (s.settle result).phase ≠ .new := by
  cases result <;> exact Phase.noConfusion

theorem afterCall_phase_ne_new (s : SessionState) (before : Option Traffic)
    (result : Except Crash (Option SessionReport × SessionStat)) :
    (s.afterCall before result).phase ≠ .new := by
  cases result <;> cases before <;> exact Phase.noConfusion

theorem close_phase_ne_new (s : SessionState) : s.close.phase ≠ .new := by
  unfold close
  cases s.phase <;> exact Phase.noConfusion

/-- After a callback that may report, the session is where its result says. -/
theorem afterCall_phase (s : SessionState) (before : Option Traffic)
    (result : Except Crash (Option SessionReport × SessionStat)) :
    (s.afterCall before result).phase = (s.settle ((result.map Prod.snd).map some)).phase := by
  cases result <;> cases before <;> rfl

theorem packet_dpi (s : SessionState) (env : Env) (stat : Option SessionStat) (next : DpiSession)
    (info : PacketInfo) : (s.packet env stat next info).dpi = next := by
  unfold packet
  dsimp only
  split_ifs <;> simp

theorem packet_reports (s : SessionState) (env : Env) (stat : Option SessionStat)
    (next : DpiSession) (info : PacketInfo) :
    (s.packet env stat next info).reports = s.reports := by
  unfold packet
  dsimp only
  split_ifs <;> simp

theorem packet_lastCall (s : SessionState) (env : Env) (stat : Option SessionStat)
    (next : DpiSession) (info : PacketInfo) :
    (s.packet env stat next info).lastCall = s.lastCall := by
  unfold packet
  dsimp only
  split_ifs <;> simp

theorem packet_fired (s : SessionState) (env : Env) (stat : Option SessionStat) (next : DpiSession)
    (info : PacketInfo) : (s.packet env stat next info).fired = s.fired := by
  unfold packet
  dsimp only
  split_ifs <;> simp

/-- After a packet the statistics have other times of response; a session without statistics is
where it was, or crashed. -/
theorem packet_phase {s : SessionState} {stat : Option SessionStat} (live : s.phase = .live stat)
    (env : Env) (next : DpiSession) (info : PacketInfo) :
    (∃ old qos, stat = some old ∧
        (s.packet env stat next info).phase = .live (some { old with qos := qos })) ∨
      (stat = none ∧ (s.packet env stat next info).phase = .live none) ∨
      stat = none ∧ (env.conf.session.isEnable = true ∧ env.build.qosModule = true ∧
        (getProtocolIndexAfterSession .tcp info).isSome = true) ∧
        (s.packet env stat next info).phase = .crashed .nullStat := by
  unfold packet
  dsimp only
  cases stat with
  | none =>
      apply Or.inr
      split_ifs with henable
      · rw [receivingPacket_none]
        split_ifs with hnull
        · exact .inr ⟨rfl, ⟨henable, hnull⟩, rfl⟩
        · exact .inl ⟨rfl, rfl⟩
      · exact .inl ⟨rfl, live⟩
  | some old =>
      apply Or.inl
      split_ifs
      · rcases receivingPacket_some env.build env.conf.session.rttBase info old with ⟨qos, hqos⟩
        exact ⟨old, qos, rfl, by rw [hqos]; rfl⟩
      · exact ⟨old, old.qos, rfl, live⟩

theorem onApp_dpi (s : SessionState) (app : AppType) (stat : Option SessionStat)
    (handle : SessionStat → Except Crash SessionStat) : (s.onApp app stat handle).dpi = s.dpi := by
  cases stat <;> simp [onApp]

theorem webMethod_dpi (s : SessionState) (env : Env) (stat : Option SessionStat) (ts : Timeval)
    (val : Option (List UInt8)) : (s.webMethod env stat ts val).dpi = s.dpi := by
  cases stat <;> simp [webMethod]

theorem gtp_dpi (s : SessionState) (stat : Option SessionStat) (afterGtp : Bool) (outer : OuterIp)
    (teid : Option UInt32) : (s.gtp stat afterGtp outer teid).dpi = s.dpi := by
  cases afterGtp <;> simp [gtp]

@[simp]
theorem doReport_dpi (s : SessionState) (env : Env) (stat : Option SessionStat) :
    (s.doReport env stat).dpi = s.dpi :=
  afterCall_dpi _ _ _

@[simp]
theorem updateMicro_reports (s : SessionState) (env : Env) :
    (s.updateMicro env).reports = s.reports := by
  unfold updateMicro
  split <;> rfl

@[simp]
theorem updateMicro_lastCall (s : SessionState) (env : Env) :
    (s.updateMicro env).lastCall = s.lastCall := by
  unfold updateMicro
  split <;> rfl

@[simp]
theorem updateMicro_fired (s : SessionState) (env : Env) :
    (s.updateMicro env).fired = s.fired := by
  unfold updateMicro
  split <;> rfl

@[simp]
theorem updateMicro_ending (s : SessionState) (env : Env) :
    (s.updateMicro env).ending = s.ending := by
  unfold updateMicro
  split <;> rfl

@[simp]
theorem updateMicro_phase (s : SessionState) (env : Env) :
    (s.updateMicro env).phase = s.phase := by
  unfold updateMicro
  split <;> rfl

@[simp]
theorem updateMicro_dpi (s : SessionState) (env : Env) : (s.updateMicro env).dpi = s.dpi := by
  unfold updateMicro
  split <;> rfl

theorem finish_dpi (s : SessionState) (env : Env) (stat : Option SessionStat) :
    (s.finish env stat).dpi = s.dpi := by
  unfold finish
  split_ifs <;> simp [beginEnding, close]

theorem close_phase_ne (s : SessionState) (stat : Option SessionStat) :
    s.close.phase ≠ .live stat := by
  unfold close
  cases s.phase <;> exact Phase.noConfusion

/-- A callback of an application makes no report. -/
theorem silent_onApp {stat : Option SessionStat} (live : s.phase = .live stat) (app : AppType)
    {handle : SessionStat → Except Crash SessionStat}
    (keeps : ∀ old new, handle old = .ok new → old.OnlyApp new) :
    Silent s (s.onApp app stat handle) := by
  cases stat with
  | none => exact .refl s
  | some old =>
      cases hhandle : handle old with
      | error why =>
          apply Silent.of_not_live <;> simp [onApp, settle, hhandle, Except.map]
      | ok new =>
          apply Silent.of_live _ _ live _ (keeps old new hhandle) <;>
            simp [onApp, settle, hhandle, Except.map]

/-- A packet makes no report. -/
theorem quiet_packet {stat : Option SessionStat} (live : s.phase = .live stat) (env : Env)
    (next : DpiSession) (info : PacketInfo) : Quiet s (s.packet env stat next info) := by
  have hreports : (s.packet env stat next info).reports = s.reports := s.packet_reports ..
  have hlast : (s.packet env stat next info).lastCall = s.lastCall := s.packet_lastCall ..
  apply Quiet.mk hreports hlast
  intro new hnew
  rcases packet_phase live env next info with ⟨old, qos, rfl, hphase⟩ | ⟨_, hphase⟩ |
    ⟨_, _, hphase⟩
  · rw [hphase] at hnew
    cases hnew
    exact .inr ⟨old, live, rfl⟩
  · rw [hphase] at hnew
    cases hnew
  · rw [hphase] at hnew
    cases hnew

/-- A callback of the GTP module makes no report. -/
theorem silent_gtp {stat : Option SessionStat} (live : s.phase = .live stat) (afterGtp : Bool)
    (outer : OuterIp) (teid : Option UInt32) : Silent s (s.gtp stat afterGtp outer teid) := by
  unfold gtp
  cases afterGtp with
  | false => exact .refl s
  | true =>
  · cases hhandle : gtpIpSrcHandle stat outer teid with
    | error why => apply Silent.of_not_live <;> simp [settle]
    | ok result =>
        cases result with
        | none => apply Silent.of_not_live <;> simp [settle]
        | some new =>
            rcases gtpIpSrcHandle_onlyApp hhandle with ⟨old, rfl, honly⟩
            exact .of_live rfl rfl live rfl honly

/-- A callback that crashes, or that does not call `session_report_do_report`, reports
nothing. -/
theorem silent_afterCall_none {old : SessionStat}
    {result : Except Crash (Option SessionReport × SessionStat)}
    (live : s.phase = .live (some old))
    (keeps : ∀ report new, result = .ok (report, new) → old.OnlyApp new) :
    Silent s (s.afterCall none result) := by
  cases result with
  | error why => exact .of_not_live rfl rfl fun stat => Phase.noConfusion
  | ok result => exact .of_live rfl rfl live rfl (keeps result.1 result.2 rfl)

/-- A call of `session_report_do_report` that crashes reports nothing; one that returns
is recorded. -/
theorem afterCall_cases (env : Env) {old : SessionStat}
    {result : Except Crash (Option SessionReport × SessionStat)}
    (live : s.phase = .live (some old))
    (printed : ∀ report new, result = .ok (report, new) → ∃ prepared middle,
      old.OnlyApp prepared ∧
        printIpSessionReport env.build s.dpi prepared = .ok (report, middle) ∧
        middle.OnlyApp new) :
    Silent s (s.afterCall (some old.toTraffic) result) ∨
      Called env s (s.afterCall (some old.toTraffic) result) := by
  cases result with
  | error why => exact .inl (.of_not_live rfl rfl fun stat => Phase.noConfusion)
  | ok result =>
      rcases result with ⟨report, new⟩
      rcases printed report new rfl with ⟨prepared, middle, hprepared, hprint, honly⟩
      refine .inr ⟨rfl, old, prepared, middle, report, live, hprepared, hprint, rfl, rfl, ?_⟩
      rintro stat ⟨⟩
      exact honly

theorem doReport_cases {stat : Option SessionStat} (live : s.phase = .live stat) (env : Env) :
    Silent s (s.doReport env stat) ∨
      (Called env s (s.doReport env stat) ∧ ∃ old, stat = some old) := by
  cases stat with
  | none => exact .inl (.of_not_live rfl rfl fun stat => Phase.noConfusion)
  | some old =>
      have hcases := afterCall_cases env live
        (fun report new returned => ⟨old, new, .refl old, returned, .refl new⟩)
      exact hcases.imp_right fun hcalled => ⟨hcalled, old, rfl⟩

/-- A request makes a report exactly when the session had one. -/
theorem webMethod_cases {stat : Option SessionStat} (live : s.phase = .live stat) (env : Env)
    (ts : Timeval) (val : Option (List UInt8)) :
    Silent s (s.webMethod env stat ts val) ∨
      (Called env s (s.webMethod env stat ts val) ∧
        ∃ old, stat = some old ∧ old.hasRequest = true) := by
  cases stat with
  | none => exact .inl (.refl s)
  | some old =>
      cases hrequest : old.hasRequest with
      | false =>
          have hsilent :
              Silent s (s.afterCall none (webMethodHandle env.build s.dpi ts val old)) := by
            apply silent_afterCall_none live
            intro report new returned
            rcases webMethodHandle_eq_ok returned with ⟨_, _, honly⟩ | ⟨hhas, _⟩
            · exact honly
            · exact absurd (hrequest.symm.trans hhas) Bool.false_ne_true
          simp only [webMethod, hrequest]
          exact .inl ⟨hsilent.reports, hsilent.lastCall, hsilent.keeps⟩
      | true =>
          have hcases : Silent s (s.afterCall (some old.toTraffic)
              (webMethodHandle env.build s.dpi ts val old)) ∨ Called env s (s.afterCall
              (some old.toTraffic) (webMethodHandle env.build s.dpi ts val old)) := by
            apply afterCall_cases env live
            intro report new returned
            rcases webMethodHandle_eq_ok returned with ⟨hhas, _⟩ | ⟨_, hprinted⟩
            · exact absurd (hhas.symm.trans hrequest) Bool.false_ne_true
            · exact hprinted
          simp only [webMethod, hrequest]
          rcases hcases with hsilent | hcalled
          · exact .inl ⟨hsilent.reports, hsilent.lastCall, hsilent.keeps⟩
          · exact .inr ⟨⟨hcalled.dpi, hcalled.returned⟩, old, rfl, hrequest⟩

/-- The end of a session reports when the session is not a micro-flow. -/
theorem finish_cases {stat : Option SessionStat} (live : s.phase = .live stat) (env : Env) :
    Silent s (s.finish env stat) ∨
      (Called env s (s.finish env stat) ∧ ∃ old, stat = some old ∧
        env.isMicro s.dpi = false ∧ env.conf.session.isEnable = true) := by
  have hover : ∀ t : SessionState, ∀ stat, t.close.phase ≠ .live (some stat) :=
    fun t stat => close_phase_ne t (some stat)
  unfold finish
  split_ifs with hmicro henable
  · exact .inl (.of_not_live (by simp [beginEnding, close]) (by simp [beginEnding, close])
      (hover _))
  · rcases doReport_cases (s := s.beginEnding) live env with hsilent | ⟨hcalled, old, hold⟩
    · exact .inl (.of_not_live hsilent.reports hsilent.lastCall (hover _))
    · rcases hcalled.returned with ⟨old', prepared, middle, report, hlive, hprepared, hprint,
        hreports, hlastCall, _⟩
      refine .inr ⟨⟨hcalled.dpi, old', prepared, middle, report, hlive,
        hprepared, hprint, hreports, hlastCall,
        fun stat hstat => absurd hstat (hover _ stat)⟩, old, hold, by simpa using hmicro, henable⟩
  · exact .inl (.of_not_live rfl rfl (hover _))

end SessionState

theorem Env.isEnable_of_registered {app : AppType} (registered : env.registered app = true) :
    env.conf.session.isEnable = true := by
  cases app with
  | ip | ftp => cases registered
  | web | ssl | rtp | gtp => exact (Bool.and_eq_true_iff.mp registered).1

/-- Every callback changes at most the application, or is a packet, or calls
`session_report_do_report`, which is done only with session reports enabled. -/
theorem sessionStep_effect (enabled : sessionStep env s act = some target) :
    (Silent s target ∧ target.dpi = s.dpi ∧ ∀ next info, act ≠ .packet next info) ∨
      (∃ stat next info, act = .packet next info ∧ s.phase = .live stat ∧ s.dpi.Grows next ∧
        target = s.packet env stat next info) ∨
      (Called env s target ∧ env.conf.session.isEnable = true ∧
        ∃ stat, s.phase = .live (some stat) ∧ Reports env s stat act) := by
  have heffect := sessionStep_eq_some enabled
  cases act with
  | start proto =>
      rcases heffect with ⟨hnew, rfl⟩
      refine .inl ⟨⟨rfl, rfl, ?_⟩, rfl, fun _ _ => SessionAct.noConfusion⟩
      intro stat hstat
      simp only [startingSession, Phase.live.injEq] at hstat
      split_ifs at hstat
      cases hstat
      exact .inl ⟨hnew, rfl⟩
  | packet next info =>
      rcases heffect with ⟨stat, hlive, hgrows, rfl⟩
      exact .inr (.inl ⟨stat, next, info, rfl, hlive, hgrows, rfl⟩)
  | web ts att =>
      rcases heffect with ⟨stat, hlive, _, rfl⟩
      exact .inl ⟨SessionState.silent_onApp hlive .web fun _ _ => webHandle_onlyApp,
        s.onApp_dpi _ _ _, fun _ _ => SessionAct.noConfusion⟩
  | webMethod ts val =>
      rcases heffect with ⟨stat, hlive, hregistered, rfl⟩
      rcases SessionState.webMethod_cases hlive env ts val with hsilent | ⟨hcalled, old, rfl, hhas⟩
      · exact .inl ⟨hsilent, s.webMethod_dpi env stat ts val, fun _ _ => SessionAct.noConfusion⟩
      · exact .inr (.inr ⟨hcalled, Env.isEnable_of_registered hregistered, old, hlive, hhas⟩)
  | ssl val =>
      rcases heffect with ⟨stat, hlive, _, rfl⟩
      exact .inl ⟨SessionState.silent_onApp hlive .ssl fun _ _ => sslServerNameHandle_onlyApp,
        s.onApp_dpi _ _ _, fun _ _ => SessionAct.noConfusion⟩
  | rtp att =>
      rcases heffect with ⟨stat, hlive, _, rfl⟩
      exact .inl ⟨SessionState.silent_onApp hlive .rtp fun _ _ => rtpHandle_onlyApp,
        s.onApp_dpi _ _ _, fun _ _ => SessionAct.noConfusion⟩
  | gtp afterGtp outer teid =>
      rcases heffect with ⟨stat, hlive, _, rfl⟩
      exact .inl ⟨SessionState.silent_gtp hlive afterGtp outer teid,
        s.gtp_dpi stat afterGtp outer teid, fun _ _ => SessionAct.noConfusion⟩
  | tick =>
      rcases heffect with ⟨stat, hlive, henable, rfl⟩
      unfold SessionState.tick
      split_ifs with hreport
      · rcases SessionState.doReport_cases hlive env with hsilent | ⟨hcalled, old, rfl⟩
        · exact .inl ⟨hsilent, s.doReport_dpi env stat, fun _ _ => SessionAct.noConfusion⟩
        · exact .inr (.inr ⟨hcalled, henable, old, hlive, hreport.2⟩)
      · exact .inl ⟨.refl s, rfl, fun _ _ => SessionAct.noConfusion⟩
  | finish =>
      rcases heffect with ⟨stat, hlive, rfl⟩
      rcases SessionState.finish_cases hlive env with hsilent | ⟨hcalled, old, rfl, hreport⟩
      · exact .inl ⟨hsilent, s.finish_dpi env stat, fun _ _ => SessionAct.noConfusion⟩
      · exact .inr (.inr ⟨hcalled, hreport.2, old, hlive, hreport⟩)

/-- Every callback either makes no report, and then only a packet changes the counters
of the packet inspection, or calls `session_report_do_report`. -/
theorem sessionStep_traffic (enabled : sessionStep env s act = some target) :
    (Quiet s target ∧ target.dpi = s.dpi) ∨
      (Quiet s target ∧ s.dpi.Grows target.dpi ∧ ∃ info, act = .packet target.dpi info) ∨
      (Calls env s target ∧ ∃ stat, s.phase = .live (some stat) ∧ Reports env s stat act) := by
  rcases sessionStep_effect enabled with ⟨hsilent, hdpi, _⟩ |
    ⟨stat, next, info, rfl, hlive, hgrows, rfl⟩ | ⟨hcalled, _, hreports⟩
  · exact .inl ⟨hsilent.quiet, hdpi⟩
  · have hdpi : (s.packet env stat next info).dpi = next := s.packet_dpi env stat next info
    rw [hdpi]
    exact .inr (.inl ⟨SessionState.quiet_packet hlive env next info, hgrows, info, rfl⟩)
  · exact .inr (.inr ⟨hcalled.calls, hreports⟩)

/-- A session that was started stays started. -/
theorem sessionStep_phase_ne_new (enabled : sessionStep env s act = some target) :
    target.phase ≠ .new := by
  have heffect := sessionStep_eq_some enabled
  cases act with
  | start proto =>
      rcases heffect with ⟨_, rfl⟩
      exact Phase.noConfusion
  | packet next info =>
      rcases heffect with ⟨stat, hlive, _, rfl⟩
      unfold SessionState.packet
      dsimp only
      split_ifs
      · exact SessionState.settle_phase_ne_new _ _
      · rw [hlive]
        exact Phase.noConfusion
  | web _ _ | ssl _ | rtp _ =>
      rcases heffect with ⟨stat, hlive, _, rfl⟩
      cases stat with
      | none =>
          rw [SessionState.onApp, hlive]
          exact Phase.noConfusion
      | some stat => exact SessionState.settle_phase_ne_new _ _
  | webMethod ts val =>
      rcases heffect with ⟨stat, hlive, _, rfl⟩
      cases stat with
      | none =>
          rw [SessionState.webMethod, hlive]
          exact Phase.noConfusion
      | some stat => exact SessionState.afterCall_phase_ne_new _ _ _
  | gtp afterGtp outer teid =>
      rcases heffect with ⟨stat, hlive, _, rfl⟩
      cases afterGtp with
      | false =>
          show s.phase ≠ .new
          rw [hlive]
          exact Phase.noConfusion
      | true => exact SessionState.settle_phase_ne_new _ _
  | tick =>
      rcases heffect with ⟨stat, hlive, _, rfl⟩
      unfold SessionState.tick
      split_ifs
      · exact SessionState.afterCall_phase_ne_new _ _ _
      · rw [hlive]
        exact Phase.noConfusion
  | finish =>
      rcases heffect with ⟨stat, _, rfl⟩
      unfold SessionState.finish
      split_ifs <;> exact SessionState.close_phase_ne_new _

/-- Only the end of a session touches the micro-flow statistics. -/
theorem sessionStep_micro (enabled : sessionStep env s act = some target) (going : act ≠ .finish) :
    target.micro = s.micro ∧ target.ending = s.ending := by
  have heffect := sessionStep_eq_some enabled
  cases act with
  | start proto =>
      rcases heffect with ⟨_, rfl⟩
      exact ⟨rfl, rfl⟩
  | packet next info =>
      rcases heffect with ⟨stat, _, _, rfl⟩
      unfold SessionState.packet
      dsimp only
      split_ifs <;> simp
  | web _ _ | ssl _ | rtp _ =>
      rcases heffect with ⟨stat, _, _, rfl⟩
      cases stat <;> simp [SessionState.onApp]
  | webMethod ts val =>
      rcases heffect with ⟨stat, _, _, rfl⟩
      cases stat <;> simp [SessionState.webMethod]
  | gtp afterGtp outer teid =>
      rcases heffect with ⟨stat, _, _, rfl⟩
      cases afterGtp <;> simp [SessionState.gtp]
  | tick =>
      rcases heffect with ⟨stat, _, _, rfl⟩
      unfold SessionState.tick SessionState.doReport
      split_ifs <;> simp
  | finish => exact absurd rfl going

end MmtProbe.Dpi
