/-
# The HTTP part of the session reports

The callbacks on HTTP attributes, the periodic report and the report that a new request
triggers all work on one structure.  What they do to a session is recorded in a log of
four kinds of events, the oldest one first: a request, a host name, a response, and a
report with the structure from which its HTTP part was printed.

Whatever such a report says is decided by a relation between the log and the structure.
`webLog_past` is the rule for it: a relation that every callback keeps holds whenever a
report is printed.
-/

import MmtProbe.Dpi.Session
import MmtProbe.Math.Trace

namespace MmtProbe.Dpi

open MmtProbe.Configure MmtProbe.Math

/-! ## The structure and what is printed of it -/

/-- The web structure behind a pointer of the union, when it is one. -/
def webOf : Option AppStat → Option WebStat
  | some (.web web) => some web
  | _ => none

/-- The web structure of a session, when it has one. -/
def SessionStat.web? (stat : SessionStat) : Option WebStat := webOf stat.apps

/-- The web structure from which a report was printed. -/
def SessionReport.web? (report : SessionReport) : Option WebStat := webOf report.app

/-- The structure after `print_web_report`. -/
def WebStat.printed (build : Build) (web : WebStat) : WebStat :=
  { web with
    responseTime := if build.qosModule then .zero else web.responseTime
    transactionIndicator := web.transactionIndicator + 1 }

/-- `_has_response` -/
def WebStat.hasResponse (web : WebStat) : Bool := web.responseTime.tvSec != 0

/-- `_has_request` -/
def WebStat.hasRequest (web : WebStat) : Bool := web.requestTime.tvSec != 0

/-- The time from a moment to the response, zero when one of them is missing or the
response came first. -/
def WebStat.timeSince (web : WebStat) (start : Timeval) : Int :=
  let time := if web.hasResponse && web.hasRequest then uSecondDiff web.responseTime start else 0
  if time < 0 then 0 else time

/-- The `response_time` that is printed with `QOS_MODULE`. -/
def WebStat.printedResponseTime (web : WebStat) : Int := web.timeSince web.requestTime

/-- The `interaction_time` that is printed with `QOS_MODULE`. -/
def WebStat.interactionTime (web : WebStat) : Int := web.timeSince web.firstRequestTime

/-! ## The log -/

/-- What happens to the HTTP transactions of a session. -/
inductive WebEvent where
  /-- `RFC2822_METHOD` -/
  | request (ts : Timeval)
  /-- `RFC2822_HOST` with a name. -/
  | host
  /-- `RFC2822_RESPONSE` -/
  | response
  /-- `print_web_report` -/
  | printed (web : WebStat)
deriving DecidableEq, Repr

/-- The event that a callback is. -/
def SessionAct.webEvent : SessionAct → Option WebEvent
  | .webMethod ts _ => some (.request ts)
  | .web _ (.host val) => if hasString (copyStringValue 64 val) then some .host else none
  | .web _ (.response _) => some .response
  | _ => none

/-- A step adds the reports that it prints, and then its own event: a request is
preceded by the report of the old one. -/
def recordWeb (s : SessionState) (act : SessionAct) (target : SessionState)
    (log : List WebEvent) : List WebEvent :=
  log ++ (target.reports.drop s.reports.length).filterMap (·.report.web?.map .printed) ++
    act.webEvent.toList

/-- The callbacks on one session beside the log. -/
def webMachine (env : Env) : Machine (SessionState × List WebEvent) SessionAct :=
  (sessionMachine env).observe [] recordWeb

/-! ## What the callbacks do to the structure -/

variable {build : Build} {stat target : SessionStat}

theorem printAppReport_web {appType : AppType} {apps app kept : Option AppStat}
    (returned : printAppReport build appType apps = .ok (app, kept)) :
    (∃ web, webOf apps = some web ∧ webOf app = some web ∧
        webOf kept = some (web.printed build)) ∨
      (webOf app = none ∧ webOf kept = webOf apps) := by
  unfold printAppReport at returned
  split at returned
  case h_3 web =>
    cases returned
    exact .inl ⟨web, rfl, rfl, rfl⟩
  all_goals cases returned <;> exact .inr ⟨rfl, rfl⟩

/-- A report prints the web structure of its session, or none. -/
theorem printIpSessionReport_web {dpi : DpiSession} {report : Option SessionReport}
    (returned : printIpSessionReport build dpi stat = .ok (report, target)) :
    (report = none ∧ target = stat) ∨ ∃ printed, report = some printed ∧
      ((∃ web, stat.web? = some web ∧ printed.web? = some web ∧
          target.web? = some (web.printed build)) ∨
        (printed.web? = none ∧ target.web? = stat.web?)) := by
  unfold printIpSessionReport at returned
  split_ifs at returned with hnone
  · cases returned
    exact .inl ⟨rfl, rfl⟩
  · rcases bind_eq_ok_iff.mp returned with ⟨⟨app, apps⟩, happ, returned⟩
    cases returned
    exact .inr ⟨_, rfl, printAppReport_web happ⟩

theorem webOf_of_asWeb {apps : Option AppStat} {web : WebStat} (found : asWeb apps = .ok web) :
    webOf apps = some web := by
  unfold asWeb at found
  split at found
  · cases found
    rfl
  · cases found

/-- `_get_packet_session` of the web module finds the structure of the session or makes
an empty one. -/
theorem getPacketSession_web {prepared : SessionStat} {web : WebStat}
    (returned : getPacketSession .web (.web .reset) stat = .ok prepared)
    (found : asWeb prepared.apps = .ok web) :
    web = stat.web?.getD .reset ∧ (stat.web? = none → stat.apps = none) := by
  unfold getPacketSession at returned
  split_ifs at returned with hother
  cases returned
  cases happs : stat.apps with
  | none =>
      rw [happs] at found
      cases found
      exact ⟨by rw [SessionStat.web?, happs]; rfl, fun _ => rfl⟩
  | some app =>
      rw [happs] at found
      cases app with
      | web _ =>
          cases found
          exact ⟨by rw [SessionStat.web?, happs]; rfl, by simp [SessionStat.web?, happs, webOf]⟩
      | ssl _ | rtp _ | ftp _ | gtp _ => cases found

/-- A callback of the web module writes the structure that it finds. -/
theorem webHandle_web {ts : Timeval} {att : WebAttribute}
    (returned : webHandle build stat ts att = .ok target) :
    target.web? = some ((stat.web?.getD .reset).handle build ts att) ∧
      (stat.web? = none → stat.apps = none) := by
  unfold webHandle at returned
  rcases bind_eq_ok_iff.mp returned with ⟨prepared, hprepared, returned⟩
  rcases bind_eq_ok_iff.mp returned with ⟨web, hweb, returned⟩
  rcases getPacketSession_web hprepared hweb with ⟨rfl, hnone⟩
  cases returned
  exact ⟨rfl, hnone⟩

/-- A request is written to the structure that it finds, or to an empty one after a
report of the old request. -/
theorem webMethodHandle_web {dpi : DpiSession} {ts : Timeval} {val : Option (List UInt8)}
    {report : Option SessionReport}
    (returned : webMethodHandle build dpi ts val stat = .ok (report, target)) :
    (stat.web? = none → stat.apps = none) ∧
      let web := stat.web?.getD .reset
      if hasString web.hostname then
        target.web? = some (WebStat.reset.request build ts val) ∧ ∃ prepared middle,
          prepared.web? = some web ∧
            printIpSessionReport build dpi prepared = .ok (report, middle)
      else report = none ∧ target.web? = some (web.request build ts val) := by
  unfold webMethodHandle at returned
  rcases bind_eq_ok_iff.mp returned with ⟨prepared, hprepared, returned⟩
  rcases bind_eq_ok_iff.mp returned with ⟨web, hweb, returned⟩
  rcases bind_eq_ok_iff.mp returned with ⟨⟨printed, middle, web'⟩, hreport, returned⟩
  rcases getPacketSession_web hprepared hweb with ⟨hfound, hnone⟩
  cases returned
  refine ⟨hnone, ?_⟩
  rw [← hfound]
  unfold reportOldRequest at hreport
  dsimp only
  split_ifs at hreport ⊢ with hhost
  · rcases map_eq_ok_iff.mp hreport with ⟨⟨printed', middle'⟩, hprint, hpair⟩
    cases hpair
    exact ⟨rfl, prepared, middle, webOf_of_asWeb hweb, hprint⟩
  · cases hreport
    exact ⟨rfl, rfl⟩

theorem sslServerNameHandle_web {val : Option (List UInt8)}
    (returned : sslServerNameHandle stat val = .ok target) : target.web? = stat.web? := by
  have hattach : (attachSsl stat).web? = stat.web? := by
    unfold attachSsl SessionStat.web?
    cases happs : stat.apps with
    | none => rfl
    | some app => rw [happs]
  unfold sslServerNameHandle at returned
  split_ifs at returned with hother
  rw [← hattach]
  cases val with
  | none =>
      cases returned
      rfl
  | some line =>
      cases line with
      | nil =>
          cases returned
          rfl
      | cons byte line =>
          rcases bind_eq_ok_iff.mp returned with ⟨ssl, hssl, returned⟩
          cases returned
          unfold asSsl at hssl
          split at hssl
          case h_1 happs =>
            rw [SessionStat.web?, SessionStat.web?, happs]
            rfl
          case h_2 => cases hssl

theorem rtpHandle_web {att : RtpAttribute} (returned : rtpHandle stat att = .ok target) :
    target.web? = stat.web? := by
  unfold rtpHandle at returned
  rcases bind_eq_ok_iff.mp returned with ⟨prepared, hprepared, returned⟩
  rcases bind_eq_ok_iff.mp returned with ⟨rtp, hrtp, returned⟩
  unfold getPacketSession at hprepared
  split_ifs at hprepared with hother
  cases hprepared
  cases returned
  unfold SessionStat.web?
  cases happs : stat.apps with
  | none => rfl
  | some app =>
      rw [happs] at hrtp
      cases app with
      | rtp _ => rfl
      | web _ | ssl _ | ftp _ | gtp _ => cases hrtp

theorem gtpIpSrcHandle_web {given : Option SessionStat} {outer : OuterIp} {teid : Option UInt32}
    (returned : gtpIpSrcHandle given outer teid = .ok (some target)) :
    ∃ stat, given = some stat ∧ target.web? = stat.web? := by
  unfold gtpIpSrcHandle getGtpSessionData at returned
  cases given with
  | none => cases returned
  | some stat =>
      refine ⟨stat, rfl, ?_⟩
      unfold SessionStat.web?
      cases happs : stat.apps with
      | none =>
          simp only [happs] at returned
          cases returned
          rfl
      | some app =>
          simp only [happs] at returned
          rcases bind_eq_ok_iff.mp returned with ⟨gtp, hgtp, returned⟩
          cases returned
          cases app with
          | gtp _ => rfl
          | web _ | ssl _ | rtp _ | ftp _ => cases hgtp

/-! ## The rule -/

/-- A relation between the log and the web structure that every callback keeps. -/
structure WebRelation (build : Build) (Rel : List WebEvent → WebStat → Prop) : Prop where
  empty : Rel [] .reset
  handle : ∀ log web ts att, Rel log web →
    Rel (log ++ (SessionAct.web ts att).webEvent.toList) (web.handle build ts att)
  /-- A request that finds no host name is written to the structure as it is .. -/
  request : ∀ log web ts val, hasString web.hostname = false → Rel log web →
    Rel (log ++ [.request ts]) (web.request build ts val)
  /-- .. and one that finds a host name to an empty structure. -/
  renew : ∀ log web ts val, hasString web.hostname = true → Rel log web →
    Rel (log ++ [.request ts]) (WebStat.reset.request build ts val)
  print : ∀ log web, Rel log web → Rel (log ++ [.printed web]) (web.printed build)

/-- A condition on the reports of a log, each with the events before it. -/
def OnPrinted (ok : List WebEvent → WebStat → Prop) (before : List WebEvent) : WebEvent → Prop
  | .printed web => ok before web
  | _ => True

/-- What the rule keeps: the structure of the session, or an empty one, is related to the
log. -/
structure WebInv (Rel ok : List WebEvent → WebStat → Prop)
    (state : SessionState × List WebEvent) : Prop where
  starts : state.1.phase = .new → state.2 = []
  related : ∀ stat, state.1.phase = .live (some stat) → Rel state.2 (stat.web?.getD .reset)
  past : Past (OnPrinted ok) state.2

variable {Rel ok : List WebEvent → WebStat → Prop} {env : Env}
  {state target : SessionState × List WebEvent} {act : SessionAct}

/-- The event of a callback is no report. -/
theorem past_webEvent {log : List WebEvent} (past : Past (OnPrinted ok) log) (act : SessionAct) :
    Past (OnPrinted ok) (log ++ act.webEvent.toList) := by
  cases hevent : act.webEvent with
  | none => simpa using past
  | some event =>
      apply past.concat
      cases event with
      | printed web =>
          unfold SessionAct.webEvent at hevent
          split at hevent
          · cases hevent
          · split_ifs at hevent
            cases hevent
          · cases hevent
          · cases hevent
      | request _ | host | response => trivial

/-- What a call of `session_report_do_report` adds to the log and leaves in the
structure. -/
theorem WebInv.printed {log : List WebEvent} {stat after : SessionStat} {dpi : DpiSession}
    {report : Option SessionReport} (relation : WebRelation env.build Rel)
    (right : ∀ log web, Rel log web → ok log web) (past : Past (OnPrinted ok) log)
    (related : Rel log (stat.web?.getD .reset))
    (returned : printIpSessionReport env.build dpi stat = .ok (report, after)) :
    Past (OnPrinted ok) (log ++ report.toList.filterMap (·.web?.map .printed)) ∧
      Rel (log ++ report.toList.filterMap (·.web?.map .printed)) (after.web?.getD .reset) ∧
      (after.web?.getD .reset).hostname = (stat.web?.getD .reset).hostname := by
  rcases printIpSessionReport_web returned with ⟨rfl, rfl⟩ |
    ⟨printed, rfl, ⟨web, hweb, hprinted, hafter⟩ | ⟨hprinted, hafter⟩⟩
  · simpa using ⟨past, related⟩
  · rw [hweb, Option.getD_some] at related
    have hlog : (some printed).toList.filterMap (·.web?.map WebEvent.printed) =
        [WebEvent.printed web] := by
      simp [hprinted]
    rw [hlog, hafter, hweb, Option.getD_some, Option.getD_some]
    exact ⟨past.concat (right log web related), relation.print log web related, rfl⟩
  · have hlog : (some printed).toList.filterMap (·.web?.map WebEvent.printed) = [] := by
      simp [hprinted]
    rw [hlog, hafter, List.append_nil]
    exact ⟨past, related, rfl⟩

/-- What a step leaves, by the reports that it prints. -/
theorem webInv_after {s target : SessionState} {log : List WebEvent} (act : SessionAct)
    {report : Option SessionReport} {before now : Traffic}
    (reports : target.reports =
      s.reports ++ (report.map fun report => (⟨report, before, now⟩ : Emitted)).toList)
    (started : target.phase ≠ .new)
    (past : Past (OnPrinted ok) (log ++ report.toList.filterMap (·.web?.map .printed)))
    (related : ∀ stat, target.phase = .live (some stat) →
      Rel (log ++ report.toList.filterMap (·.web?.map .printed) ++ act.webEvent.toList)
        (stat.web?.getD .reset)) :
    WebInv Rel ok (target, recordWeb s act target log) := by
  have hlog : recordWeb s act target log =
      log ++ report.toList.filterMap (·.web?.map .printed) ++ act.webEvent.toList := by
    unfold recordWeb
    rw [reports, List.drop_left]
    cases report <;> rfl
  rw [hlog]
  exact ⟨fun hnew => absurd hnew started, related, past_webEvent past act⟩

/-- A step that prints nothing. -/
theorem WebInv.quiet {s target : SessionState} {log : List WebEvent}
    (inv : WebInv Rel ok (s, log)) (act : SessionAct) (reports : target.reports = s.reports)
    (started : target.phase ≠ .new)
    (related : ∀ stat, target.phase = .live (some stat) →
      Rel (log ++ act.webEvent.toList) (stat.web?.getD .reset)) :
    WebInv Rel ok (target, recordWeb s act target log) := by
  have hnone : target.reports = s.reports ++
      ((none : Option SessionReport).map fun report =>
        (⟨report, .zero, .zero⟩ : Emitted)).toList := by
    simpa using reports
  apply webInv_after act hnone started
  · simpa using inv.past
  · simpa using related

/-- A step that prints nothing and behind which no callback prints. -/
theorem WebInv.gone {s target : SessionState} {log : List WebEvent}
    (inv : WebInv Rel ok (s, log)) (act : SessionAct) (reports : target.reports = s.reports)
    (started : target.phase ≠ .new) (ended : ∀ stat, target.phase ≠ .live (some stat)) :
    WebInv Rel ok (target, recordWeb s act target log) :=
  inv.quiet act reports started fun stat live => absurd live (ended stat)

/-- A step that prints nothing and keeps the web structure. -/
theorem WebInv.keeps {s target : SessionState} {log : List WebEvent}
    (inv : WebInv Rel ok (s, log)) (relation : WebRelation env.build Rel)
    (other : act.webEvent = none) (reports : target.reports = s.reports)
    (started : target.phase ≠ .new)
    (same : ∀ stat, target.phase = .live (some stat) →
      (s.phase = .new ∧ stat = .fresh) ∨
        ∃ old, s.phase = .live (some old) ∧ stat.web? = old.web?) :
    WebInv Rel ok (target, recordWeb s act target log) := by
  apply inv.quiet act reports started
  intro stat hlive
  rw [other, Option.toList_none, List.append_nil]
  rcases same stat hlive with ⟨hnew, rfl⟩ | ⟨old, hold, hweb⟩
  · have hempty : log = [] := inv.starts hnew
    rw [hempty]
    exact relation.empty
  · rw [hweb]
    exact inv.related old hold

/-- A call of `session_report_do_report`. -/
theorem WebInv.doReport {s : SessionState} {log : List WebEvent} {given : Option SessionStat}
    (inv : WebInv Rel ok (s, log)) (relation : WebRelation env.build Rel)
    (right : ∀ log web, Rel log web → ok log web) (live : s.phase = .live given)
    (other : act.webEvent = none) :
    WebInv Rel ok (s.doReport env given, recordWeb s act (s.doReport env given) log) := by
  cases given with
  | none => exact inv.gone act rfl Phase.noConfusion fun stat => Phase.noConfusion
  | some stat =>
      unfold SessionState.doReport sessionReportDoReport
      dsimp only
      cases hprint : printIpSessionReport env.build s.dpi stat with
      | error why => exact inv.gone act rfl Phase.noConfusion fun stat => Phase.noConfusion
      | ok result =>
          rcases result with ⟨report, after⟩
          have hprinted := WebInv.printed relation right inv.past (inv.related stat live) hprint
          apply webInv_after act rfl Phase.noConfusion hprinted.1
          rintro stat' ⟨⟩
          rw [other, Option.toList_none, List.append_nil]
          exact hprinted.2.1

/-- A callback on an attribute of HTTP. -/
theorem WebInv.web {s : SessionState} {log : List WebEvent} {given : Option SessionStat}
    (inv : WebInv Rel ok (s, log)) (relation : WebRelation env.build Rel)
    (live : s.phase = .live given) (ts : Timeval) (att : WebAttribute) :
    let target := s.onApp .web given fun stat => webHandle env.build stat ts att
    WebInv Rel ok (target, recordWeb s (.web ts att) target log) := by
  cases given with
  | none =>
      refine inv.gone (.web ts att) rfl ?_ fun stat => ?_
      all_goals
        change s.phase ≠ _
        rw [live]
        simp
  | some old =>
      unfold SessionState.onApp
      dsimp only
      cases hhandle : webHandle env.build old ts att with
      | error why => exact inv.gone _ rfl Phase.noConfusion fun stat => Phase.noConfusion
      | ok new =>
          rcases webHandle_web hhandle with ⟨hweb, _⟩
          refine inv.quiet _ rfl Phase.noConfusion ?_
          rintro stat ⟨⟩
          rw [hweb]
          exact relation.handle log _ ts att (inv.related old live)

/-- A callback of another application. -/
theorem WebInv.onApp {s : SessionState} {log : List WebEvent} {given : Option SessionStat}
    {app : AppType} {handle : SessionStat → Except Crash SessionStat}
    (inv : WebInv Rel ok (s, log)) (relation : WebRelation env.build Rel)
    (live : s.phase = .live given) (other : act.webEvent = none)
    (same : ∀ old new, handle old = .ok new → new.web? = old.web?) :
    WebInv Rel ok (s.onApp app given handle, recordWeb s act (s.onApp app given handle) log) := by
  cases given with
  | none =>
      refine inv.gone act rfl ?_ fun stat => ?_
      all_goals
        change s.phase ≠ _
        rw [live]
        simp
  | some old =>
      unfold SessionState.onApp
      dsimp only
      cases hhandle : handle old with
      | error why => exact inv.gone act rfl Phase.noConfusion fun stat => Phase.noConfusion
      | ok new =>
          refine inv.keeps relation other rfl Phase.noConfusion ?_
          rintro stat ⟨⟩
          exact .inr ⟨old, live, same old _ hhandle⟩

/-- A callback of the GTP module. -/
theorem WebInv.gtp {s : SessionState} {log : List WebEvent} {given : Option SessionStat}
    (inv : WebInv Rel ok (s, log)) (relation : WebRelation env.build Rel)
    (live : s.phase = .live given) (afterGtp : Bool) (outer : OuterIp) (teid : Option UInt32) :
    WebInv Rel ok (s.gtp given afterGtp outer teid,
      recordWeb s (.gtp afterGtp outer teid) (s.gtp given afterGtp outer teid) log) := by
  unfold SessionState.gtp
  cases afterGtp with
  | false =>
      refine inv.keeps relation rfl rfl ?_ fun stat hstat => .inr ⟨stat, hstat, rfl⟩
      change s.phase ≠ _
      rw [live]
      exact Phase.noConfusion
  | true =>
      cases hhandle : gtpIpSrcHandle given outer teid with
      | error why => exact inv.gone _ rfl Phase.noConfusion fun stat => Phase.noConfusion
      | ok result =>
          refine inv.keeps relation rfl rfl Phase.noConfusion ?_
          rintro stat ⟨⟩
          rcases gtpIpSrcHandle_web hhandle with ⟨old, rfl, hweb⟩
          exact .inr ⟨old, live, hweb⟩

theorem hasRequest_eq (stat : SessionStat) :
    stat.hasRequest = hasString (stat.web?.getD .reset).hostname := by
  unfold SessionStat.hasRequest SessionStat.web?
  cases stat.apps with
  | none => rfl
  | some app => cases app <;> rfl

/-- A request. -/
theorem WebInv.webMethod {s : SessionState} {log : List WebEvent} {given : Option SessionStat}
    (inv : WebInv Rel ok (s, log)) (relation : WebRelation env.build Rel)
    (right : ∀ log web, Rel log web → ok log web) (live : s.phase = .live given) (ts : Timeval)
    (val : Option (List UInt8)) :
    WebInv Rel ok (s.webMethod env given ts val,
      recordWeb s (.webMethod ts val) (s.webMethod env given ts val) log) := by
  cases given with
  | none =>
      refine inv.gone (.webMethod ts val) rfl ?_ fun stat => ?_
      all_goals
        change s.phase ≠ _
        rw [live]
        simp
  | some old =>
      have hrelated := inv.related old live
      unfold SessionState.webMethod
      dsimp only
      cases hhandle : webMethodHandle env.build s.dpi ts val old with
      | error why => exact inv.gone _ rfl Phase.noConfusion fun stat => Phase.noConfusion
      | ok result =>
          rcases result with ⟨report, new⟩
          rcases webMethodHandle_web hhandle with ⟨_, heffect⟩
          rw [hasRequest_eq]
          dsimp only at heffect
          split_ifs at heffect ⊢ with hhost
          · -- the old request is reported, and the structure is emptied
            rcases heffect with ⟨hnew, prepared, middle, hprepared, hprint⟩
            have hweb : prepared.web?.getD .reset = old.web?.getD .reset := by
              rw [hprepared, Option.getD_some]
            have hprinted := WebInv.printed relation right inv.past (hweb ▸ hrelated) hprint
            rw [hweb] at hprinted
            apply webInv_after (.webMethod ts val) rfl Phase.noConfusion hprinted.1
            rintro stat ⟨⟩
            rw [hnew]
            exact relation.renew _ _ ts val (by rw [hprinted.2.2]; exact hhost) hprinted.2.1
          · rcases heffect with ⟨_, hnew⟩
            refine inv.quiet (.webMethod ts val) rfl Phase.noConfusion ?_
            rintro stat ⟨⟩
            rw [hnew]
            exact relation.request _ _ ts val (Bool.eq_false_iff.mpr hhost) hrelated

/-- Every callback keeps what the rule keeps. -/
theorem WebInv.step (inv : WebInv Rel ok state) (relation : WebRelation env.build Rel)
    (right : ∀ log web, Rel log web → ok log web)
    (enabled : (webMachine env).step state act = some target) : WebInv Rel ok target := by
  rcases state with ⟨s, log⟩
  rcases target with ⟨target, log'⟩
  rcases Machine.observe_eq_some enabled with ⟨hstep, hrecord⟩
  dsimp only at hstep hrecord
  rw [hrecord]
  have hstarted := sessionStep_phase_ne_new hstep
  have heffect := sessionStep_eq_some hstep
  cases act with
  | start proto =>
      rcases heffect with ⟨hnew, rfl⟩
      refine inv.keeps relation rfl rfl hstarted ?_
      intro stat hstat
      simp only [startingSession, Phase.live.injEq] at hstat
      split_ifs at hstat
      cases hstat
      exact .inl ⟨hnew, rfl⟩
  | packet next info =>
      rcases heffect with ⟨given, hlive, _, rfl⟩
      refine inv.keeps relation rfl (s.packet_reports env given next info) hstarted ?_
      intro stat hstat
      rcases SessionState.packet_phase hlive env next info with ⟨old, qos, rfl, hphase⟩ |
        ⟨_, hphase⟩ | ⟨_, _, hphase⟩
      all_goals
        rw [hphase] at hstat
        cases hstat
      exact .inr ⟨old, hlive, rfl⟩
  | web ts att =>
      rcases heffect with ⟨given, hlive, _, rfl⟩
      exact inv.web relation hlive ts att
  | webMethod ts val =>
      rcases heffect with ⟨given, hlive, _, rfl⟩
      exact inv.webMethod relation right hlive ts val
  | ssl val =>
      rcases heffect with ⟨given, hlive, _, rfl⟩
      exact inv.onApp relation hlive rfl fun old new => sslServerNameHandle_web
  | rtp att =>
      rcases heffect with ⟨given, hlive, _, rfl⟩
      exact inv.onApp relation hlive rfl fun old new => rtpHandle_web
  | gtp afterGtp outer teid =>
      rcases heffect with ⟨given, hlive, _, rfl⟩
      exact inv.gtp relation hlive afterGtp outer teid
  | tick =>
      rcases heffect with ⟨given, hlive, _, rfl⟩
      unfold SessionState.tick at hstarted ⊢
      split_ifs at hstarted ⊢
      · exact inv.doReport relation right hlive rfl
      · exact inv.keeps relation rfl rfl hstarted fun stat live => .inr ⟨stat, live, rfl⟩
  | finish =>
      rcases heffect with ⟨given, hlive, rfl⟩
      have hover : ∀ t : SessionState, ∀ stat, t.close.phase ≠ .live (some stat) :=
        fun t stat => t.close_phase_ne (some stat)
      unfold SessionState.finish at hstarted ⊢
      split_ifs at hstarted ⊢
      · exact inv.gone _ (by simp [SessionState.beginEnding, SessionState.close]) hstarted (hover _)
      · have hbegin : WebInv Rel ok (s.beginEnding, log) := ⟨inv.starts, inv.related, inv.past⟩
        have hreport := @WebInv.doReport _ _ env .finish _ _ _ hbegin relation right hlive rfl
        exact ⟨fun hnew => absurd hnew hstarted, fun stat live => absurd live (hover _ stat),
          hreport.past⟩
      · exact inv.gone _ rfl hstarted (hover _)

/-- **The rule of the web reports.** When every callback keeps a relation between the log
and the web structure, what the relation says holds of each report that is printed. -/
theorem webLog_past (relation : WebRelation env.build Rel)
    (right : ∀ log web, Rel log web → ok log web) (reached : (webMachine env).Reachable state) :
    Past (OnPrinted ok) state.2 := by
  have hinv : WebInv Rel ok state := by
    refine reached.invariant (WebInv Rel ok) ?_ ?_
    · rintro ⟨s, log⟩ ⟨⟨micro, hfresh⟩, hempty⟩
      dsimp only at hfresh hempty
      rw [hfresh, hempty]
      exact ⟨fun _ => rfl, fun stat live => absurd live Phase.noConfusion, past_nil⟩
    · exact fun state act target inv enabled => inv.step relation right enabled
  exact hinv.past

end MmtProbe.Dpi
