/-
# The application of a session

Four modules share the pointer `apps` and the tag `app_type` of a session.  The web,
SSL and RTP modules stop the process when the tag names another application.  The
GTP module does not look at the tag, but `conf_validate` refuses to enable it
together with another one.

With a configuration that was accepted, the structure behind the pointer therefore
always is of the kind that the tag names, or the process has stopped.  It stops when
callbacks of two applications reach one session, as they do for HTTP CONNECT followed
by TLS; it does not when all callbacks on a session are those of one application.
-/

import MmtProbe.Dpi.SessionTelescope

namespace MmtProbe.Dpi

open MmtProbe.Math MmtProbe.Configure

/-! ## One callback -/

/-- A callback of an application leaves a session of its own, or stops at a session of
another one. -/
inductive Handles (own : AppType) (stat : SessionStat) : Except Crash SessionStat → Prop
  | /-- The session had no application or this one. -/
    returns {target : SessionStat} (allowed : stat.appType = .ip ∨ stat.appType = own)
      (tagged : target.Tagged) (type : target.appType = own) : Handles own stat (.ok target)
  | /-- The session has another application. -/
    stops (ip : stat.appType ≠ .ip) (other : stat.appType ≠ own) :
      Handles own stat (.error (.impossible stat.appType))

variable {stat : SessionStat}

/-- The first access decides what a callback of the web or of the RTP module does. -/
theorem bind_getPacketSession_of_other {α : Type} {own : AppType} {new : AppStat}
    (ip : stat.appType ≠ .ip) (other : stat.appType ≠ own)
    (next : SessionStat → Except Crash α) :
    (getPacketSession own new stat >>= next) = .error (.impossible stat.appType) := by
  rw [getPacketSession_of_other ip other]
  rfl

theorem handles_webHandle (build : Build) (ts : Timeval) (att : WebAttribute)
    (tagged : stat.Tagged) : Handles .web stat (webHandle build stat ts att) := by
  by_cases hallowed : stat.appType = .ip ∨ stat.appType = .web
  · rcases webHandle_of_tagged build ts att tagged hallowed with ⟨web, hweb⟩
    rw [hweb]
    exact .returns hallowed (.inr ⟨_, rfl, rfl⟩) rfl
  · rw [not_or] at hallowed
    rw [webHandle, bind_getPacketSession_of_other hallowed.1 hallowed.2]
    exact .stops hallowed.1 hallowed.2

theorem handles_rtpHandle (att : RtpAttribute) (tagged : stat.Tagged) :
    Handles .rtp stat (rtpHandle stat att) := by
  by_cases hallowed : stat.appType = .ip ∨ stat.appType = .rtp
  · rcases rtpHandle_of_tagged att tagged hallowed with ⟨rtp, hrtp⟩
    rw [hrtp]
    exact .returns hallowed (.inr ⟨_, rfl, rfl⟩) rfl
  · rw [not_or] at hallowed
    rw [rtpHandle, bind_getPacketSession_of_other hallowed.1 hallowed.2]
    exact .stops hallowed.1 hallowed.2

theorem handles_sslServerNameHandle (val : Option (List UInt8)) (tagged : stat.Tagged) :
    Handles .ssl stat (sslServerNameHandle stat val) := by
  by_cases hallowed : stat.appType = .ip ∨ stat.appType = .ssl
  · rcases sslServerNameHandle_of_tagged val tagged hallowed with ⟨ssl, hssl⟩
    rw [hssl]
    exact .returns hallowed (.inr ⟨_, rfl, rfl⟩) rfl
  · rw [not_or] at hallowed
    unfold sslServerNameHandle
    rw [if_pos hallowed]
    exact .stops hallowed.1 hallowed.2

theorem handles_webMethodHandle (build : Build) (dpi : DpiSession) (ts : Timeval)
    (val : Option (List UInt8)) (tagged : stat.Tagged) :
    Handles .web stat ((webMethodHandle build dpi ts val stat).map Prod.snd) := by
  by_cases hallowed : stat.appType = .ip ∨ stat.appType = .web
  · rcases webMethodHandle_of_tagged build dpi ts val tagged hallowed with
      ⟨report, target, hmethod, htype, htagged⟩
    rw [hmethod]
    exact .returns hallowed htagged htype
  · rw [not_or] at hallowed
    rw [webMethodHandle, bind_getPacketSession_of_other hallowed.1 hallowed.2]
    exact .stops hallowed.1 hallowed.2

/-! ## The tag and the pointer in every run -/

variable {env : Env} {s target : SessionState} {act : SessionAct}

/-- The structure is of the kind that the tag names, and the tag names an application
that is enabled. -/
def Phase.Sound (env : Env) : Phase → Prop
  | .live (some stat) =>
      stat.Tagged ∧ (stat.appType = .ip ∨ env.registered stat.appType = true)
  | .crashed why => why ≠ .confused
  | _ => True

theorem Phase.Sound.of_handles {own : AppType} {result : Except Crash SessionStat}
    (handles : Handles own stat result) (registered : env.registered own = true) :
    (s.settle (result.map some)).phase.Sound env := by
  cases handles with
  | returns allowed tagged type =>
      apply And.intro tagged
      rw [type]
      exact .inr registered
  | stops ip other => exact Crash.noConfusion

/-- What a callback of an application does to a sound session. -/
theorem sound_onApp {given : Option SessionStat} {own : AppType}
    {handle : SessionStat → Except Crash SessionStat} (live : s.phase = .live given)
    (sound : s.phase.Sound env) (registered : env.registered own = true)
    (handles : ∀ stat, stat.Tagged → Handles own stat (handle stat)) :
    (s.onApp own given handle).phase.Sound env := by
  cases given with
  | none => exact sound
  | some stat =>
      rw [live] at sound
      exact Phase.Sound.of_handles (handles stat sound.1) registered

/-- When GTP is enabled, no other application is. -/
theorem Env.eq_gtp_of_registered {app : AppType} (exclusive : env.conf.session.mixesGtp = false)
    (gtp : env.registered .gtp = true) (registered : env.registered app = true) : app = .gtp := by
  simp only [Env.registered, Bool.and_eq_true] at gtp
  simp only [SessionReportConf.mixesGtp, gtp, Bool.and_true, Bool.true_and,
    Bool.or_eq_false_iff] at exclusive
  cases app <;> simp_all [Env.registered]

/-- A report on a sound session. -/
theorem sound_afterCall_print {before : Option Traffic} {build : Build} {dpi : DpiSession}
    (tagged : stat.Tagged)
    (registered : stat.appType = .ip ∨ env.registered stat.appType = true) :
    (s.afterCall before (printIpSessionReport build dpi stat)).phase.Sound env := by
  rcases printIpSessionReport_of_tagged build dpi tagged with
    ⟨report, target, hprint, htype, htagged⟩
  rw [hprint]
  cases before <;> exact ⟨htagged, htype ▸ registered⟩

theorem sound_doReport {given : Option SessionStat} (live : s.phase = .live given)
    (sound : s.phase.Sound env) : (s.doReport env given).phase.Sound env := by
  cases given with
  | none => exact Crash.noConfusion
  | some stat =>
      rw [live] at sound
      exact sound_afterCall_print sound.1 sound.2

theorem Phase.Sound.close {phase : Phase} (sound : phase.Sound env) : phase.close.Sound env := by
  cases phase with
  | crashed why => exact sound
  | new | live _ | ended => exact trivial

/-- Every callback keeps a session sound. -/
theorem Phase.Sound.step (exclusive : env.conf.session.mixesGtp = false)
    (sound : s.phase.Sound env) (enabled : sessionStep env s act = some target) :
    target.phase.Sound env := by
  have heffect := sessionStep_eq_some enabled
  cases act with
  | start proto =>
      rcases heffect with ⟨_, rfl⟩
      simp only [startingSession]
      split_ifs
      · exact ⟨.inl ⟨rfl, rfl⟩, .inl rfl⟩
      · exact trivial
  | packet next info =>
      rcases heffect with ⟨given, hlive, _, rfl⟩
      rcases SessionState.packet_phase hlive env next info with
        ⟨stat, qos, rfl, hphase⟩ | ⟨-, hphase⟩ | ⟨-, -, hphase⟩
      · rw [hphase]
        rw [hlive] at sound
        exact sound
      · rw [hphase]
        exact trivial
      · rw [hphase]
        exact Crash.noConfusion
  | web ts att =>
      rcases heffect with ⟨given, hlive, hregistered, rfl⟩
      exact sound_onApp hlive sound hregistered fun _ => handles_webHandle env.build ts att
  | webMethod ts val =>
      rcases heffect with ⟨given, hlive, hregistered, rfl⟩
      cases given with
      | none => exact sound
      | some stat =>
          rw [hlive] at sound
          unfold SessionState.webMethod
          dsimp only
          rw [SessionState.afterCall_phase]
          exact .of_handles (handles_webMethodHandle env.build s.dpi ts val sound.1) hregistered
  | ssl val =>
      rcases heffect with ⟨given, hlive, hregistered, rfl⟩
      exact sound_onApp hlive sound hregistered fun _ => handles_sslServerNameHandle val
  | rtp att =>
      rcases heffect with ⟨given, hlive, hregistered, rfl⟩
      exact sound_onApp hlive sound hregistered fun _ => handles_rtpHandle att
  | gtp afterGtp outer teid =>
      rcases heffect with ⟨given, hlive, hregistered, rfl⟩
      cases afterGtp with
      | false => exact sound
      | true =>
          cases given with
          | none => exact Crash.noConfusion
          | some stat =>
              rw [hlive] at sound
              have hallowed : stat.appType = .ip ∨ stat.appType = .gtp :=
                sound.2.imp_right (env.eq_gtp_of_registered exclusive hregistered)
              rcases gtpIpSrcHandle_of_tagged outer teid sound.1 hallowed with ⟨gtp, hgtp⟩
              simp only [SessionState.gtp, hgtp, if_true]
              exact ⟨.inr ⟨_, rfl, rfl⟩, .inr hregistered⟩
  | tick =>
      rcases heffect with ⟨given, hlive, _, rfl⟩
      unfold SessionState.tick
      split_ifs
      · exact sound_doReport hlive sound
      · exact sound
  | finish =>
      rcases heffect with ⟨given, hlive, rfl⟩
      unfold SessionState.finish
      split_ifs
      · apply Phase.Sound.close
        rw [SessionState.updateMicro_phase]
        exact sound
      · exact (sound_doReport (s := s.beginEnding) hlive sound).close
      · exact sound.close

/-- With an accepted configuration, in every state of every run the structure behind the
pointer is of the kind that the tag names. -/
theorem sound_of_reachable (accepted : Accepted env.build env.conf)
    (reached : (sessionMachine env).Reachable s) : s.phase.Sound env := by
  apply reached.invariant fun s => s.phase.Sound env
  · rintro _ ⟨micro, rfl⟩
    exact trivial
  · intro state label next sound enabled
    exact sound.step (not_mixesGtp_of_accepted accepted) enabled

/-! ## Sessions of one application -/

/-- The condition on a run: a callback of the web, SSL or RTP module reaches a session
only when no callback of another application reached it before. -/
def OneKind (s : SessionState) : SessionAct → Prop
  | .web _ _ | .webMethod _ _ => ∀ app ∈ s.fired, app = .web
  | .ssl _ => ∀ app ∈ s.fired, app = .ssl
  | .rtp _ => ∀ app ∈ s.fired, app = .rtp
  | _ => True

instance (s : SessionState) (act : SessionAct) : Decidable (OneKind s act) :=
  match act with
  | .web _ _ | .webMethod _ _ | .ssl _ | .rtp _ =>
      inferInstanceAs (Decidable (∀ app ∈ s.fired, _))
  | .start _ | .packet _ _ | .gtp _ _ _ | .tick | .finish => inferInstanceAs (Decidable True)

/-- The tag and the pointer are in step, and the process was not stopped. -/
structure AppsOk (s : SessionState) : Prop where
  /-- The union holds a structure of exactly the kind that the type names, or `NULL`. -/
  tagged : ∀ stat, s.phase = .live (some stat) → stat.Tagged
  /-- No structure was accessed as one of another kind. -/
  notConfused : s.phase ≠ .crashed .confused
  /-- No callback reached its branch for another type. -/
  notImpossible : ∀ appType, s.phase ≠ .crashed (.impossible appType)

/-- The callbacks that reached a session are those of its application. -/
def Phase.FiredBy (fired : List AppType) : Phase → Prop
  | .live (some stat) =>
      if stat.appType = .ip then fired = []
      else fired ≠ [] ∧ ∀ app ∈ fired, app = stat.appType
  | .crashed (.impossible _) => False
  | .new | .live none => fired = []
  | _ => True

/-- The application that reached a session before is the one of its type. -/
theorem Phase.FiredBy.allowed {fired : List AppType} {own : AppType}
    (by_type : (Phase.live (some stat)).FiredBy fired) (one : ∀ app ∈ fired, app = own) :
    stat.appType = .ip ∨ stat.appType = own := by
  by_cases hip : stat.appType = .ip
  · exact .inl hip
  · rw [Phase.FiredBy, if_neg hip] at by_type
    rcases List.exists_mem_of_ne_nil fired by_type.1 with ⟨app, happ⟩
    exact .inr ((by_type.2 app happ).symm.trans (one app happ))

/-- A session whose type is the application of all callbacks. -/
theorem Phase.firedBy_live {fired : List AppType} {own : AppType} (type : stat.appType = own)
    (ip : own ≠ .ip) (one : ∀ app ∈ fired, app = own) :
    (Phase.live (some stat)).FiredBy (fired ++ [own]) := by
  subst type
  rw [Phase.FiredBy, if_neg ip]
  refine ⟨by simp, ?_⟩
  intro app happ
  rcases List.mem_append.mp happ with hmem | hmem
  · exact one app hmem
  · exact List.mem_singleton.mp hmem

/-- A callback of the only application that reached the session does not stop. -/
theorem Phase.FiredBy.of_handles {fired : List AppType} {own : AppType}
    {result : Except Crash SessionStat} (by_type : (Phase.live (some stat)).FiredBy fired)
    (handles : Handles own stat result) (ip : own ≠ .ip) (one : ∀ app ∈ fired, app = own) :
    (s.settle (result.map some)).phase.FiredBy (fired ++ [own]) := by
  cases handles with
  | returns allowed tagged type => exact Phase.firedBy_live type ip one
  | stops hip hother =>
      rcases by_type.allowed one with h | h
      · exact absurd h hip
      · exact absurd h hother

theorem firedBy_onApp {given : Option SessionStat} {own : AppType}
    {handle : SessionStat → Except Crash SessionStat} (live : s.phase = .live given)
    (sound : s.phase.Sound env) (by_type : s.phase.FiredBy s.fired) (ip : own ≠ .ip)
    (one : ∀ app ∈ s.fired, app = own)
    (handles : ∀ stat, stat.Tagged → Handles own stat (handle stat)) :
    (s.onApp own given handle).phase.FiredBy (s.onApp own given handle).fired := by
  cases given with
  | none => exact by_type
  | some stat =>
      rw [live] at sound by_type
      exact by_type.of_handles (handles stat sound.1) ip one

theorem firedBy_afterCall_print {before : Option Traffic} {build : Build} {dpi : DpiSession}
    {fired : List AppType} (tagged : stat.Tagged)
    (by_type : (Phase.live (some stat)).FiredBy fired) :
    (s.afterCall before (printIpSessionReport build dpi stat)).phase.FiredBy fired := by
  rcases printIpSessionReport_of_tagged build dpi tagged with ⟨report, target, hprint, htype, _⟩
  rw [hprint, SessionState.afterCall_phase]
  show (Phase.live (some target)).FiredBy fired
  rw [Phase.FiredBy, htype]
  exact by_type

theorem firedBy_doReport {given : Option SessionStat} (live : s.phase = .live given)
    (sound : s.phase.Sound env) (by_type : s.phase.FiredBy s.fired) :
    (s.doReport env given).phase.FiredBy s.fired := by
  cases given with
  | none => exact trivial
  | some stat =>
      rw [live] at sound by_type
      exact firedBy_afterCall_print sound.1 by_type

theorem Phase.FiredBy.close {phase : Phase} {fired : List AppType}
    (by_type : phase.FiredBy fired) : phase.close.FiredBy fired := by
  cases phase with
  | crashed why => exact by_type
  | new | live _ | ended => exact trivial

/-- Every callback that meets the condition keeps the callbacks and the type of the
session in step. -/
theorem firedBy_step (exclusive : env.conf.session.mixesGtp = false)
    (sound : s.phase.Sound env) (by_type : s.phase.FiredBy s.fired) (one : OneKind s act)
    (enabled : sessionStep env s act = some target) : target.phase.FiredBy target.fired := by
  have heffect := sessionStep_eq_some enabled
  cases act with
  | start proto =>
      rcases heffect with ⟨hnew, rfl⟩
      rw [hnew] at by_type
      simp only [startingSession]
      split_ifs <;> exact by_type
  | packet next info =>
      rcases heffect with ⟨given, hlive, _, rfl⟩
      rw [SessionState.packet_fired]
      rw [hlive] at by_type
      rcases SessionState.packet_phase hlive env next info with
        ⟨stat, qos, rfl, hphase⟩ | ⟨rfl, hphase⟩ | ⟨-, -, hphase⟩
      · rw [hphase]
        exact by_type
      · rw [hphase]
        exact by_type
      · rw [hphase]
        exact trivial
  | web ts att =>
      rcases heffect with ⟨given, hlive, _, rfl⟩
      exact firedBy_onApp hlive sound by_type AppType.noConfusion one
        fun _ => handles_webHandle env.build ts att
  | webMethod ts val =>
      rcases heffect with ⟨given, hlive, _, rfl⟩
      cases given with
      | none => exact by_type
      | some stat =>
          rw [hlive] at sound by_type
          unfold SessionState.webMethod
          dsimp only
          rw [SessionState.afterCall_phase]
          exact by_type.of_handles (handles_webMethodHandle env.build s.dpi ts val sound.1)
            AppType.noConfusion one
  | ssl val =>
      rcases heffect with ⟨given, hlive, _, rfl⟩
      exact firedBy_onApp hlive sound by_type AppType.noConfusion one
        fun _ => handles_sslServerNameHandle val
  | rtp att =>
      rcases heffect with ⟨given, hlive, _, rfl⟩
      exact firedBy_onApp hlive sound by_type AppType.noConfusion one
        fun _ => handles_rtpHandle att
  | gtp afterGtp outer teid =>
      rcases heffect with ⟨given, hlive, hregistered, rfl⟩
      cases afterGtp with
      | false => exact by_type
      | true =>
          cases given with
          | none => exact trivial
          | some stat =>
              rw [hlive] at sound by_type
              have hallowed : stat.appType = .ip ∨ stat.appType = .gtp :=
                sound.2.imp_right (env.eq_gtp_of_registered exclusive hregistered)
              have hone : ∀ app ∈ s.fired, app = .gtp := by
                intro app happ
                by_cases hip : stat.appType = .ip
                · rw [Phase.FiredBy, if_pos hip] at by_type
                  rw [by_type] at happ
                  cases happ
                · rw [Phase.FiredBy, if_neg hip] at by_type
                  exact (by_type.2 app happ).trans (hallowed.resolve_left hip)
              rcases gtpIpSrcHandle_of_tagged outer teid sound.1 hallowed with ⟨gtp, hgtp⟩
              simp only [SessionState.gtp, hgtp, if_true, Option.isSome_some]
              exact Phase.firedBy_live rfl AppType.noConfusion hone
  | tick =>
      rcases heffect with ⟨given, hlive, _, rfl⟩
      unfold SessionState.tick
      split_ifs
      · rw [SessionState.doReport, SessionState.afterCall_fired]
        exact firedBy_doReport hlive sound by_type
      · exact by_type
  | finish =>
      rcases heffect with ⟨given, hlive, rfl⟩
      unfold SessionState.finish
      split_ifs
      · rw [SessionState.close, SessionState.updateMicro_phase, SessionState.updateMicro_fired]
        exact by_type.close
      · rw [SessionState.close, SessionState.doReport, SessionState.afterCall_fired]
        exact (firedBy_doReport (s := s.beginEnding) hlive sound by_type).close
      · exact by_type.close

/-- With an accepted configuration, in every run in which the callbacks that reach a
session are those of one application, the tag and the pointer stay in step and no
callback reaches its branch for another type. -/
theorem appsOk_of_oneKind (env : Env) (accepted : Accepted env.build env.conf) (s : SessionState)
    (reached : (sessionMachine env).ReachableWhen OneKind s) : AppsOk s := by
  have hsound := sound_of_reachable accepted reached.reachable
  have hboth : s.phase.Sound env ∧ s.phase.FiredBy s.fired := by
    apply reached.invariant fun s => s.phase.Sound env ∧ s.phase.FiredBy s.fired
    · rintro _ ⟨micro, rfl⟩
      exact ⟨trivial, rfl⟩
    · intro state label next inv one enabled
      have hexclusive := not_mixesGtp_of_accepted accepted
      exact ⟨inv.1.step hexclusive enabled, firedBy_step hexclusive inv.1 inv.2 one enabled⟩
  constructor
  · intro stat hlive
    rw [hlive] at hsound
    exact hsound.1
  · intro hcrashed
    rw [hcrashed] at hsound
    exact hsound rfl
  · intro appType hcrashed
    rw [hcrashed] at hboth
    exact hboth.2

/-- The configuration of `plainEnv` is accepted. -/
theorem accepted_plainEnv : Accepted plainEnv.build plainEnv.conf :=
  ⟨plainEnv.conf, by decide⟩

/-- Two HTTP requests in one session. -/
theorem appsOk_of_oneKind_run :
    AppsOk (((sessionMachine plainEnv).restrict OneKind).after
      [.start .ip, .packet (countedPackets 3 2) plainPacket, .webMethod ⟨1, 0⟩ (some [71]),
        .web ⟨1, 0⟩ (.host (some [97])), .webMethod ⟨2, 0⟩ (some [71]), .tick, .finish]
      (.fresh noMicroFlows)) :=
  appsOk_of_oneKind plainEnv accepted_plainEnv _
    (Machine.reachableWhen_after ⟨noMicroFlows, rfl⟩ (by decide +kernel))

/-- HTTP CONNECT followed by TLS on the same connection: the name of the server reaches a
session of type web, and the process is stopped. -/
theorem not_appsOk_of_connect :
    Accepted plainEnv.build plainEnv.conf ∧
      ∃ s, (sessionMachine plainEnv).Reachable s ∧ ¬ AppsOk s := by
  have hreached : (sessionMachine plainEnv).Reachable ((sessionMachine plainEnv).after
      [.start .ip, .packet (countedPackets 3 2) plainPacket, .webMethod ⟨1, 0⟩ (some [67]),
        .ssl (some [97])] (.fresh noMicroFlows)) :=
    Machine.reachable_after ⟨noMicroFlows, rfl⟩ (by decide +kernel)
  refine ⟨⟨plainEnv.conf, by decide⟩, _, hreached, ?_⟩
  intro hok
  exact hok.notImpossible .web (by decide +kernel)

end MmtProbe.Dpi
