/-
# Sessions without statistics

`session_report_callback_on_starting_session` returns `NULL` for a session that is not
directly on top of IP.  The periodic callback and those of the web, SSL and RTP modules
look at the pointer first.  Three callbacks do not: the handler of packets, once it has
found TCP behind the session; the handler of GTP, once the session is the one on top of
GTP; and the end of the session, when it makes the last report.

No pointer that is `NULL` is followed in the runs in which these three do not meet a
session without statistics.
-/

import MmtProbe.Dpi.SessionTelescope

namespace MmtProbe.Dpi

open MmtProbe.Math MmtProbe.Configure

/-- A pointer that is `NULL` was followed. -/
def Crash.isNull : Crash → Bool
  | .nullStat | .nullGtp => true
  | .impossible _ | .confused => false

/-- No `NULL` pointer was followed. -/
def Phase.NullSafe : Phase → Prop
  | .crashed why => why.isNull = false
  | _ => True

/-- The condition on a run. A session without statistics does not meet: a packet with TCP
behind the session while session reports and `QOS_MODULE` are on, an address on top of
GTP, and its end as a normal flow while session reports are on. -/
def AvoidsNull (env : Env) (s : SessionState) (act : SessionAct) : Prop :=
  match s.phase, act with
  | .live none, .packet _ info =>
      ¬ (env.conf.session.isEnable = true ∧ env.build.qosModule = true ∧
        (getProtocolIndexAfterSession .tcp info).isSome = true)
  | .live none, .gtp afterGtp _ _ => afterGtp = false
  | .live none, .finish => env.isMicro s.dpi = true ∨ env.conf.session.isEnable = false
  | _, _ => True

instance (env : Env) (s : SessionState) (act : SessionAct) : Decidable (AvoidsNull env s act) :=
  match s with
  | { phase := .live none, .. } =>
      match act with
      | .packet _ _ => inferInstanceAs (Decidable (¬ (_ ∧ _)))
      | .gtp afterGtp _ _ => inferInstanceAs (Decidable (afterGtp = false))
      | .finish => inferInstanceAs (Decidable (_ ∨ _))
      | .start _ | .web _ _ | .webMethod _ _ | .ssl _ | .rtp _ | .tick =>
          inferInstanceAs (Decidable True)
  | { phase := .live (some _), .. } | { phase := .new, .. } | { phase := .ended, .. }
  | { phase := .crashed _, .. } => inferInstanceAs (Decidable True)

/-! ## Callbacks on a session with statistics -/

variable {stat : SessionStat} {why : Crash}

theorem isNull_of_getPacketSession {own : AppType} {new : AppStat}
    (failed : getPacketSession own new stat = .error why) : why.isNull = false := by
  unfold getPacketSession at failed
  split_ifs at failed with hother
  cases failed
  rfl

theorem isNull_of_asWeb {apps : Option AppStat} (failed : asWeb apps = .error why) :
    why.isNull = false := by
  unfold asWeb at failed
  split at failed <;> cases failed
  rfl

theorem isNull_of_asSsl {apps : Option AppStat} (failed : asSsl apps = .error why) :
    why.isNull = false := by
  unfold asSsl at failed
  split at failed <;> cases failed
  rfl

theorem isNull_of_asRtp {apps : Option AppStat} (failed : asRtp apps = .error why) :
    why.isNull = false := by
  unfold asRtp at failed
  split at failed <;> cases failed
  rfl

theorem isNull_of_asGtp {apps : Option AppStat} (failed : asGtp apps = .error why) :
    why.isNull = false := by
  unfold asGtp at failed
  split at failed <;> cases failed
  rfl

theorem isNull_of_webHandle {build : Build} {ts : Timeval} {att : WebAttribute}
    (failed : webHandle build stat ts att = .error why) : why.isNull = false := by
  unfold webHandle at failed
  rcases bind_eq_error_iff.mp failed with hget | ⟨prepared, _, failed⟩
  · exact isNull_of_getPacketSession hget
  rcases bind_eq_error_iff.mp failed with hweb | ⟨web, _, failed⟩
  · exact isNull_of_asWeb hweb
  · cases failed

theorem isNull_of_rtpHandle {att : RtpAttribute} (failed : rtpHandle stat att = .error why) :
    why.isNull = false := by
  unfold rtpHandle at failed
  rcases bind_eq_error_iff.mp failed with hget | ⟨prepared, _, failed⟩
  · exact isNull_of_getPacketSession hget
  rcases bind_eq_error_iff.mp failed with hrtp | ⟨rtp, _, failed⟩
  · exact isNull_of_asRtp hrtp
  · cases failed

theorem isNull_of_sslServerNameHandle {val : Option (List UInt8)}
    (failed : sslServerNameHandle stat val = .error why) : why.isNull = false := by
  unfold sslServerNameHandle at failed
  split_ifs at failed with hother
  · cases failed
    rfl
  · split at failed
    · cases failed
    · cases failed
    · rcases bind_eq_error_iff.mp failed with hssl | ⟨ssl, _, failed⟩
      · exact isNull_of_asSsl hssl
      · cases failed

theorem isNull_of_printIpSessionReport {build : Build} {dpi : DpiSession}
    (failed : printIpSessionReport build dpi stat = .error why) : why.isNull = false := by
  unfold printIpSessionReport at failed
  split_ifs at failed with hnone
  rcases bind_eq_error_iff.mp failed with happ | ⟨app, _, failed⟩
  · unfold printAppReport at happ
    split at happ <;> cases happ
    rfl
  · cases failed

theorem isNull_of_webMethodHandle {build : Build} {dpi : DpiSession} {ts : Timeval}
    {val : Option (List UInt8)} (failed : webMethodHandle build dpi ts val stat = .error why) :
    why.isNull = false := by
  unfold webMethodHandle at failed
  rcases bind_eq_error_iff.mp failed with hget | ⟨prepared, _, failed⟩
  · exact isNull_of_getPacketSession hget
  rcases bind_eq_error_iff.mp failed with hweb | ⟨web, _, failed⟩
  · exact isNull_of_asWeb hweb
  rcases bind_eq_error_iff.mp failed with hreport | ⟨result, _, failed⟩
  · unfold reportOldRequest at hreport
    split_ifs at hreport
    exact isNull_of_printIpSessionReport (map_eq_error_iff.mp hreport)
  · cases failed

theorem isNull_of_gtpIpSrcHandle {outer : OuterIp} {teid : Option UInt32}
    (failed : gtpIpSrcHandle (some stat) outer teid = .error why) : why.isNull = false := by
  unfold gtpIpSrcHandle getGtpSessionData at failed
  cases happs : stat.apps with
  | none =>
      simp only [happs] at failed
      cases failed
  | some app =>
      simp only [happs] at failed
      rcases bind_eq_error_iff.mp failed with hgtp | ⟨gtp, _, failed⟩
      · exact isNull_of_asGtp hgtp
      · cases failed

/-! ## Runs -/

variable {env : Env} {s target : SessionState} {act : SessionAct}

theorem nullSafe_settle {result : Except Crash (Option SessionStat)}
    (safe : ∀ why, result = .error why → why.isNull = false) :
    (s.settle result).phase.NullSafe := by
  cases result with
  | error why => exact safe why rfl
  | ok stat => exact trivial

theorem nullSafe_onApp {given : Option SessionStat} (app : AppType)
    {handle : SessionStat → Except Crash SessionStat} (live : s.phase = .live given)
    (safe : ∀ stat why, handle stat = .error why → why.isNull = false) :
    (s.onApp app given handle).phase.NullSafe := by
  cases given with
  | none =>
      rw [SessionState.onApp, live]
      exact trivial
  | some stat =>
      apply nullSafe_settle
      intro why failed
      exact safe stat why (map_eq_error_iff.mp failed)

theorem Phase.NullSafe.close {phase : Phase} (safe : phase.NullSafe) : phase.close.NullSafe := by
  cases phase with
  | crashed why => exact safe
  | new | live _ | ended => exact trivial

/-- A report on a session with statistics follows no `NULL` pointer. -/
theorem nullSafe_doReport : (s.doReport env (some stat)).phase.NullSafe := by
  rw [SessionState.doReport, SessionState.afterCall_phase]
  apply nullSafe_settle
  intro why failed
  exact isNull_of_printIpSessionReport (map_eq_error_iff.mp (map_eq_error_iff.mp failed))

/-- A callback that meets the condition follows no `NULL` pointer. -/
theorem nullSafe_step (avoids : AvoidsNull env s act)
    (enabled : sessionStep env s act = some target) : target.phase.NullSafe := by
  have heffect := sessionStep_eq_some enabled
  cases act with
  | start proto =>
      rcases heffect with ⟨_, rfl⟩
      exact trivial
  | packet next info =>
      rcases heffect with ⟨given, hlive, _, rfl⟩
      rcases SessionState.packet_phase hlive env next info with
        ⟨stat, qos, -, hphase⟩ | ⟨-, hphase⟩ | ⟨rfl, hnull, -⟩
      · rw [hphase]
        exact trivial
      · rw [hphase]
        exact trivial
      · simp only [AvoidsNull, hlive] at avoids
        exact absurd hnull avoids
  | web ts att =>
      rcases heffect with ⟨given, hlive, _, rfl⟩
      exact nullSafe_onApp .web hlive fun _ _ => isNull_of_webHandle
  | webMethod ts val =>
      rcases heffect with ⟨given, hlive, _, rfl⟩
      cases given with
      | none =>
          rw [SessionState.webMethod, hlive]
          exact trivial
      | some stat =>
          unfold SessionState.webMethod
          dsimp only
          rw [SessionState.afterCall_phase]
          apply nullSafe_settle
          intro why failed
          exact isNull_of_webMethodHandle (map_eq_error_iff.mp (map_eq_error_iff.mp failed))
  | ssl val =>
      rcases heffect with ⟨given, hlive, _, rfl⟩
      exact nullSafe_onApp .ssl hlive fun _ _ => isNull_of_sslServerNameHandle
  | rtp att =>
      rcases heffect with ⟨given, hlive, _, rfl⟩
      exact nullSafe_onApp .rtp hlive fun _ _ => isNull_of_rtpHandle
  | gtp afterGtp outer teid =>
      rcases heffect with ⟨given, hlive, _, rfl⟩
      cases given with
      | none =>
          simp only [AvoidsNull, hlive] at avoids
          subst avoids
          show s.phase.NullSafe
          rw [hlive]
          exact trivial
      | some stat =>
          cases afterGtp with
          | false =>
              show s.phase.NullSafe
              rw [hlive]
              exact trivial
          | true => exact nullSafe_settle fun _ => isNull_of_gtpIpSrcHandle
  | tick =>
      rcases heffect with ⟨given, hlive, _, rfl⟩
      unfold SessionState.tick
      split_ifs with hreport
      · cases given with
        | none => cases hreport.1
        | some stat => exact nullSafe_doReport
      · rw [hlive]
        exact trivial
  | finish =>
      rcases heffect with ⟨given, hlive, rfl⟩
      unfold SessionState.finish
      split_ifs with hmicro henable
      · apply Phase.NullSafe.close
        rw [SessionState.updateMicro_phase]
        show s.phase.NullSafe
        rw [hlive]
        exact trivial
      · cases given with
        | none =>
            simp only [AvoidsNull, hlive] at avoids
            rcases avoids with havoids | havoids
            · exact absurd havoids hmicro
            · rw [henable] at havoids
              cases havoids
        | some stat => exact nullSafe_doReport.close
      · apply Phase.NullSafe.close
        show s.phase.NullSafe
        rw [hlive]
        exact trivial

/-- The condition is exact: a callback that does not meet it follows a `NULL` pointer. -/
theorem not_nullSafe_step (followed : ¬ AvoidsNull env s act)
    (enabled : sessionStep env s act = some target) : ¬ target.phase.NullSafe := by
  have heffect := sessionStep_eq_some enabled
  unfold AvoidsNull at followed
  split at followed
  · rename_i hphase
    rcases heffect with ⟨given, hlive, _, rfl⟩
    rw [hphase] at hlive
    cases hlive
    rw [Classical.not_not] at followed
    unfold SessionState.packet
    dsimp only
    rw [if_pos followed.1, receivingPacket_none, if_pos followed.2]
    exact Bool.noConfusion
  · rename_i hphase
    rcases heffect with ⟨given, hlive, _, rfl⟩
    rw [hphase] at hlive
    cases hlive
    rw [SessionState.gtp, if_pos (by simpa using followed)]
    exact Bool.noConfusion
  · rename_i hphase
    rcases heffect with ⟨given, hlive, rfl⟩
    rw [hphase] at hlive
    cases hlive
    rw [not_or] at followed
    rw [SessionState.finish, if_neg followed.1, if_pos (by simpa using followed.2)]
    exact Bool.noConfusion
  · exact absurd trivial followed

/-- In every run in which the three callbacks do not meet a session without statistics, no
`NULL` pointer is followed. -/
theorem nullSafe_of_avoidsNull (env : Env) (s : SessionState)
    (reached : (sessionMachine env).ReachableWhen (AvoidsNull env) s) : s.phase.NullSafe := by
  apply reached.invariant fun s => s.phase.NullSafe
  · rintro _ ⟨micro, rfl⟩
    exact trivial
  · intro state label next _ avoids enabled
    exact nullSafe_step avoids enabled

/-- A session without statistics over several periods, with session reports enabled. -/
theorem nullSafe_of_avoidsNull_run :
    (((sessionMachine plainEnv).restrict (AvoidsNull plainEnv)).after
      [.start (.other 7), .packet (countedPackets 3 2) plainPacket, .tick,
        .web ⟨1, 0⟩ (.host (some [97])), .ssl none, .tick] (.fresh noMicroFlows)).phase.NullSafe :=
  nullSafe_of_avoidsNull plainEnv _
    (Machine.reachableWhen_after ⟨noMicroFlows, rfl⟩ (by decide +kernel))

/-- The end of a session that is not on top of IP, with session reports enabled. -/
theorem not_nullSafe_of_finish :
    ∃ s, (sessionMachine plainEnv).Reachable s ∧ ¬ s.phase.NullSafe := by
  have hreached : (sessionMachine plainEnv).Reachable ((sessionMachine plainEnv).after
      [.start (.other 7), .packet (countedPackets 3 2) plainPacket, .finish]
      (.fresh noMicroFlows)) :=
    Machine.reachable_after ⟨noMicroFlows, rfl⟩ (by decide +kernel)
  have hcrashed : ((sessionMachine plainEnv).after
      [.start (.other 7), .packet (countedPackets 3 2) plainPacket, .finish]
      (.fresh noMicroFlows)).phase = .crashed .nullStat := by decide +kernel
  refine ⟨_, hreached, ?_⟩
  rw [hcrashed]
  exact Bool.noConfusion

end MmtProbe.Dpi
