/-
# Micro-flow or normal flow

With micro-flows enabled, a session is to be accounted once: in the micro-flow
statistics when it ends as a micro-flow, and in its own reports otherwise.  The
decision is made again at every report, and it can only change from micro-flow to
normal flow because the counters grow.  The periodic callback and the end of a session
make it; the callback for an HTTP request does not, and reports a session that may
still be a micro-flow when it ends.
-/

import MmtProbe.Dpi.SessionApps

namespace MmtProbe.Dpi

open MmtProbe.Math MmtProbe.Configure

/-- The statistic, with what was printed of it, has gained one flow with the traffic of a
session. -/
def MicroLedger.Gained (ledger : MicroLedger) (dpi : DpiSession) : Prop :=
  ∀ quantity, ledger.now.count quantity + (ledger.printed.map (·.count quantity)).sum =
    ledger.found.count quantity + dpi.count quantity

/-- The statistic is as it was, and nothing was printed of it. -/
def MicroLedger.Untouched (ledger : MicroLedger) : Prop :=
  ledger.now = ledger.found ∧ ledger.printed = []

instance (ledger : MicroLedger) : Decidable ledger.Untouched :=
  inferInstanceAs (Decidable (_ ∧ _))

/-- The session is accounted once: no report, and the micro-flow statistics have gained all
its traffic; or they are untouched, and there are reports that sum up to all its traffic. -/
def Accounted (s : SessionState) : Prop :=
  (s.reports = [] ∧ s.micro.Gained s.dpi) ∨
    (s.micro.Untouched ∧ SumsTo (·.volumes) s.reports s.dpi.cap.volumes ∧
      SumsTo (·.payload) s.reports s.dpi.cap.payload ∧
      SumsTo (·.packets) s.reports s.dpi.cap.packets)

/-- The condition on a run: a request does not report a session that is a micro-flow at
that moment, a session without statistics does not end as a normal flow, the growth between
two reports fits in 64 bits, and a micro-flow fits in the 32 bits of its statistic. -/
def AccountsOnce (env : Env) (s : SessionState) (act : SessionAct) : Prop :=
  ReportsFit s act ∧
    match s.phase, act with
    | .live (some stat), .webMethod _ _ => stat.hasRequest = true → env.isMicro s.dpi = false
    | .live none, .finish => env.isMicro s.dpi = true ∧ s.micro.now.HasRoom s.dpi
    | .live (some _), .finish => env.isMicro s.dpi = true → s.micro.now.HasRoom s.dpi
    | _, _ => True

instance (env : Env) (s : SessionState) (act : SessionAct) :
    Decidable (AccountsOnce env s act) :=
  match s with
  | { phase := .live (some _), .. } =>
      match act with
      | .webMethod _ _ => inferInstanceAs (Decidable (ReportsFit _ _ ∧ (_ = true → _ = false)))
      | .finish =>
          inferInstanceAs (Decidable (ReportsFit _ _ ∧ (_ = true → MicroFlowStats.HasRoom _ _)))
      | .start _ | .packet _ _ | .web _ _ | .ssl _ | .rtp _ | .gtp _ _ _ | .tick =>
          inferInstanceAs (Decidable (ReportsFit _ _ ∧ True))
  | { phase := .live none, .. } =>
      match act with
      | .finish =>
          inferInstanceAs (Decidable (ReportsFit _ _ ∧ _ = true ∧ MicroFlowStats.HasRoom _ _))
      | .start _ | .packet _ _ | .web _ _ | .webMethod _ _ | .ssl _ | .rtp _ | .gtp _ _ _ | .tick =>
          inferInstanceAs (Decidable (ReportsFit _ _ ∧ True))
  | { phase := .new, .. } | { phase := .ended, .. } | { phase := .crashed _, .. } =>
      inferInstanceAs (Decidable (ReportsFit _ _ ∧ True))

variable {env : Env} {s target : SessionState} {act : SessionAct}

/-- A session that is not a micro-flow does not become one again. -/
theorem Env.isMicro_grows {now next : DpiSession} (grows : now.Grows next)
    (normal : env.isMicro now = false) : env.isMicro next = false := by
  rcases grows with ⟨_, _, _, hbytes, hpackets, _⟩
  unfold Env.isMicro at normal ⊢
  cases hconf : env.microReports with
  | none => rfl
  | some conf =>
      simp only [hconf] at normal ⊢
      by_contra hmicro
      rw [Bool.not_eq_false] at hmicro
      rw [isMicroFlow_antitone hbytes hpackets hmicro] at normal
      cases normal

/-! ## The invariant -/

/-- What holds in every state: before the end, the micro-flow statistics are untouched and
only a normal flow has reports; after the end, the session is accounted. -/
structure AccountInv (env : Env) (s : SessionState) : Prop where
  telescope : TelescopeInv s
  sound : s.phase.Sound env
  untouched : s.ending = false → s.micro.Untouched
  normal : s.ending = false → s.reports ≠ [] → env.isMicro s.dpi = false
  closed : s.ending = true → s.phase ≠ .new ∧ ∀ stat, s.phase ≠ .live stat
  accounted : s.ending = true → Accounted s

theorem accountInv_fresh (micro : MicroFlowStats) : AccountInv env (.fresh micro) where
  telescope := telescopeInv_fresh micro
  sound := trivial
  untouched := fun _ => ⟨rfl, rfl⟩
  normal := fun _ hreports => absurd rfl hreports
  closed := fun hending => Bool.noConfusion hending
  accounted := fun hending => Bool.noConfusion hending

/-- Nothing happens to a session after its end. -/
theorem not_ending_of_enabled (inv : AccountInv env s)
    (enabled : sessionStep env s act = some target) : s.ending = false := by
  cases hending : s.ending with
  | false => rfl
  | true =>
      rcases inv.closed hending with ⟨hnew, hlive⟩
      have heffect := sessionStep_eq_some enabled
      cases act with
      | start proto => exact absurd heffect.1 hnew
      | packet _ _ | web _ _ | webMethod _ _ | ssl _ | rtp _ | gtp _ _ _ | tick | finish =>
          rcases heffect with ⟨stat, hphase, _⟩
          exact absurd hphase (hlive stat)

/-- A report is made only of a session that is not a micro-flow. -/
theorem normal_of_reports {stat : SessionStat} (live : s.phase = .live (some stat))
    (once : AccountsOnce env s act) (reports : Reports env s stat act) :
    env.isMicro s.dpi = false := by
  rcases once with ⟨_, honce⟩
  cases act with
  | tick => exact reports
  | finish => exact reports.1
  | webMethod ts val =>
      simp only [live] at honce
      exact honce reports
  | start _ | packet _ _ | web _ _ | ssl _ | rtp _ | gtp _ _ _ => exact reports.elim

/-- A callback before the end of the session. -/
theorem AccountInv.going (inv : AccountInv env s) (exclusive : env.conf.session.mixesGtp = false)
    (once : AccountsOnce env s act) (enabled : sessionStep env s act = some target)
    (going : act ≠ .finish) : AccountInv env target := by
  have hbefore := not_ending_of_enabled inv enabled
  rcases sessionStep_micro enabled going with ⟨hupdates, hending⟩
  rw [hbefore] at hending
  constructor
  · exact inv.telescope.step once.1 enabled
  · exact inv.sound.step exclusive enabled
  · intro _
    rw [hupdates]
    exact inv.untouched hbefore
  · intro _ hreports
    rcases sessionStep_traffic enabled with ⟨hquiet, hdpi⟩ | ⟨hquiet, hgrows, _⟩ |
      ⟨hcalls, stat, hlive, hdoes⟩
    · rw [hdpi]
      exact inv.normal hbefore (hquiet.reports ▸ hreports)
    · exact env.isMicro_grows hgrows (inv.normal hbefore (hquiet.reports ▸ hreports))
    · rw [hcalls.dpi]
      exact normal_of_reports hlive once hdoes
  · intro hover
    rw [hending] at hover
    cases hover
  · intro hover
    rw [hending] at hover
    cases hover

/-- The last report of a session with its structure in place is made from the last
counters. -/
theorem lastCall_doReport {stat : SessionStat} (tagged : stat.Tagged) :
    (s.doReport env (some stat)).lastCall = s.dpi.cap := by
  rcases printIpSessionReport_of_tagged env.build s.dpi tagged with ⟨report, new, hprint, _⟩
  rw [SessionState.doReport, sessionReportDoReport, hprint]
  rfl

theorem ending_finish {given : Option SessionStat} : (s.finish env given).ending = true := by
  unfold SessionState.finish
  split_ifs <;> simp [SessionState.close, SessionState.beginEnding, SessionState.doReport]

/-- An untouched statistic with room for a session gains it in an update. -/
theorem MicroLedger.Untouched.gained_update {ledger : MicroLedger} {conf : MicroFlowConf}
    {dpi : DpiSession} (untouched : ledger.Untouched) (room : ledger.now.HasRoom dpi) :
    (ledger.update conf dpi).Gained dpi := by
  rcases untouched with ⟨hfound, hprinted⟩
  intro quantity
  simp only [MicroLedger.update, hprinted, List.nil_append, ← hfound]
  exact microFlowReportUpdate_count room quantity

/-- A session that ends as a micro-flow has no report, and its statistic gains it. -/
theorem accounted_finish_micro {given : Option SessionStat} (inv : AccountInv env s)
    (before : s.ending = false) (enabled : env.microReports.isSome = true)
    (micro : env.isMicro s.dpi = true) (room : s.micro.now.HasRoom s.dpi) :
    Accounted (s.finish env given) := by
  rcases Option.isSome_iff_exists.mp enabled with ⟨conf, hconf⟩
  have hreports : s.reports = [] := by
    by_contra hsome
    rw [inv.normal before hsome] at micro
    cases micro
  apply Or.inl
  rw [SessionState.finish, if_pos micro, SessionState.updateMicro, hconf]
  apply And.intro hreports
  exact (inv.untouched before).gained_update room

/-- The reports of a session that ends as a normal flow sum up to its counters. -/
theorem accounted_finish_normal {stat : SessionStat} (inv : AccountInv env s)
    (before : s.ending = false) (telescope : TelescopeInv (s.finish env (some stat)))
    (reporting : env.conf.session.isEnable = true) (normal : env.isMicro s.dpi = false)
    (tagged : stat.Tagged) : Accounted (s.finish env (some stat)) := by
  have hfinish : s.finish env (some stat) = (s.beginEnding.doReport env (some stat)).close := by
    rw [SessionState.finish, if_neg (by simp [normal]), if_pos reporting]
  rw [hfinish] at telescope ⊢
  rcases telescope.telescopes with ⟨_, hvolumes, hpayload, hpackets, hcomplete⟩
  have hlast : lastReported (s.beginEnding.doReport env (some stat)).close.reports = s.dpi.cap :=
    hcomplete.symm.trans (lastCall_doReport tagged)
  have hdpi : (s.beginEnding.doReport env (some stat)).close.dpi = s.dpi :=
    SessionState.doReport_dpi s.beginEnding env (some stat)
  rw [hlast] at hvolumes hpayload hpackets
  apply Or.inr
  rw [hdpi]
  refine ⟨?_, hvolumes, hpayload, hpackets⟩
  show (s.beginEnding.doReport env (some stat)).micro.Untouched
  rw [SessionState.doReport, SessionState.afterCall_micro]
  exact inv.untouched before

/-- The end of a session accounts it. -/
theorem AccountInv.finish (inv : AccountInv env s) (exclusive : env.conf.session.mixesGtp = false)
    (reporting : env.conf.session.isEnable = true) (micro : env.microReports.isSome = true)
    (once : AccountsOnce env s .finish) (enabled : sessionStep env s .finish = some target) :
    AccountInv env target := by
  have hbefore := not_ending_of_enabled inv enabled
  have htelescope := inv.telescope.step once.1 enabled
  have hsound := inv.sound
  rcases sessionStep_eq_some enabled with ⟨given, hlive, rfl⟩
  have hclosed : (s.finish env given).phase ≠ .new ∧
      ∀ stat, (s.finish env given).phase ≠ .live stat := by
    apply And.intro (sessionStep_phase_ne_new enabled)
    intro stat
    unfold SessionState.finish
    split_ifs <;> exact SessionState.close_phase_ne _ stat
  have haccounted : (s.finish env given).ending = true ∧ Accounted (s.finish env given) := by
    have honce := once.2
    cases hmicro : env.isMicro s.dpi with
    | true =>
        have hroom : s.micro.now.HasRoom s.dpi := by
          cases given with
          | none =>
              simp only [hlive] at honce
              exact honce.2
          | some stat =>
              simp only [hlive] at honce
              exact honce hmicro
        exact ⟨ending_finish, accounted_finish_micro inv hbefore micro hmicro hroom⟩
    | false =>
        cases given with
        | none =>
            simp only [hlive, hmicro] at honce
            exact absurd honce.1 Bool.false_ne_true
        | some stat =>
            rw [hlive] at hsound
            exact ⟨ending_finish, accounted_finish_normal inv hbefore htelescope reporting hmicro
              hsound.1⟩
  constructor
  · exact htelescope
  · exact inv.sound.step exclusive enabled
  · intro hending
    rw [haccounted.1] at hending
    cases hending
  · intro hending
    rw [haccounted.1] at hending
    cases hending
  · exact fun _ => hclosed
  · exact fun _ => haccounted.2

/-! ## Every run -/

/-- With session reports and micro-flows enabled, in every run that meets the condition, a
session that has ended is accounted either as a micro-flow or as a normal flow. -/
theorem accounted_of_accountsOnce (env : Env) (accepted : Accepted env.build env.conf)
    (reporting : env.conf.session.isEnable = true) (micro : env.microReports.isSome = true)
    (s : SessionState) (reached : (sessionMachine env).ReachableWhen (AccountsOnce env) s)
    (ended : s.ending = true) : Accounted s := by
  have hexclusive := not_mixesGtp_of_accepted accepted
  have hinv : AccountInv env s := by
    apply reached.invariant (AccountInv env)
    · rintro _ ⟨micro, rfl⟩
      exact accountInv_fresh micro
    · intro state label next inv once enabled
      cases label with
      | finish => exact inv.finish hexclusive reporting micro once enabled
      | start _ | packet _ _ | web _ _ | webMethod _ _ | ssl _ | rtp _ | gtp _ _ _ | tick =>
          exact inv.going hexclusive once enabled SessionAct.noConfusion
  exact hinv.accounted ended

/-- Sessions of at most `packets` packets are micro-flows. -/
def microEnv (packets : UInt32) : Env where
  build := plainEnv.build
  conf := { plainEnv.conf with microflow := some ⟨true, packets, 1, 100, 100000, 100⟩ }

/-- A session with two requests that ends as a normal flow, with two reports. -/
def normalRun : SessionState :=
  ((sessionMachine (microEnv 4)).restrict (AccountsOnce (microEnv 4))).after
    [.start .ip, .packet (countedPackets 1 1) plainPacket, .tick,
      .webMethod ⟨1, 0⟩ (some [71]), .web ⟨1, 0⟩ (.host (some [97])),
      .packet (countedPackets 4 5) plainPacket, .webMethod ⟨2, 0⟩ (some [71]),
      .packet (countedPackets 6 6) plainPacket, .finish]
    (.fresh noMicroFlows)

/-- A session of five packets that ends as a micro-flow. -/
def microRun : SessionState :=
  ((sessionMachine (microEnv 10)).restrict (AccountsOnce (microEnv 10))).after
    [.start .ip, .packet (countedPackets 3 2) plainPacket, .tick, .finish] (.fresh noMicroFlows)

theorem accounted_of_accountsOnce_run :
    (normalRun.reports.length = 2 ∧ normalRun.micro.Untouched ∧ Accounted normalRun) ∧
      microRun.reports = [] ∧ microRun.micro.now.count .ulPackets = 3 ∧ Accounted microRun :=
  ⟨⟨by decide +kernel, by decide +kernel,
      accounted_of_accountsOnce (microEnv 4) ⟨(microEnv 4).conf, by decide⟩ rfl rfl _
        (Machine.reachableWhen_after ⟨noMicroFlows, rfl⟩ (by decide +kernel)) (by decide +kernel)⟩,
    by decide +kernel, by decide +kernel,
    accounted_of_accountsOnce (microEnv 10) ⟨(microEnv 10).conf, by decide⟩ rfl rfl _
      (Machine.reachableWhen_after ⟨noMicroFlows, rfl⟩ (by decide +kernel)) (by decide +kernel)⟩

/-- Two HTTP requests in a session of five packets that ends as a micro-flow: its packets
are in a session report and in the micro-flow statistics. -/
theorem not_accounted_of_request :
    Accepted (microEnv 10).build (microEnv 10).conf ∧
      (microEnv 10).conf.session.isEnable = true ∧ (microEnv 10).microReports.isSome = true ∧
      ∃ s, (sessionMachine (microEnv 10)).Reachable s ∧ s.ending = true ∧ ¬ Accounted s := by
  have hreached : (sessionMachine (microEnv 10)).Reachable ((sessionMachine (microEnv 10)).after
      [.start .ip, .packet (countedPackets 3 2) plainPacket, .webMethod ⟨1, 0⟩ (some [71]),
        .web ⟨1, 0⟩ (.host (some [97])), .webMethod ⟨2, 0⟩ (some [71]), .finish]
      (.fresh noMicroFlows)) :=
    Machine.reachable_after ⟨noMicroFlows, rfl⟩ (by decide +kernel)
  refine ⟨⟨(microEnv 10).conf, by decide⟩, rfl, rfl, _, hreached, by decide +kernel, ?_⟩
  rintro (⟨hreports, _⟩ | ⟨hupdates, _⟩)
  · exact absurd hreports (by decide +kernel)
  · exact absurd hupdates (by decide +kernel)

end MmtProbe.Dpi
