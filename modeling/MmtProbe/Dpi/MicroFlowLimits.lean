/-
# Limits of the micro-flows

The configuration file promises a report when one statistic of an application (packets,
bytes or flows) is greater than or equal to its limit.  What has to stay below the
limits is what the sessions have carried since the last report of their application,
which is kept here next to the statistics and which no step reads.

`micro_flow_report__update` tests something else.  Each comparison is strict, the
download packets stand in for the upload packets, and every sum is taken in 32 bits.
-/

import MmtProbe.Dpi.MicroFlowConservation

namespace MmtProbe.Dpi

open MmtProbe.Configure MmtProbe.Math

variable {max : Nat}

/-! ## Sessions that no report has printed -/

/-- The statistics, and the sessions that were added to each of them since its last report. -/
structure PendingContext (max : Nat) where
  context : MicroFlowContext max
  sessions : Fin max → List DpiSession

/-- Before the first update. -/
def PendingContext.allocInit : PendingContext max := ⟨.allocInit, fun _ => []⟩

/-- `micro_flow_report__update`: a report takes the sessions of its application with it. -/
def PendingContext.update (conf : MicroFlowConf) (state : PendingContext max)
    (flow : MicroFlow max) : PendingContext max :=
  ⟨state.context.update conf flow,
    Function.update state.sessions flow.appId
      (match (microFlowReportUpdate conf (state.context.stats flow.appId) flow.dpi).2 with
      | some _ => []
      | none => state.sessions flow.appId ++ [flow.dpi])⟩

/-- The updates of a run. -/
def pendingRun (conf : MicroFlowConf) (flows : List (MicroFlow max)) : PendingContext max :=
  flows.foldl (PendingContext.update conf) .allocInit

/-- What sessions carry together. -/
def carriedBy (quantity : Quantity) (sessions : List DpiSession) : Nat :=
  (sessions.map fun dpi => dpi.count quantity).sum

/-- Packets of both directions. -/
def packetsCarried (sessions : List DpiSession) : Nat :=
  carriedBy .dlPackets sessions + carriedBy .ulPackets sessions

/-- Bytes of both directions. -/
def bytesCarried (sessions : List DpiSession) : Nat :=
  carriedBy .dlBytes sessions + carriedBy .ulBytes sessions

/-- No statistic of the sessions has reached its limit. -/
structure BelowLimits (conf : MicroFlowConf) (sessions : List DpiSession) : Prop where
  packets : packetsCarried sessions < conf.reportPacketsCount.toNat
  bytes : bytesCarried sessions < conf.reportBytesCount.toNat
  flows : carriedBy .flows sessions < conf.reportFlowsCount.toNat

/-- The configured limits, none of which is the zero that stands for no limit. -/
structure Limited (conf : MicroFlowConf) : Prop where
  packets : conf.reportPacketsCount ≠ 0
  bytes : conf.reportBytesCount ≠ 0
  flows : conf.reportFlowsCount ≠ 0

/-- The bytes, cut to 32 bits, are above their limit, or twice the download packets are. -/
def Noticed (conf : MicroFlowConf) (sessions : List DpiSession) : Prop :=
  conf.reportBytesCount.toNat < bytesCarried sessions % 2 ^ 32 ∨
    conf.reportPacketsCount.toNat < 2 * carriedBy .dlPackets sessions % 2 ^ 32

/-- A session that takes a statistic of its application to a limit is noticed. -/
def NoticedAtLimit (conf : MicroFlowConf) (before : List (MicroFlow max)) (flow : MicroFlow max) :
    Prop :=
  ¬ BelowLimits conf ((pendingRun conf before).sessions flow.appId ++ [flow.dpi]) →
    Noticed conf ((pendingRun conf before).sessions flow.appId ++ [flow.dpi])

/-! ## The statistics are the sessions, cut to 32 bits -/

variable {conf : MicroFlowConf} {state : PendingContext max} {flow : MicroFlow max}

theorem pendingRun_concat (flows : List (MicroFlow max)) (flow : MicroFlow max) :
    pendingRun conf (flows ++ [flow]) = (pendingRun conf flows).update conf flow :=
  List.foldl_concat ..

/-- The sessions are kept next to the run of the code. -/
theorem context_pendingRun (flows : List (MicroFlow max)) :
    (pendingRun conf flows).context = microFlowRun conf flows := by
  induction flows using List.reverseRecOn with
  | nil => rfl
  | append_singleton flows flow ih =>
      have hrun : microFlowRun conf (flows ++ [flow]) =
          (microFlowRun conf flows).update conf flow :=
        List.foldl_concat ..
      rw [pendingRun_concat, hrun, ← ih]
      rfl

theorem carriedBy_concat (quantity : Quantity) (sessions : List DpiSession) (dpi : DpiSession) :
    carriedBy quantity (sessions ++ [dpi]) = carriedBy quantity sessions + dpi.count quantity := by
  unfold carriedBy
  rw [List.map_append, List.sum_append, List.map_singleton, List.sum_singleton]

/-- Every counter is what its sessions carry, cut to 32 bits. -/
def Wrapped (stat : MicroFlowStats) (sessions : List DpiSession) : Prop :=
  ∀ quantity, stat.count quantity = carriedBy quantity sessions % 2 ^ 32

theorem MicroFlowStats.count_add_mod (stat : MicroFlowStats) (dpi : DpiSession)
    (quantity : Quantity) :
    (stat.add dpi).count quantity = (stat.count quantity + dpi.count quantity) % 2 ^ 32 := by
  cases quantity <;>
    simp only [MicroFlowStats.count, DpiSession.count, MicroFlowStats.add, UInt32.toNat_add,
      UInt64.toNat_toUInt32]
  · rfl
  all_goals omega

theorem Wrapped.add {stat : MicroFlowStats} {sessions : List DpiSession}
    (wrapped : Wrapped stat sessions) (dpi : DpiSession) :
    Wrapped (stat.add dpi) (sessions ++ [dpi]) := by
  intro quantity
  rw [MicroFlowStats.count_add_mod, wrapped quantity, carriedBy_concat, Nat.mod_add_mod]

theorem MicroFlowStats.wrapped_reset (stat : MicroFlowStats) : Wrapped stat.reset [] :=
  fun quantity => stat.count_reset quantity

/-- The three tests of the code, in terms of the sessions. -/
theorem isFull_iff {stat : MicroFlowStats} {sessions : List DpiSession}
    (wrapped : Wrapped stat sessions) :
    stat.isFull conf = true ↔
      Noticed conf sessions ∨
        conf.reportFlowsCount.toNat < carriedBy .flows sessions % 2 ^ 32 := by
  have hdlPackets : stat.dlPcount.toNat = _ := wrapped .dlPackets
  have hdlBytes : stat.dlBcount.toNat = _ := wrapped .dlBytes
  have hulBytes : stat.ulBcount.toNat = _ := wrapped .ulBytes
  have hflows : stat.flowsNb.toNat = _ := wrapped .flows
  have hbytes : (stat.dlBcount + stat.ulBcount).toNat = bytesCarried sessions % 2 ^ 32 := by
    rw [UInt32.toNat_add, hdlBytes, hulBytes, bytesCarried, ← Nat.add_mod]
  have hpackets : (stat.dlPcount + stat.dlPcount).toNat =
      2 * carriedBy .dlPackets sessions % 2 ^ 32 := by
    rw [UInt32.toNat_add, hdlPackets, ← Nat.add_mod, Nat.two_mul]
  unfold MicroFlowStats.isFull Noticed
  rw [Bool.or_eq_true, Bool.or_eq_true, decide_eq_true_iff, decide_eq_true_iff,
    decide_eq_true_iff, gt_iff_lt, gt_iff_lt, gt_iff_lt, UInt32.lt_iff_toNat_lt,
    UInt32.lt_iff_toNat_lt, UInt32.lt_iff_toNat_lt, hbytes, hpackets, hflows]

/-! ## One update -/

/-- What holds of the statistics between two updates. -/
def Tracked (state : PendingContext max) : Prop :=
  ∀ app, Wrapped (state.context.stats app) (state.sessions app)

theorem tracked_allocInit : Tracked (PendingContext.allocInit : PendingContext max) := by
  intro app quantity
  cases quantity <;> rfl

/-- The two ways an update ends. -/
theorem PendingContext.update_eq (conf : MicroFlowConf) (state : PendingContext max)
    (flow : MicroFlow max) :
    ((state.context.stats flow.appId).add flow.dpi).isFull conf = true ∧
        (state.update conf flow).context.stats = Function.update state.context.stats flow.appId
          ((state.context.stats flow.appId).add flow.dpi).reset ∧
        (state.update conf flow).sessions = Function.update state.sessions flow.appId [] ∨
      ((state.context.stats flow.appId).add flow.dpi).isFull conf = false ∧
        (state.update conf flow).context.stats = Function.update state.context.stats flow.appId
          ((state.context.stats flow.appId).add flow.dpi) ∧
        (state.update conf flow).sessions = Function.update state.sessions flow.appId
          (state.sessions flow.appId ++ [flow.dpi]) := by
  unfold PendingContext.update MicroFlowContext.update microFlowReportUpdate
  cases hfull : ((state.context.stats flow.appId).add flow.dpi).isFull conf
  · exact Or.inr ⟨rfl, rfl, rfl⟩
  · exact Or.inl ⟨rfl, rfl, rfl⟩

theorem Tracked.update (tracked : Tracked state) (conf : MicroFlowConf) (flow : MicroFlow max) :
    Tracked (state.update conf flow) := by
  intro app
  rcases state.update_eq conf flow with ⟨-, hstats, hsessions⟩ | ⟨-, hstats, hsessions⟩ <;>
    rw [hstats, hsessions]
  · by_cases happ : app = flow.appId
    · subst happ
      rw [Function.update_self, Function.update_self]
      exact MicroFlowStats.wrapped_reset _
    · rw [Function.update_of_ne happ, Function.update_of_ne happ]
      exact tracked app
  · by_cases happ : app = flow.appId
    · subst happ
      rw [Function.update_self, Function.update_self]
      exact (tracked flow.appId).add flow.dpi
    · rw [Function.update_of_ne happ, Function.update_of_ne happ]
      exact tracked app

theorem tracked_pendingRun (flows : List (MicroFlow max)) : Tracked (pendingRun conf flows) := by
  induction flows using List.reverseRecOn with
  | nil => exact tracked_allocInit
  | append_singleton flows flow ih =>
      rw [pendingRun_concat]
      exact ih.update conf flow

theorem Limited.belowLimits_nil (limited : Limited conf) :
    BelowLimits conf [] where
  packets := Nat.pos_of_ne_zero (UInt32.toNat_inj.not.mpr limited.packets)
  bytes := Nat.pos_of_ne_zero (UInt32.toNat_inj.not.mpr limited.bytes)
  flows := Nat.pos_of_ne_zero (UInt32.toNat_inj.not.mpr limited.flows)

/-- One more flow does not pass the limit that it may reach, so the third test stays false. -/
theorem isFull_add_iff {stat : MicroFlowStats} {sessions : List DpiSession} {dpi : DpiSession}
    (wrapped : Wrapped stat sessions) (below : BelowLimits conf sessions) :
    (stat.add dpi).isFull conf = true ↔ Noticed conf (sessions ++ [dpi]) := by
  rw [isFull_iff (wrapped.add dpi), or_iff_left]
  have hflows := below.flows
  have hone : carriedBy .flows (sessions ++ [dpi]) = carriedBy .flows sessions + 1 :=
    carriedBy_concat .flows sessions dpi
  have hle := Nat.mod_le (carriedBy .flows (sessions ++ [dpi])) (2 ^ 32)
  omega

/-- When all applications are below their limits, an update keeps them there exactly when
a session that reaches a limit is noticed. -/
theorem belowLimits_update_iff (limited : Limited conf) (tracked : Tracked state)
    (below : ∀ app, BelowLimits conf (state.sessions app)) (flow : MicroFlow max) :
    (∀ app, BelowLimits conf ((state.update conf flow).sessions app)) ↔
      (¬ BelowLimits conf (state.sessions flow.appId ++ [flow.dpi]) →
        Noticed conf (state.sessions flow.appId ++ [flow.dpi])) := by
  rcases state.update_eq conf flow with ⟨hfull, -, hsessions⟩ | ⟨hquiet, -, hsessions⟩ <;>
    rw [hsessions]
  · -- a report was printed, and the application starts again
    have hnoticed := (isFull_add_iff (tracked flow.appId) (below flow.appId)).mp hfull
    refine ⟨fun _ _ => hnoticed, fun _ => ?_⟩
    exact (Function.forall_update_iff _ fun _ sessions => BelowLimits conf sessions).mpr
      ⟨limited.belowLimits_nil, fun app _ => below app⟩
  · have hnot : ¬ Noticed conf (state.sessions flow.appId ++ [flow.dpi]) := by
      intro hnoticed
      rw [(isFull_add_iff (tracked flow.appId) (below flow.appId)).mpr hnoticed] at hquiet
      cases hquiet
    rw [Function.forall_update_iff _ fun _ sessions => BelowLimits conf sessions]
    constructor
    · intro hall hreached
      exact absurd hall.1 hreached
    · intro hguard
      exact ⟨by_contra fun hreached => hnot (hguard hreached), fun app _ => below app⟩

/-! ## Whole runs -/

/-- After each update of a run the sessions that no report has printed are below all
limits, for every application. -/
def StaysBelowLimits (conf : MicroFlowConf) (flows : List (MicroFlow max)) : Prop :=
  Past (fun before flow => ∀ app,
    BelowLimits conf ((pendingRun conf (before ++ [flow])).sessions app)) flows

/-- A run that stays below the limits ends below them. -/
theorem StaysBelowLimits.last (limited : Limited conf) {flows : List (MicroFlow max)}
    (stays : StaysBelowLimits conf flows) (app : Fin max) :
    BelowLimits conf ((pendingRun conf flows).sessions app) := by
  rcases List.eq_nil_or_concat flows with hnil | ⟨before, flow, hconcat⟩
  · rw [hnil]
    exact limited.belowLimits_nil
  · rw [hconcat, List.concat_eq_append] at stays ⊢
    exact stays.of_concat.2 app

/-- Every application is below its limits after each update of a run exactly when each
session that takes its application to a limit has more bytes, cut to 32 bits, than the
limit, or twice as many download packets. -/
theorem staysBelowLimits_iff (limited : Limited conf) (flows : List (MicroFlow max)) :
    StaysBelowLimits conf flows ↔ Past (NoticedAtLimit conf) flows := by
  induction flows using List.reverseRecOn with
  | nil => exact ⟨fun _ => past_nil, fun _ => past_nil⟩
  | append_singleton flows flow ih =>
      constructor
      · intro hstays
        rcases hstays.of_concat with ⟨hbefore, hlast⟩
        rw [pendingRun_concat] at hlast
        refine (ih.mp hbefore).concat ?_
        exact (belowLimits_update_iff limited (tracked_pendingRun flows)
          (StaysBelowLimits.last limited hbefore) flow).mp hlast
      · intro hnoticed
        rcases hnoticed.of_concat with ⟨hbefore, hlast⟩
        have hstays := ih.mpr hbefore
        refine Past.concat hstays ?_
        rw [pendingRun_concat]
        exact (belowLimits_update_iff limited (tracked_pendingRun flows)
          (StaysBelowLimits.last limited hstays) flow).mpr hlast

/-- The limits of the configuration file that comes with the probe. -/
def fileLimits : MicroFlowConf := ⟨true, 2, 100, 1000, 10000, 500⟩

theorem limited_fileLimits : Limited fileLimits := ⟨by decide, by decide, by decide⟩

/-- A session with two packets of 10000 bytes together, all of it uploaded. -/
def uploadSession : DpiSession := ⟨.zero, 10000, 2, ⟨10000, 0⟩, ⟨2, 0⟩, .zero, .zero⟩

/-- A session of 400 bytes is noticed when the limit is 10. -/
theorem staysBelowLimits_iff_small :
    Limited smallLimits ∧ StaysBelowLimits smallLimits (oneFlow 153) := by
  have hlimited : Limited smallLimits := ⟨by decide, by decide, by decide⟩
  have hnoticed : NoticedAtLimit smallLimits [] (⟨153, smallSession⟩ : MicroFlow 400) :=
    fun _ => Or.inl (by decide)
  exact ⟨hlimited, (staysBelowLimits_iff hlimited (oneFlow 153)).mpr (past_nil.concat hnoticed)⟩

/-- The session takes its application to the byte limit, and no report is printed. -/
theorem not_staysBelowLimits :
    Limited fileLimits ∧ isMicroFlow fileLimits uploadSession = true ∧
      bytesCarried [uploadSession] = fileLimits.reportBytesCount.toNat ∧
      (microFlowRun fileLimits [(⟨7, uploadSession⟩ : MicroFlow 400)]).reports = [] ∧
      ¬ StaysBelowLimits fileLimits [(⟨7, uploadSession⟩ : MicroFlow 400)] := by
  refine ⟨limited_fileLimits, by decide, by decide, by decide +kernel, ?_⟩
  intro hstays
  have hbelow := (hstays [] _ [] rfl 7).bytes
  revert hbelow
  decide +kernel

end MmtProbe.Dpi
