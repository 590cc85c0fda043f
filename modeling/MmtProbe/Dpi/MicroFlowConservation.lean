/-
# Conservation and labels of the micro-flows

`micro_flow_report_context_t` has one statistic for each application.  An update adds a
session to the statistic of its application and prints it when it passes a limit; the
release prints every statistic that still counts a flow.

Index by index nothing is lost: what was printed of a statistic is what its sessions
have carried.  The printed label is another matter.  It is the field `application_id`,
the memory is zeroed when it is allocated, and nothing ever writes the field.
-/

import MmtProbe.Dpi.MicroFlow
import MmtProbe.Math.Families
import MmtProbe.Math.Trace
import Mathlib.Data.List.Induction

namespace MmtProbe.Dpi

open MmtProbe.Configure MmtProbe.Math

/-! ## The statistics of all applications -/

variable {max : Nat}

/-- An application is below `PROTO_MAX_IDENTIFIER`. A session belongs to the one that
`dpi_get_proto_id_from_session` returns. -/
structure MicroFlow (max : Nat) where
  appId : Fin max
  dpi : DpiSession
deriving DecidableEq, Repr

/-- A report, and the index of the statistic that it was printed from. -/
structure MicroFlowReport (max : Nat) where
  index : Fin max
  stat : MicroFlowStats
deriving DecidableEq, Repr

/-- The zeroed memory. -/
def MicroFlowStats.zero : MicroFlowStats := ⟨.zero, 0, 0, 0, 0, 0, 0⟩

/-- `micro_flow_report_context_t`, with what it has written. -/
structure MicroFlowContext (max : Nat) where
  stats : Fin max → MicroFlowStats
  reports : List (MicroFlowReport max)

/-- `micro_flow_report_alloc_init` -/
def MicroFlowContext.allocInit : MicroFlowContext max := ⟨fun _ => .zero, []⟩

/-- `micro_flow_report__update` -/
def MicroFlowContext.update (conf : MicroFlowConf) (context : MicroFlowContext max)
    (flow : MicroFlow max) : MicroFlowContext max :=
  let (stat, printed) := microFlowReportUpdate conf (context.stats flow.appId) flow.dpi
  ⟨Function.update context.stats flow.appId stat,
    context.reports ++ (printed.map (MicroFlowReport.mk flow.appId)).toList⟩

/-- `micro_flow_report_release`: everything that was written, the rest included. -/
def MicroFlowContext.release (context : MicroFlowContext max) : List (MicroFlowReport max) :=
  context.reports ++
    ((List.finRange max).filter fun i => (context.stats i).flowsNb > 0).map
      fun i => ⟨i, context.stats i⟩

/-- The updates of a run. -/
def microFlowRun (conf : MicroFlowConf) (flows : List (MicroFlow max)) : MicroFlowContext max :=
  flows.foldl (MicroFlowContext.update conf) .allocInit

/-! ## What is counted -/

/-- What the sessions of an application carry. -/
def carried (quantity : Quantity) (app : Fin max) (flows : List (MicroFlow max)) : Nat :=
  totalAt MicroFlow.appId (fun flow => flow.dpi.count quantity) app flows

/-- What the reports say about the statistic of an application. -/
def reportedAt (quantity : Quantity) (app : Fin max) (reports : List (MicroFlowReport max)) : Nat :=
  totalAt MicroFlowReport.index (fun report => report.stat.count quantity) app reports

/-- What the reports with a label say. -/
def labelled (quantity : Quantity) (label : Nat) (reports : List (MicroFlowReport max)) : Nat :=
  totalAt (fun report => report.stat.applicationId.toNat) (fun report => report.stat.count quantity)
    label reports

/-- Since its last report the application stays below 2^32 in each quantity. -/
def StaysBelow (context : MicroFlowContext max) (flow : MicroFlow max) : Prop :=
  ∀ quantity, (context.stats flow.appId).count quantity + flow.dpi.count quantity < 2 ^ 32

/-- No counter of the run wraps. -/
def NoWrap (conf : MicroFlowConf) (flows : List (MicroFlow max)) : Prop :=
  Past (fun before flow => StaysBelow (microFlowRun conf before) flow) flows

/-! ## One update -/

variable {conf : MicroFlowConf} {context : MicroFlowContext max} {flow : MicroFlow max}

/-- What holds of the statistic of an application between two updates. -/
structure StatKept (flows : List (MicroFlow max)) (reports : List (MicroFlowReport max))
    (app : Fin max) (stat : MicroFlowStats) : Prop where
  /-- Nothing is lost. -/
  balance : ∀ quantity, carried quantity app flows =
    reportedAt quantity app reports + stat.count quantity
  /-- A statistic without a flow is empty. -/
  empty : stat.flowsNb = 0 → ∀ quantity, stat.count quantity = 0
  /-- Only the statistics of updated applications count a flow. -/
  used : stat.flowsNb ≠ 0 → ∃ flow ∈ flows, flow.appId = app
  /-- No label was ever written. -/
  unlabelled : stat.applicationId = 0

/-- What holds between two updates. -/
structure Conserved (flows : List (MicroFlow max)) (context : MicroFlowContext max) : Prop where
  stats : ∀ app, StatKept flows context.reports app (context.stats app)
  printed : ∀ report ∈ context.reports,
    report.stat.applicationId = 0 ∧ ∃ flow ∈ flows, flow.appId = report.index

theorem conserved_allocInit :
    Conserved [] (MicroFlowContext.allocInit : MicroFlowContext max) where
  stats app :=
    ⟨fun quantity => by cases quantity <;> rfl, fun _ quantity => by cases quantity <;> rfl,
    fun counts => absurd rfl counts, rfl⟩
  printed report hreport := by cases hreport

/-- The two ways an update ends. -/
theorem MicroFlowContext.update_cases (conf : MicroFlowConf) (context : MicroFlowContext max)
    (flow : MicroFlow max) :
    context.update conf flow =
        ⟨Function.update context.stats flow.appId
            ((context.stats flow.appId).add flow.dpi).reset,
          context.reports ++ [⟨flow.appId, (context.stats flow.appId).add flow.dpi⟩]⟩ ∨
      context.update conf flow =
        ⟨Function.update context.stats flow.appId ((context.stats flow.appId).add flow.dpi),
          context.reports⟩ := by
  unfold MicroFlowContext.update
  rcases microFlowReportUpdate_cases conf (context.stats flow.appId) flow.dpi with hfull | hquiet
  · rw [hfull]
    exact Or.inl rfl
  · rw [hquiet]
    exact Or.inr (by simp)

/-- An update adds its session to what was carried. -/
theorem carried_concat (quantity : Quantity) (app : Fin max) (flows : List (MicroFlow max))
    (flow : MicroFlow max) :
    carried quantity app (flows ++ [flow]) =
      carried quantity app flows + if flow.appId = app then flow.dpi.count quantity else 0 := by
  unfold carried
  rw [totalAt_append, totalAt_singleton]

theorem reportedAt_concat (quantity : Quantity) (app : Fin max)
    (reports : List (MicroFlowReport max)) (report : MicroFlowReport max) :
    reportedAt quantity app (reports ++ [report]) =
      reportedAt quantity app reports +
        if report.index = app then report.stat.count quantity else 0 := by
  unfold reportedAt
  rw [totalAt_append, totalAt_singleton]

/-- The statistic of another application. -/
theorem StatKept.other {flows : List (MicroFlow max)} {reports more : List (MicroFlowReport max)}
    {app : Fin max} {stat : MicroFlowStats} (kept : StatKept flows reports app stat)
    (different : flow.appId ≠ app) (elsewhere : ∀ report ∈ more, report.index ≠ app) :
    StatKept (flows ++ [flow]) (reports ++ more) app stat := by
  refine ⟨?_, kept.empty, ?_, kept.unlabelled⟩
  · intro quantity
    rw [carried_concat, if_neg different, kept.balance quantity]
    unfold reportedAt
    rw [totalAt_append, totalAt_eq_zero elsewhere, Nat.add_zero, Nat.add_zero]
  · intro hcounts
    rcases kept.used hcounts with ⟨other, hother, happ⟩
    exact ⟨other, List.mem_append_left _ hother, happ⟩

section Own

variable {flows : List (MicroFlow max)} {reports : List (MicroFlowReport max)}
variable {stat : MicroFlowStats}

/-- The session stays in the statistic of its application. -/
theorem StatKept.quiet (kept : StatKept flows reports flow.appId stat)
    (below : ∀ quantity, stat.count quantity + flow.dpi.count quantity < 2 ^ 32) :
    StatKept (flows ++ [flow]) reports flow.appId (stat.add flow.dpi) := by
  refine ⟨?_, ?_, fun _ => ⟨flow, by simp, rfl⟩, kept.unlabelled⟩
  · intro quantity
    rw [carried_concat, if_pos rfl, kept.balance quantity,
      MicroFlowStats.count_add (below quantity)]
    omega
  · -- the session was just counted, so there is a flow
    intro hzero
    have hcount := MicroFlowStats.count_add (below .flows)
    simp only [MicroFlowStats.count, DpiSession.count, hzero] at hcount
    change 0 = _ at hcount
    omega

/-- The session leaves the statistic of its application with a report. -/
theorem StatKept.full (kept : StatKept flows reports flow.appId stat)
    (below : ∀ quantity, stat.count quantity + flow.dpi.count quantity < 2 ^ 32) :
    StatKept (flows ++ [flow]) (reports ++ [⟨flow.appId, stat.add flow.dpi⟩]) flow.appId
      (stat.add flow.dpi).reset := by
  refine ⟨?_, fun _ => MicroFlowStats.count_reset _, fun _ => ⟨flow, by simp, rfl⟩,
    kept.unlabelled⟩
  intro quantity
  rw [carried_concat, if_pos rfl, reportedAt_concat, if_pos rfl, MicroFlowStats.count_reset,
    kept.balance quantity, MicroFlowStats.count_add (below quantity)]
  omega

end Own

theorem Conserved.update {flows : List (MicroFlow max)} (kept : Conserved flows context)
    (below : StaysBelow context flow) : Conserved (flows ++ [flow]) (context.update conf flow) := by
  have hprinted : ∀ report ∈ context.reports, report.stat.applicationId = 0 ∧
      ∃ other ∈ flows ++ [flow], other.appId = report.index := by
    intro report hreport
    rcases kept.printed report hreport with ⟨hzero, other, hother, hindex⟩
    exact ⟨hzero, other, List.mem_append_left _ hother, hindex⟩
  have hown := kept.stats flow.appId
  rcases context.update_cases conf flow with hupdate | hupdate <;> rw [hupdate]
  · refine ⟨(Function.forall_update_iff _ _).mpr ⟨hown.full below, ?_⟩, ?_⟩
    · intro app happ
      exact (kept.stats app).other happ.symm (by simpa using happ.symm)
    · intro report hreport
      rcases List.mem_append.mp hreport with hreport | hreport
      · exact hprinted report hreport
      · rw [List.mem_singleton.mp hreport]
        exact ⟨hown.unlabelled, flow, by simp, rfl⟩
  · refine ⟨(Function.forall_update_iff _ _).mpr ⟨hown.quiet below, ?_⟩, hprinted⟩
    intro app happ
    have hother := (kept.stats app).other happ.symm (List.forall_mem_nil _)
    rwa [List.append_nil] at hother

/-! ## Whole runs -/

theorem conserved_microFlowRun {flows : List (MicroFlow max)} (noWrap : NoWrap conf flows) :
    Conserved flows (microFlowRun conf flows) := by
  induction flows using List.reverseRecOn with
  | nil => exact conserved_allocInit
  | append_singleton flows flow ih =>
      have hbefore : NoWrap conf flows := by
        intro before other after hflows
        exact noWrap before other (after ++ [flow]) (by rw [hflows]; simp)
      have hrun : microFlowRun conf (flows ++ [flow]) =
          (microFlowRun conf flows).update conf flow :=
        List.foldl_concat ..
      rw [hrun]
      exact (ih hbefore).update (noWrap flows flow [] rfl)

/-- The release prints what the statistics hold. -/
theorem reportedAt_release {flows : List (MicroFlow max)} (kept : Conserved flows context)
    (quantity : Quantity) (app : Fin max) :
    reportedAt quantity app context.release = carried quantity app flows := by
  rw [(kept.stats app).balance quantity]
  unfold reportedAt MicroFlowContext.release
  rw [totalAt_append, totalAt_finRange _ _ _ fun _ => rfl]
  by_cases hcounts : (context.stats app).flowsNb > 0
  · rw [if_pos (decide_eq_true hcounts)]
  · have hzero : (context.stats app).flowsNb = 0 := by
      have hle := UInt32.not_lt.mp hcounts
      exact UInt32.le_zero_iff.mp hle
    rw [if_neg (by simpa using hcounts), (kept.stats app).empty hzero quantity]

theorem release_unlabelled {flows : List (MicroFlow max)} (kept : Conserved flows context)
    (report : MicroFlowReport max) (written : report ∈ context.release) :
    report.stat.applicationId = 0 ∧ ∃ flow ∈ flows, flow.appId = report.index := by
  rcases List.mem_append.mp written with hreport | hreport
  · exact kept.printed report hreport
  · rcases List.mem_map.mp hreport with ⟨app, happ, rfl⟩
    have hcounts : (context.stats app).flowsNb > 0 := by simpa using happ
    exact ⟨(kept.stats app).unlabelled, (kept.stats app).used (UInt32.ne_of_lt hcounts).symm⟩

/-- Index by index, the reports of a released run say what its sessions have carried. -/
theorem microFlows_conserved {flows : List (MicroFlow max)} (noWrap : NoWrap conf flows)
    (quantity : Quantity) (app : Fin max) :
    reportedAt quantity app (microFlowRun conf flows).release = carried quantity app flows :=
  reportedAt_release (conserved_microFlowRun noWrap) quantity app

/-- By their labels, the reports of a released run say what the sessions of each
application have carried exactly when all of them belong to the application 0. -/
theorem microFlows_labelled_iff {flows : List (MicroFlow max)} (noWrap : NoWrap conf flows) :
    (∀ (app : Fin max) (quantity : Quantity),
        labelled quantity app (microFlowRun conf flows).release = carried quantity app flows) ↔
      ∀ flow ∈ flows, flow.appId.val = 0 := by
  have hkept := conserved_microFlowRun noWrap
  refine ⟨?_, ?_⟩
  · intro hlabelled flow hflow
    by_contra hne
    -- no report has the label of this session
    have hnone : labelled .flows flow.appId (microFlowRun conf flows).release = 0 := by
      apply totalAt_eq_zero
      intro report hreport
      rw [(release_unlabelled hkept report hreport).1]
      exact fun hzero => hne hzero.symm
    have hsome : 1 ≤ carried .flows flow.appId flows :=
      le_totalAt MicroFlow.appId (fun flow => flow.dpi.count .flows) hflow
    rw [← hlabelled flow.appId .flows, hnone] at hsome
    exact absurd hsome (Nat.not_succ_le_zero 0)
  · intro hall app quantity
    rw [← microFlows_conserved noWrap quantity app]
    have hindex : ∀ report ∈ (microFlowRun conf flows).release, report.index.val = 0 := by
      intro report hreport
      rcases (release_unlabelled hkept report hreport).2 with ⟨flow, hflow, happ⟩
      rw [← happ]
      exact hall flow hflow
    have hlabel : ∀ report ∈ (microFlowRun conf flows).release,
        report.stat.applicationId.toNat = 0 := by
      intro report hreport
      rw [(release_unlabelled hkept report hreport).1]
      rfl
    unfold labelled reportedAt
    by_cases happ : app.val = 0
    · rw [happ, totalAt_eq_sum hlabel, totalAt_eq_sum]
      intro report hreport
      exact Fin.ext ((hindex report hreport).trans happ.symm)
    · rw [totalAt_eq_zero, totalAt_eq_zero]
      · intro report hreport hsame
        exact happ (hsame ▸ hindex report hreport)
      · intro report hreport hsame
        exact happ (hsame ▸ hlabel report hreport)

/-- Limits that two sessions pass together. -/
def pairLimits : MicroFlowConf := ⟨true, 0, 0, 100, 5000, 1⟩

/-- A session that has carried so many packets and bytes in each direction. -/
def evenSession (packets bytes : UInt64) : DpiSession :=
  ⟨.zero, 2 * bytes, 2 * packets, ⟨bytes, bytes⟩, ⟨packets, packets⟩, .zero, .zero⟩

/-- Three sessions of the application 0. -/
def threeFlows : List (MicroFlow 400) :=
  [⟨0, evenSession 2 200⟩, ⟨0, evenSession 3 450⟩, ⟨0, evenSession 1 60⟩]

theorem noWrap_threeFlows : NoWrap pairLimits threeFlows := by
  have hfirst : StaysBelow (microFlowRun pairLimits (threeFlows.take 0))
      ⟨0, evenSession 2 200⟩ := by
    unfold StaysBelow
    decide +kernel
  have hsecond : StaysBelow (microFlowRun pairLimits (threeFlows.take 1))
      ⟨0, evenSession 3 450⟩ := by
    unfold StaysBelow
    decide +kernel
  have hthird : StaysBelow (microFlowRun pairLimits (threeFlows.take 2))
      ⟨0, evenSession 1 60⟩ := by
    unfold StaysBelow
    decide +kernel
  exact ((past_nil.concat hfirst).concat hsecond).concat hthird

/-- The second session passes a limit, and the third is left to the release. -/
theorem microFlows_labelled_iff_threeFlows :
    (microFlowRun pairLimits threeFlows).reports.map (·.stat.count .ulBytes) = [650] ∧
      (microFlowRun pairLimits threeFlows).release.map (·.stat.count .ulBytes) = [650, 60] ∧
      ((∀ (app : Fin 400) (quantity : Quantity),
          labelled quantity app (microFlowRun pairLimits threeFlows).release =
            carried quantity app threeFlows) ↔
        ∀ flow ∈ threeFlows, flow.appId.val = 0) :=
  ⟨by decide +kernel, by decide +kernel, microFlows_labelled_iff noWrap_threeFlows⟩

/-- Small limits, so that a session is reported at once. -/
def smallLimits : MicroFlowConf := ⟨true, 0, 0, 10, 10, 1⟩

/-- A session with two packets of 100 bytes in each direction. -/
def smallSession : DpiSession :=
  ⟨.zero, 400, 4, ⟨200, 200⟩, ⟨2, 2⟩, .zero, .zero⟩

/-- One session of an application. -/
def oneFlow (app : Fin 400) : List (MicroFlow 400) := [⟨app, smallSession⟩]

theorem noWrap_oneFlow (app : Fin 400) : NoWrap smallLimits (oneFlow app) := by
  intro before flow after hflows
  rcases List.append_eq_singleton_iff.mp hflows.symm with ⟨rfl, hflow⟩ | ⟨-, hflow⟩
  · cases hflow
    intro quantity
    change MicroFlowStats.zero.count quantity + smallSession.count quantity < 2 ^ 32
    cases quantity <;> decide
  · cases hflow

/-- A session of the application 153 is reported under the label 0. -/
theorem microFlows_not_labelled :
    NoWrap smallLimits (oneFlow 153) ∧
      carried .flows 153 (oneFlow 153) = 1 ∧
      labelled .flows 153 (microFlowRun smallLimits (oneFlow 153)).release = 0 ∧
      labelled .flows 0 (microFlowRun smallLimits (oneFlow 153)).release = 1 := by
  refine ⟨noWrap_oneFlow 153, ?_⟩
  decide +kernel

end MmtProbe.Dpi
