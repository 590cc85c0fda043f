/-
# The aggregates of the round-trip times

Between two reports the samples of a direction are summed up in four numbers: how many
packets they acknowledge, the sum of the times weighted with these packets, the largest
and the smallest time.  A report prints the last two and the average, and resets all of
them.

The smallest time starts at 0, which the code takes for "no sample yet".  A sample of 0
is a legal one, and the next sample replaces it.
-/

import MmtProbe.Dpi.SessionReport
import MmtProbe.Dpi.TcpRtt
import Mathlib.Data.List.Induction
import Mathlib.Algebra.BigOperators.Group.List.Basic

namespace MmtProbe.Dpi

open MmtProbe.Configure MmtProbe.Math

/-! ## One period of one direction -/

/-- A round-trip time and the number of packets it stands for. -/
structure RttSample where
  usec : UInt64
  counter : UInt32
deriving DecidableEq, Repr

/-- The aggregates of the samples of a period. -/
def RttStat.ofSamples (samples : List RttSample) : RttStat :=
  samples.foldl (fun rtt sample => rtt.add sample.usec sample.counter) .zero

/-- The printed average, `_div( rtt.sum, rtt.counter )`. -/
def RttStat.average (rtt : RttStat) : UInt64 :=
  if rtt.counter = 0 then 0 else rtt.sum / rtt.counter

/-- The packets that the samples stand for. -/
def weight (samples : List RttSample) : Nat := (samples.map fun s => s.counter.toNat).sum

/-- The sum of the times, weighted with the packets. -/
def weightedSum (samples : List RttSample) : Nat :=
  (samples.map fun s => s.usec.toNat * s.counter.toNat).sum

/-- The two sums fit in their 64 bits. -/
def SumsFit (samples : List RttSample) : Prop :=
  weight samples < 2 ^ 64 ∧ weightedSum samples < 2 ^ 64

instance (samples : List RttSample) : Decidable (SumsFit samples) :=
  inferInstanceAs (Decidable (_ ∧ _))

/-- A time is the smallest one of a period. -/
def Smallest (usec : UInt64) (samples : List RttSample) : Prop :=
  (∃ s ∈ samples, s.usec = usec) ∧ ∀ s ∈ samples, usec ≤ s.usec

/-- A time is the largest one of a period. -/
def Largest (usec : UInt64) (samples : List RttSample) : Prop :=
  (∃ s ∈ samples, s.usec = usec) ∧ ∀ s ∈ samples, s.usec ≤ usec

/-- What is printed of a direction agrees with its samples. -/
def Consistent (samples : List RttSample) (rtt : RttStat) : Prop :=
  if samples = [] then rtt.min = 0 ∧ rtt.max = 0 ∧ rtt.average = 0
  else Smallest rtt.min samples ∧ Largest rtt.max samples ∧
    rtt.min ≤ rtt.average ∧ rtt.average ≤ rtt.max

/-- A sample of 0 is not followed by a larger one that nothing resets: the last sample of
the period is 0 as well. -/
def ZeroLast (samples : List RttSample) : Prop :=
  (∃ s ∈ samples, s.usec = 0) → ∃ s ∈ samples.getLast?, s.usec = 0

instance (samples : List RttSample) : Decidable (ZeroLast samples) :=
  inferInstanceAs (Decidable ((∃ s ∈ samples, s.usec = 0) → ∃ s ∈ samples.getLast?, s.usec = 0))

variable {samples : List RttSample} {last : RttSample}

@[simp]
theorem RttStat.ofSamples_nil : RttStat.ofSamples [] = .zero := rfl

@[simp]
theorem RttStat.ofSamples_concat (samples : List RttSample) (last : RttSample) :
    RttStat.ofSamples (samples ++ [last]) = (ofSamples samples).add last.usec last.counter := by
  unfold RttStat.ofSamples
  rw [List.foldl_concat]

theorem weight_concat (samples : List RttSample) (last : RttSample) :
    weight (samples ++ [last]) = weight samples + last.counter.toNat := by
  simp [weight]

theorem weightedSum_concat (samples : List RttSample) (last : RttSample) :
    weightedSum (samples ++ [last]) =
      weightedSum samples + last.usec.toNat * last.counter.toNat := by
  simp [weightedSum]

/-! ## The sums -/

theorem counter_ofSamples (samples : List RttSample) :
    (RttStat.ofSamples samples).counter.toNat = weight samples % 2 ^ 64 := by
  induction samples using List.reverseRecOn with
  | nil => rfl
  | append_singleton samples last ih =>
      rw [RttStat.ofSamples_concat, weight_concat, RttStat.add, UInt64.toNat_add, ih,
        UInt32.toNat_toUInt64]
      omega

theorem sum_ofSamples (samples : List RttSample) :
    (RttStat.ofSamples samples).sum.toNat = weightedSum samples % 2 ^ 64 := by
  induction samples using List.reverseRecOn with
  | nil => rfl
  | append_singleton samples last ih =>
      rw [RttStat.ofSamples_concat, weightedSum_concat, RttStat.add, UInt64.toNat_add, ih,
        UInt64.toNat_mul, UInt32.toNat_toUInt64]
      omega

/-- A bound on every time bounds the weighted sum. -/
theorem weightedSum_le {most : UInt64} (bound : ∀ s ∈ samples, s.usec ≤ most) :
    weightedSum samples ≤ most.toNat * weight samples := by
  induction samples with
  | nil => simp [weightedSum]
  | cons s samples ih =>
      have hs : s.usec.toNat ≤ most.toNat :=
        UInt64.le_iff_toNat_le.mp (bound s (List.mem_cons_self ..))
      have hrest := ih fun t ht => bound t (List.mem_cons_of_mem s ht)
      have hmul := Nat.mul_le_mul_right s.counter.toNat hs
      simp only [weightedSum, weight, List.map_cons, List.sum_cons] at hrest ⊢
      rw [Nat.mul_add]
      omega

theorem le_weightedSum {least : UInt64} (bound : ∀ s ∈ samples, least ≤ s.usec) :
    least.toNat * weight samples ≤ weightedSum samples := by
  induction samples with
  | nil => simp [weight]
  | cons s samples ih =>
      have hs : least.toNat ≤ s.usec.toNat :=
        UInt64.le_iff_toNat_le.mp (bound s (List.mem_cons_self ..))
      have hrest := ih fun t ht => bound t (List.mem_cons_of_mem s ht)
      have hmul := Nat.mul_le_mul_right s.counter.toNat hs
      simp only [weightedSum, weight, List.map_cons, List.sum_cons] at hrest ⊢
      rw [Nat.mul_add]
      omega

theorem weight_pos (present : samples ≠ []) (counted : ∀ s ∈ samples, s.counter ≠ 0) :
    0 < weight samples := by
  cases samples with
  | nil => exact absurd rfl present
  | cons s samples =>
      have hs : s.counter.toNat ≠ 0 := by
        intro hzero
        exact counted s (List.mem_cons_self ..) (UInt32.toNat_inj.mp hzero)
      simp only [weight, List.map_cons, List.sum_cons]
      omega

/-- The average is the quotient of the sums. -/
theorem average_ofSamples (present : samples ≠ []) (counted : ∀ s ∈ samples, s.counter ≠ 0)
    (fits : SumsFit samples) :
    (RttStat.ofSamples samples).average.toNat = weightedSum samples / weight samples := by
  have hcounter := counter_ofSamples samples
  have hsum := sum_ofSamples samples
  rw [Nat.mod_eq_of_lt fits.1] at hcounter
  rw [Nat.mod_eq_of_lt fits.2] at hsum
  have hpos := weight_pos present counted
  have hne : (RttStat.ofSamples samples).counter ≠ 0 := by
    intro hzero
    rw [hzero] at hcounter
    change 0 = _ at hcounter
    omega
  rw [RttStat.average, if_neg hne, UInt64.toNat_div, hsum, hcounter]

/-! ## The largest and the smallest time -/

/-- The largest time so far bounds all of them, and is one of them unless it is 0. -/
theorem max_ofSamples (samples : List RttSample) :
    (∀ s ∈ samples, s.usec ≤ (RttStat.ofSamples samples).max) ∧
      ((RttStat.ofSamples samples).max = 0 ∨
        ∃ s ∈ samples, s.usec = (RttStat.ofSamples samples).max) := by
  induction samples using List.reverseRecOn with
  | nil => exact ⟨by simp, Or.inl rfl⟩
  | append_singleton samples last ih =>
      rcases ih with ⟨hbound, hattained⟩
      rw [RttStat.ofSamples_concat, RttStat.add]
      by_cases hlt : (RttStat.ofSamples samples).max < last.usec
      · simp only [if_pos hlt]
        refine ⟨?_, Or.inr ⟨last, by simp, rfl⟩⟩
        intro s hs
        rcases List.mem_append.mp hs with hs | hs
        · exact UInt64.le_trans (hbound s hs) (UInt64.le_of_lt hlt)
        · rw [List.mem_singleton.mp hs]
          exact UInt64.le_refl _
      · simp only [if_neg hlt]
        refine ⟨?_, ?_⟩
        · intro s hs
          rcases List.mem_append.mp hs with hs | hs
          · exact hbound s hs
          · rw [List.mem_singleton.mp hs]
            exact UInt64.not_lt.mp hlt
        · rcases hattained with hzero | ⟨s, hs, heq⟩
          · exact Or.inl hzero
          · exact Or.inr ⟨s, List.mem_append_left _ hs, heq⟩

theorem largest_ofSamples (present : samples ≠ []) :
    Largest (RttStat.ofSamples samples).max samples := by
  rcases max_ofSamples samples with ⟨hbound, hzero | hattained⟩
  · rcases List.exists_mem_of_ne_nil samples present with ⟨s, hs⟩
    have hs0 : s.usec = 0 := by
      have hle := hbound s hs
      rw [hzero] at hle
      exact UInt64.le_zero_iff.mp hle
    exact ⟨⟨s, hs, hs0.trans hzero.symm⟩, hbound⟩
  · exact ⟨hattained, hbound⟩

/-- As long as no time is 0, the smallest time is kept. -/
theorem smallest_ofSamples (positive : ∀ s ∈ samples, s.usec ≠ 0) (present : samples ≠ []) :
    Smallest (RttStat.ofSamples samples).min samples := by
  induction samples using List.reverseRecOn with
  | nil => exact absurd rfl present
  | append_singleton samples last ih =>
      rw [RttStat.ofSamples_concat, RttStat.add]
      by_cases hempty : samples = []
      · rw [hempty]
        refine ⟨⟨last, by simp, by simp [RttStat.zero]⟩, ?_⟩
        intro s hs
        rw [List.mem_singleton.mp hs]
        simp [RttStat.zero]
      · rcases ih (fun s hs => positive s (List.mem_append_left _ hs)) hempty with
          ⟨⟨least, hleast, heq⟩, hbound⟩
        have hne : (RttStat.ofSamples samples).min ≠ 0 := by
          rw [← heq]
          exact positive least (List.mem_append_left _ hleast)
        by_cases hlt : (RttStat.ofSamples samples).min > last.usec
        · simp only [if_pos (Or.inr hlt)]
          refine ⟨⟨last, by simp, rfl⟩, ?_⟩
          intro s hs
          rcases List.mem_append.mp hs with hs | hs
          · exact UInt64.le_trans (UInt64.le_of_lt hlt) (hbound s hs)
          · rw [List.mem_singleton.mp hs]
            exact UInt64.le_refl _
        · simp only [if_neg (not_or.mpr ⟨hne, hlt⟩)]
          refine ⟨⟨least, List.mem_append_left _ hleast, heq⟩, ?_⟩
          intro s hs
          rcases List.mem_append.mp hs with hs | hs
          · exact hbound s hs
          · rw [List.mem_singleton.mp hs]
            exact UInt64.not_lt.mp hlt

/-- The smallest time is 0 exactly after a sample of 0. -/
theorem min_eq_zero_iff (samples : List RttSample) (last : RttSample) :
    (RttStat.ofSamples (samples ++ [last])).min = 0 ↔ last.usec = 0 := by
  rw [RttStat.ofSamples_concat, RttStat.add]
  by_cases hzero : (RttStat.ofSamples samples).min = 0
  · simp only [if_pos (Or.inl hzero)]
  · by_cases hlt : (RttStat.ofSamples samples).min > last.usec
    · simp only [if_pos (Or.inr hlt)]
    · simp only [if_neg (not_or.mpr ⟨hzero, hlt⟩)]
      refine ⟨fun h => absurd h hzero, ?_⟩
      intro hlast
      rw [hlast] at hlt
      exact absurd (UInt64.le_zero_iff.mp (UInt64.not_lt.mp hlt)) hzero

/-- The printed minimum is right exactly when a sample of 0 is followed by one. -/
theorem smallest_iff_zeroLast (present : samples ≠ []) :
    Smallest (RttStat.ofSamples samples).min samples ↔ ZeroLast samples := by
  by_cases hpositive : ∀ s ∈ samples, s.usec ≠ 0
  · refine ⟨?_, fun _ => smallest_ofSamples hpositive present⟩
    rintro - ⟨s, hs, hzero⟩
    exact absurd hzero (hpositive s hs)
  · push Not at hpositive
    rcases hpositive with ⟨zero, hzero, hzero'⟩
    rcases List.eq_nil_or_concat' samples with hempty | ⟨rest, last, rfl⟩
    · exact absurd hempty present
    · have hlast : (∃ s ∈ (rest ++ [last]).getLast?, s.usec = 0) ↔ last.usec = 0 := by simp
      unfold ZeroLast
      rw [hlast]
      refine ⟨?_, ?_⟩
      · rintro ⟨-, hbound⟩ -
        have hmin := hbound zero hzero
        rw [hzero'] at hmin
        exact (min_eq_zero_iff rest last).mp (UInt64.le_zero_iff.mp hmin)
      · intro hkept
        rw [(min_eq_zero_iff rest last).mpr (hkept ⟨zero, hzero, hzero'⟩)]
        exact ⟨⟨zero, hzero, hzero'⟩, fun s _ => UInt64.zero_le⟩

/-- What is printed of a period agrees with its samples exactly when a sample of 0 is
not followed by a larger one. -/
theorem consistent_iff_zeroLast (counted : ∀ s ∈ samples, s.counter ≠ 0)
    (fits : SumsFit samples) :
    Consistent samples (RttStat.ofSamples samples) ↔ ZeroLast samples := by
  unfold Consistent
  by_cases hempty : samples = []
  · rw [if_pos hempty, hempty]
    exact ⟨fun _ => by simp [ZeroLast], fun _ => ⟨rfl, rfl, rfl⟩⟩
  · rw [if_neg hempty, ← smallest_iff_zeroLast hempty]
    refine ⟨fun h => h.1, ?_⟩
    intro hsmallest
    have hlargest := largest_ofSamples hempty
    have haverage := average_ofSamples hempty counted fits
    have hpos := weight_pos hempty counted
    refine ⟨hsmallest, hlargest, UInt64.le_iff_toNat_le.mpr ?_, UInt64.le_iff_toNat_le.mpr ?_⟩
    · rw [haverage, Nat.le_div_iff_mul_le hpos]
      exact le_weightedSum hsmallest.2
    · rw [haverage]
      apply Nat.div_le_of_le_mul
      rw [Nat.mul_comm]
      exact weightedSum_le hlargest.2

/-! ## Samples and reports of a session -/

/-- A session, the samples of the current period, and for each report the samples of its
period and what it says about the quality of service. -/
structure RttPeriods where
  stat : SessionStat
  period : PerDirection (List RttSample)
  reports : List (PerDirection (List RttSample) × QosReport)
deriving DecidableEq, Repr

/-- What happens to a session. -/
inductive RttLabel where
  /-- A packet of the other direction acknowledges some packets of this one. -/
  | sample (direction : Bool) (sample : RttSample)
  /-- `session_report_do_report` -/
  | report (dpi : DpiSession)
  /-- A callback changes something but the round-trip times. -/
  | other (stat : SessionStat)
deriving DecidableEq, Repr

/-- A sample enters the aggregates of its direction. -/
def QosStat.addSample (qos : QosStat) (direction : Bool) (sample : RttSample) : QosStat :=
  { qos with
    rtt := qos.rtt.set direction ((qos.rtt.get direction).add sample.usec sample.counter) }

/-- The session after a report; the period ends when the report has a part about the
quality of service. -/
def RttPeriods.report (build : Build) (state : RttPeriods) (dpi : DpiSession) :
    Option RttPeriods :=
  match printIpSessionReport build dpi state.stat with
  | .error _ => none
  | .ok (printed, stat) =>
      match printed.bind SessionReport.qos with
      | none => some { state with stat := stat }
      | some qos => some ⟨stat, ⟨[], []⟩, state.reports ++ [(state.period, qos)]⟩

/-- The samples and the reports of a session. -/
def rttPeriods (build : Build) : Machine RttPeriods RttLabel where
  init state := state.stat.qos.rtt = ⟨.zero, .zero⟩ ∧ state.period = ⟨[], []⟩ ∧ state.reports = []
  step state
    | .sample direction sample =>
        if sample.counter = 0 then none
        else some { state with
          stat := { state.stat with qos := state.stat.qos.addSample direction sample }
          period := state.period.set direction (state.period.get direction ++ [sample]) }
    | .report dpi => state.report build dpi
    | .other stat =>
        if stat.qos.rtt = state.stat.qos.rtt then some { state with stat := stat } else none

/-- The callback on a packet adds at most one sample to the aggregates, and none that
stands for no packet. -/
theorem QosStat.receive_rtt (qos : QosStat) (base : RttBase) (info : PacketInfo) :
    (qos.receive base info).rtt = qos.rtt ∨
      ∃ sample : RttSample, sample.counter ≠ 0 ∧
        (qos.receive base info).rtt = (qos.addSample (!info.direction) sample).rtt := by
  have hmoments : ∀ qos : QosStat, (qos.moments info).rtt = qos.rtt := by
    intro qos
    unfold QosStat.moments
    split_ifs <;> rfl
  unfold QosStat.receive
  simp only [hmoments, QosStat.addRtt_eq]
  cases rttCall base info with
  | none => exact Or.inl rfl
  | some call =>
      by_cases hfound : (call.addTo qos.tcpRtt).2.1 ≠ 0
      · simp only [if_pos hfound]
        exact Or.inr ⟨⟨_, _⟩, hfound, rfl⟩
      · simp only [if_neg hfound]
        exact Or.inl trivial

/-- A report prints the aggregates as they are and leaves none. -/
theorem printIpSessionReport_rtt {build : Build} {dpi : DpiSession} {stat after : SessionStat}
    {printed : Option SessionReport}
    (returned : printIpSessionReport build dpi stat = .ok (printed, after)) :
    (printed.bind SessionReport.qos = none ∧ after.qos.rtt = stat.qos.rtt) ∨
      ∃ qos, printed.bind SessionReport.qos = some qos ∧ qos.rtt = stat.qos.rtt ∧
        after.qos.rtt = ⟨.zero, .zero⟩ := by
  have hprint : (stat.qos.print dpi).2.rtt = stat.qos.rtt := by
    unfold QosStat.print
    simp only
    split_ifs <;> rfl
  rcases printIpSessionReport_qos returned with ⟨_, rfl, rfl⟩ | ⟨report, rfl, hreport, hafter⟩
  · exact Or.inl ⟨rfl, rfl⟩
  · rw [Option.bind_some, hreport, hafter]
    unfold SessionStat.printQos
    cases build.qosModule with
    | false => exact Or.inl ⟨rfl, rfl⟩
    | true => exact Or.inr ⟨_, rfl, hprint, rfl⟩

/-- The aggregates are those of the samples of their period. -/
def Aggregated (samples : PerDirection (List RttSample)) (rtt : PerDirection RttStat) : Prop :=
  ∀ direction, rtt.get direction = .ofSamples (samples.get direction) ∧
    ∀ s ∈ samples.get direction, s.counter ≠ 0

theorem aggregated_empty : Aggregated ⟨[], []⟩ ⟨.zero, .zero⟩ := by
  intro direction
  cases direction <;> exact ⟨rfl, by simp [PerDirection.get]⟩

theorem Aggregated.sample {samples : PerDirection (List RttSample)} {rtt : PerDirection RttStat}
    {direction : Bool} {sample : RttSample} (aggregated : Aggregated samples rtt)
    (counted : sample.counter ≠ 0) :
    Aggregated (samples.set direction (samples.get direction ++ [sample]))
      (rtt.set direction ((rtt.get direction).add sample.usec sample.counter)) := by
  unfold Aggregated
  refine forall_direction _ direction ?_ ?_
  · rcases aggregated direction with ⟨heq, hcounted⟩
    simp only [PerDirection.get_set, RttStat.ofSamples_concat]
    refine ⟨by rw [heq], ?_⟩
    intro s hs
    rcases List.mem_append.mp hs with hs | hs
    · exact hcounted s hs
    · rw [List.mem_singleton.mp hs]
      exact counted
  · simp only [PerDirection.get_not_set]
    exact aggregated !direction

/-- The current period and those of all reports. -/
structure PeriodsKept (state : RttPeriods) : Prop where
  current : Aggregated state.period state.stat.qos.rtt
  printed : ∀ entry ∈ state.reports, Aggregated entry.1 entry.2.rtt

theorem PeriodsKept.step {build : Build} {state target : RttPeriods} {label : RttLabel}
    (kept : PeriodsKept state) (enabled : (rttPeriods build).step state label = some target) :
    PeriodsKept target := by
  cases label with
  | sample direction sample =>
      simp only [rttPeriods] at enabled
      split_ifs at enabled with hzero
      rw [← Option.some.inj enabled]
      exact ⟨kept.current.sample hzero, kept.printed⟩
  | report dpi =>
      simp only [rttPeriods, RttPeriods.report] at enabled
      cases hreturned : printIpSessionReport build dpi state.stat with
      | error crash =>
          rw [hreturned] at enabled
          cases enabled
      | ok result =>
          rcases result with ⟨printed, after⟩
          rw [hreturned] at enabled
          rcases printIpSessionReport_rtt hreturned with ⟨hnone, hsame⟩ |
            ⟨qos, hsome, hrtt, hreset⟩
          · simp only [hnone] at enabled
            rw [← Option.some.inj enabled]
            exact ⟨by simpa only [hsame] using kept.current, kept.printed⟩
          · simp only [hsome] at enabled
            rw [← Option.some.inj enabled]
            refine ⟨by simpa only [hreset] using aggregated_empty, ?_⟩
            intro entry hentry
            rcases List.mem_append.mp hentry with hentry | hentry
            · exact kept.printed entry hentry
            · rw [List.mem_singleton.mp hentry]
              simpa only [hrtt] using kept.current
  | other stat =>
      simp only [rttPeriods] at enabled
      split_ifs at enabled with hsame
      rw [← Option.some.inj enabled]
      exact ⟨by simpa only [hsame] using kept.current, kept.printed⟩

theorem periodsKept_of_reachable {build : Build} {state : RttPeriods}
    (reached : (rttPeriods build).Reachable state) : PeriodsKept state := by
  apply reached.invariant PeriodsKept
  · rintro state ⟨hrtt, hperiod, hreports⟩
    refine ⟨?_, ?_⟩
    · rw [hrtt, hperiod]
      exact aggregated_empty
    · rw [hreports]
      simp
  · intro state label target hkept henabled
    exact hkept.step henabled

/-- Every report of every run agrees, in each direction, with the samples of its period
exactly when no sample of 0 in it is followed by a larger last one. -/
theorem reports_consistent_iff {build : Build} {state : RttPeriods}
    (reached : (rttPeriods build).Reachable state) {samples : PerDirection (List RttSample)}
    {qos : QosReport} (printed : (samples, qos) ∈ state.reports) (direction : Bool)
    (fits : SumsFit (samples.get direction)) :
    Consistent (samples.get direction) (qos.rtt.get direction) ↔
      ZeroLast (samples.get direction) := by
  rcases (periodsKept_of_reachable reached).printed _ printed direction with ⟨heq, hcounted⟩
  rw [heq]
  exact consistent_iff_zeroLast hcounted fits

/-- With the quality of service, and nothing else. -/
def qosBuild : Build := ⟨false, false, false, false, false, false, true⟩

/-- A session that has carried one packet. -/
def onePacket : DpiSession :=
  ⟨⟨⟨0, 0⟩, ⟨0, 0⟩, ⟨1, 0⟩⟩, 0, 1, ⟨0, 0⟩, ⟨1, 0⟩, .zero, .zero⟩

def noSamples : RttPeriods := ⟨.fresh, ⟨[], []⟩, []⟩

/-- Two samples of one direction, then a report. -/
def twoSamples (first second : UInt64) : List RttLabel :=
  [.sample false ⟨first, 1⟩, .sample false ⟨second, 1⟩, .report onePacket]

theorem reports_consistent_iff_two :
    let state := (rttPeriods qosBuild).after (twoSamples 10 20) noSamples
    (rttPeriods qosBuild).Reachable state ∧
      ∃ qos, (⟨[⟨10, 1⟩, ⟨20, 1⟩], []⟩, qos) ∈ state.reports ∧
        SumsFit [⟨10, 1⟩, ⟨20, 1⟩] ∧
        (Consistent [⟨10, 1⟩, ⟨20, 1⟩] (qos.rtt.get false) ↔ ZeroLast [⟨10, 1⟩, ⟨20, 1⟩]) := by
  have hreached : (rttPeriods qosBuild).Reachable
      ((rttPeriods qosBuild).after (twoSamples 10 20) noSamples) :=
    Machine.reachable_after ⟨rfl, rfl, rfl⟩ (by decide +kernel)
  have hprinted : (⟨[⟨10, 1⟩, ⟨20, 1⟩], []⟩,
      ⟨⟨0, 0, 0⟩, ⟨.ofSamples [⟨10, 1⟩, ⟨20, 1⟩], .zero⟩, ⟨0, 0⟩⟩) ∈
        ((rttPeriods qosBuild).after (twoSamples 10 20) noSamples).reports := by
    decide +kernel
  exact ⟨hreached, _, hprinted, by decide,
    reports_consistent_iff hreached hprinted false (by decide)⟩

/-- After the samples 0 and 20 the report prints 20 as the smallest time. -/
theorem reports_not_consistent :
    let state := (rttPeriods qosBuild).after (twoSamples 0 20) noSamples
    (rttPeriods qosBuild).Reachable state ∧
      ∃ qos, (⟨[⟨0, 1⟩, ⟨20, 1⟩], []⟩, qos) ∈ state.reports ∧
        SumsFit [⟨0, 1⟩, ⟨20, 1⟩] ∧ ¬ Smallest (qos.rtt.get false).min [⟨0, 1⟩, ⟨20, 1⟩] := by
  have hreached : (rttPeriods qosBuild).Reachable
      ((rttPeriods qosBuild).after (twoSamples 0 20) noSamples) :=
    Machine.reachable_after ⟨rfl, rfl, rfl⟩ (by decide +kernel)
  refine ⟨hreached, ⟨⟨0, 0, 0⟩, ⟨.ofSamples [⟨0, 1⟩, ⟨20, 1⟩], .zero⟩, ⟨0, 0⟩⟩,
    by decide +kernel, by decide, ?_⟩
  rintro ⟨-, hbound⟩
  exact absurd (hbound ⟨0, 1⟩ (by simp)) (by decide)

end MmtProbe.Dpi
