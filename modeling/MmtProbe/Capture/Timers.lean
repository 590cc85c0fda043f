/-
# The timers of the capture loops

Each capture loop looks at a clock in every round and calls `worker_on_timer_stat_period`
and `worker_on_timer_sample_file_period` when their deadlines have passed.  The next
deadline is one period after the previous deadline, not after the current time, so that a
round that comes late is followed by others that call too early, until the deadlines have
caught up with the clock.

Four loops do this, with small differences: where the deadlines are set for the first
time, whether the round that sets them also checks them, and whether a deadline has to be
reached or passed.  Times are in seconds.
-/

import MmtProbe.Math.Machine
import Mathlib.Data.List.Chain

namespace MmtProbe.Capture

open MmtProbe.Math

/-! ## One timer -/

/-- A deadline, and the clock values at which the timer was called. -/
structure Timer where
  next : Nat
  fired : List Nat
deriving DecidableEq, Repr

/-- How a deadline is compared with the clock: `now > next` or `now >= next`. -/
inductive Comparison where
  | passed
  | reached
deriving DecidableEq, Repr

def Comparison.holds : Comparison → Nat → Nat → Bool
  | passed, now, next => decide (now > next)
  | reached, now, next => decide (now ≥ next)

/-- The first clock value at which a deadline is met is that much later. -/
def Comparison.delay : Comparison → Nat
  | passed => 1
  | reached => 0

/-- A timer in one round of a loop. -/
def Timer.check (comparison : Comparison) (period now : Nat) (timer : Timer) : Timer :=
  if comparison.holds now timer.next then ⟨timer.next + period, timer.fired ++ [now]⟩ else timer

/-- Two consecutive calls are at least one period apart. -/
def Timer.Periodic (period : Nat) (timer : Timer) : Prop :=
  timer.fired.IsChain fun earlier later => earlier + period ≤ later

instance (period : Nat) (timer : Timer) : Decidable (timer.Periodic period) :=
  inferInstanceAs (Decidable (timer.fired.IsChain fun earlier later => earlier + period ≤ later))

/-- The clock does not go beyond the first value at which the deadline is met. Without a
period there is nothing to keep. -/
def Timer.InTime (comparison : Comparison) (period now : Nat) (timer : Timer) : Prop :=
  period = 0 ∨ now ≤ timer.next + comparison.delay

instance (comparison : Comparison) (period now : Nat) (timer : Timer) :
    Decidable (timer.InTime comparison period now) := inferInstanceAs (Decidable (_ ∨ _))

/-! ## The loops -/

/-- What the loops read of the configuration. -/
structure TimerConf where
  /-- `stat_period` -/
  statPeriod : UInt16
  /-- `outputs.cache_period` -/
  cachePeriod : UInt16
  /-- `outputs.file->is_sampled` -/
  isSampled : Bool
deriving DecidableEq, Repr

/-- The two timers, and the clock value of the last round. -/
structure Timers where
  /-- `next_stat_ts`, with the calls of `worker_on_timer_stat_period` -/
  stat : Timer
  /-- `next_output_ts`, with the calls of `worker_on_timer_sample_file_period` -/
  output : Timer
  now : Nat
deriving DecidableEq, Repr

namespace Timers

/-- The variables before the first round. -/
def zero : Timers := ⟨⟨0, []⟩, ⟨0, []⟩, 0⟩

/-- The two milestones are set. -/
def start (conf : TimerConf) (now : Nat) (s : Timers) : Timers :=
  { s with
    stat := { s.stat with next := now + conf.statPeriod.toNat }
    output := { s.output with next := now + conf.cachePeriod.toNat } }

/-- The two deadlines are compared with the clock. -/
def check (comparison : Comparison) (conf : TimerConf) (now : Nat) (s : Timers) : Timers :=
  { s with
    stat := s.stat.check comparison conf.statPeriod.toNat now
    output :=
      if conf.isSampled then s.output.check comparison conf.cachePeriod.toNat now else s.output }

/-- The milestones have not been set, and there is a time to begin with. -/
def isFirst (now : Nat) (s : Timers) : Bool := s.output.next == 0 && now != 0

end Timers

/-- The end of a round of `_worker_thread` of the pcap module. -/
def workerThread (conf : TimerConf) (now : Nat) (s : Timers) : Timers :=
  if s.isFirst now then s.start conf now else s.check .passed conf now

/-- The end of `_got_a_packet` of the pcap module, in single-thread mode. -/
def gotAPacket (conf : TimerConf) (now : Nat) (s : Timers) : Timers :=
  (if s.isFirst now then s.start conf now else s).check .passed conf now

/-- The end of `_got_a_line` of the stream module. -/
def gotALine (conf : TimerConf) (now : Nat) (s : Timers) : Timers :=
  (if s.isFirst now then s.start conf now else s).check .passed conf now

/-- The end of a round of `_worker_thread` of the DPDK module. -/
def dpdkWorkerThread (conf : TimerConf) (now : Nat) (s : Timers) : Timers :=
  s.check .reached conf now

/-- The loops that capture packets. -/
inductive CaptureLoop where
  | pcapWorker
  | pcapSingle
  | stream
  | dpdk
deriving DecidableEq, Repr

namespace CaptureLoop

/-- The timers after a round that sees the clock at `now`. -/
def round : CaptureLoop → TimerConf → Nat → Timers → Timers
  | pcapWorker => workerThread
  | pcapSingle => gotAPacket
  | stream => gotALine
  | dpdk => dpdkWorkerThread

/-- The timers before the first round. Only the DPDK worker has looked at the clock. -/
def Starts (loop : CaptureLoop) (conf : TimerConf) (s : Timers) : Prop :=
  match loop with
  | dpdk => ∃ now, s = { Timers.zero.start conf now with now := now }
  | _ => s = .zero

def comparison : CaptureLoop → Comparison
  | dpdk => .reached
  | _ => .passed

/-- The round sets the milestones. -/
def initialises (loop : CaptureLoop) (now : Nat) (s : Timers) : Bool :=
  loop != dpdk && s.isFirst now

end CaptureLoop

/-- A loop with its timers; a round is given by the clock value it sees, and the clock does
not go back. -/
def timerMachine (loop : CaptureLoop) (conf : TimerConf) : Machine Timers Nat where
  init := loop.Starts conf
  step s now := if s.now ≤ now then some { loop.round conf now s with now := now } else none

/-- A round finds no deadline passed for longer than it takes to notice it. -/
def NotLate (loop : CaptureLoop) (conf : TimerConf) (s : Timers) (now : Nat) : Prop :=
  loop.initialises now s ∨
    s.stat.InTime loop.comparison conf.statPeriod.toNat now ∧
      (conf.isSampled → s.output.InTime loop.comparison conf.cachePeriod.toNat now)

instance (loop : CaptureLoop) (conf : TimerConf) (s : Timers) (now : Nat) :
    Decidable (NotLate loop conf s now) := inferInstanceAs (Decidable (_ ∨ _ ∧ (_ → _)))

/-! ## Rounds in time -/

variable {comparison : Comparison} {period clock now : Nat} {timer : Timer}

/-- A deadline that is met lies behind by the delay of the comparison. -/
theorem Comparison.holds_iff (next : Nat) :
    comparison.holds now next = true ↔ next + comparison.delay ≤ now := by
  cases comparison with
  | passed => exact decide_eq_true_iff
  | reached => exact decide_eq_true_iff

/-- The calls so far are periodic, the last of them is not in the future, and the next one
will be one period later. -/
structure Timer.Kept (comparison : Comparison) (period clock : Nat) (timer : Timer) : Prop where
  periodic : timer.Periodic period
  last_le : ∀ last ∈ timer.fired.getLast?, last ≤ clock
  next_ge : ∀ last ∈ timer.fired.getLast?,
    period = 0 ∨ last + period ≤ timer.next + comparison.delay

/-- A timer that was never called is kept. -/
theorem Timer.kept_of_nil (never : timer.fired = []) : timer.Kept comparison period clock := by
  constructor
  · rw [Periodic, never]
    exact .nil
  · rw [never]
    exact fun _ => nofun
  · rw [never]
    exact fun _ => nofun

/-- A round that is in time keeps a timer. -/
theorem Timer.Kept.check (kept : timer.Kept comparison period clock) (forward : clock ≤ now)
    (inTime : timer.InTime comparison period now) :
    (timer.check comparison period now).Kept comparison period now := by
  rw [Timer.check]
  split_ifs with hmet
  · rw [Comparison.holds_iff] at hmet
    constructor
    · refine List.isChain_append.mpr ⟨kept.periodic, .singleton now, ?_⟩
      intro last hlast later hlater
      obtain rfl : now = later := by simpa using hlater
      have hbefore := kept.last_le last hlast
      rcases kept.next_ge last hlast with hzero | hnext <;> omega
    · intro last hlast
      obtain rfl : now = last := by simpa using hlast
      exact le_refl _
    · intro last hlast
      obtain rfl : now = last := by simpa using hlast
      rcases inTime with hzero | hnow
      · exact .inl hzero
      · exact .inr (by simp only; omega)
  · exact ⟨kept.periodic, fun last hlast => (kept.last_le last hlast).trans forward, kept.next_ge⟩

/-- A round that comes late can be followed by one that calls too early. -/
theorem Timer.exists_not_periodic (late : ¬timer.InTime comparison period now) :
    ∃ later, now ≤ later ∧
      ¬((timer.check comparison period now).check comparison period later).Periodic period := by
  rw [InTime, not_or] at late
  have hnow : comparison.holds now timer.next = true :=
    (Comparison.holds_iff _).mpr (by omega)
  have hlater : comparison.holds (max now (timer.next + period + comparison.delay))
      (timer.next + period) = true := (Comparison.holds_iff _).mpr (by omega)
  refine ⟨max now (timer.next + period + comparison.delay), le_max_left _ _, fun periodic => ?_⟩
  rw [Timer.check, Timer.check, if_pos hnow, if_pos hlater, Periodic, List.append_assoc] at periodic
  have hgap := (List.isChain_append.mp periodic).2.1
  simp only [List.cons_append, List.nil_append, List.isChain_cons_cons] at hgap
  omega

/-- Without a call nothing changes. -/
theorem Timer.check_of_lt (early : now < timer.next + comparison.delay) :
    timer.check comparison period now = timer := by
  rw [Timer.check, if_neg]
  rw [Comparison.holds_iff]
  omega

theorem Timer.next_le_check : timer.next ≤ (timer.check comparison period now).next := by
  rw [Timer.check]
  split_ifs
  · exact Nat.le_add_right _ _
  · exact le_refl _

/-! ## Rounds of a loop -/

section

variable {loop : CaptureLoop} {conf : TimerConf} {s : Timers}

/-- The round that sets the milestones calls nothing. -/
theorem CaptureLoop.round_of_initialises (first : loop.initialises now s = true) :
    loop.round conf now s = s.start conf now := by
  have hfirst : s.isFirst now = true := by
    rw [initialises, Bool.and_eq_true] at first
    exact first.2
  have hcheck : (s.start conf now).check .passed conf now = s.start conf now := by
    have hstat : (s.start conf now).stat.check .passed conf.statPeriod.toNat now =
        (s.start conf now).stat := by
      apply Timer.check_of_lt
      simp only [Timers.start, Comparison.delay]
      omega
    have houtput : (s.start conf now).output.check .passed conf.cachePeriod.toNat now =
        (s.start conf now).output := by
      apply Timer.check_of_lt
      simp only [Timers.start, Comparison.delay]
      omega
    rw [Timers.check, hstat, houtput, ite_self]
  cases loop with
  | pcapWorker => exact if_pos hfirst
  | pcapSingle => rw [round, gotAPacket, if_pos hfirst, hcheck]
  | stream => rw [round, gotALine, if_pos hfirst, hcheck]
  | dpdk => cases first

/-- In all other rounds the loops do the same. -/
theorem CaptureLoop.round_of_not_initialises (set : ¬loop.initialises now s = true) :
    loop.round conf now s = s.check loop.comparison conf now := by
  cases loop with
  | pcapWorker => exact if_neg set
  | pcapSingle =>
      have hset : ¬s.isFirst now = true := set
      rw [round, gotAPacket, if_neg hset]
      rfl
  | stream =>
      have hset : ¬s.isFirst now = true := set
      rw [round, gotALine, if_neg hset]
      rfl
  | dpdk => rfl

/-- Both timers are kept, and before the milestones are set nothing has been called. -/
structure TimersKept (loop : CaptureLoop) (conf : TimerConf) (s : Timers) : Prop where
  stat : s.stat.Kept loop.comparison conf.statPeriod.toNat s.now
  output : s.output.Kept loop.comparison conf.cachePeriod.toNat s.now
  unset : loop ≠ .dpdk → s.output.next = 0 → s.stat.fired = [] ∧ s.output.fired = []

theorem timersKept_of_starts (starts : loop.Starts conf s) : TimersKept loop conf s := by
  have hnever : s.stat.fired = [] ∧ s.output.fired = [] := by
    cases loop with
    | dpdk =>
        obtain ⟨now, rfl⟩ := starts
        exact ⟨rfl, rfl⟩
    | pcapWorker | pcapSingle | stream =>
        cases starts
        exact ⟨rfl, rfl⟩
  exact ⟨Timer.kept_of_nil hnever.1, Timer.kept_of_nil hnever.2, fun _ _ => hnever⟩

/-- A round that is not late keeps both timers. -/
theorem TimersKept.round (kept : TimersKept loop conf s) (forward : s.now ≤ now)
    (inTime : NotLate loop conf s now) :
    TimersKept loop conf { loop.round conf now s with now := now } := by
  by_cases hfirst : loop.initialises now s = true
  · rw [CaptureLoop.round_of_initialises hfirst]
    have hunset : loop ≠ .dpdk ∧ s.output.next = 0 := by
      simp [CaptureLoop.initialises, Timers.isFirst] at hfirst
      exact ⟨hfirst.1, hfirst.2.1⟩
    have hnever := kept.unset hunset.1 hunset.2
    exact ⟨Timer.kept_of_nil hnever.1, Timer.kept_of_nil hnever.2, fun _ _ => hnever⟩
  · rw [CaptureLoop.round_of_not_initialises hfirst]
    obtain ⟨hstat, houtput⟩ := inTime.resolve_left hfirst
    refine ⟨kept.stat.check forward hstat, ?_, ?_⟩
    · simp only [Timers.check]
      split_ifs with hsampled
      · exact kept.output.check forward (houtput hsampled)
      · exact ⟨kept.output.periodic,
          fun last hlast => (kept.output.last_le last hlast).trans forward, kept.output.next_ge⟩
    · intro hloop hnext
      have hbefore : s.output.next = 0 := by
        simp only [Timers.check] at hnext
        split_ifs at hnext
        · exact Nat.eq_zero_of_le_zero (hnext ▸ Timer.next_le_check)
        · exact hnext
      -- the clock still shows 0, and nothing is called at that time
      have hclock : now = 0 := by
        by_contra hne
        exact hfirst (by simp [CaptureLoop.initialises, Timers.isFirst, hloop, hbefore, hne])
      have hdelay : loop.comparison.delay = 1 := by
        cases loop with
        | dpdk => exact absurd rfl hloop
        | pcapWorker | pcapSingle | stream => rfl
      have hstill (timer : Timer) (period : Nat) : timer.check loop.comparison period now = timer :=
        Timer.check_of_lt (by omega)
      simp only [Timers.check, hstill, ite_self]
      exact kept.unset hloop hbefore

/-- **In every run in which no round comes late, both timers are called at most once in a
period.** -/
theorem periodic_of_notLate (loop : CaptureLoop) (conf : TimerConf) {s : Timers}
    (reached : (timerMachine loop conf).ReachableWhen (NotLate loop conf) s) :
    s.stat.Periodic conf.statPeriod.toNat ∧ s.output.Periodic conf.cachePeriod.toNat := by
  have hkept : TimersKept loop conf s := by
    refine reached.invariant (TimersKept loop conf) (fun _ => timersKept_of_starts) ?_
    intro state now target kept inTime enabled
    simp only [timerMachine] at enabled
    split_ifs at enabled with hforward
    cases enabled
    exact kept.round hforward inTime
  exact ⟨hkept.stat.periodic, hkept.output.periodic⟩

end

/-- Periods of five seconds, with sampling. -/
def fiveSeconds : TimerConf := ⟨5, 5, true⟩

/-- A single-threaded capture whose clock goes from 100 to 112. -/
def steadyClock : Timers :=
  ((timerMachine .pcapSingle fiveSeconds).restrict (NotLate .pcapSingle fiveSeconds)).after
    [100, 103, 106, 109, 111, 112] .zero

/-- Both timers are called twice in this run. -/
theorem periodic_steadyClock :
    (timerMachine .pcapSingle fiveSeconds).ReachableWhen (NotLate .pcapSingle fiveSeconds)
        steadyClock ∧
      (steadyClock.stat.fired = [106, 111] ∧ steadyClock.output.fired = [106, 111]) ∧
      steadyClock.stat.Periodic 5 ∧ steadyClock.output.Periodic 5 := by
  have hrun : (timerMachine .pcapSingle fiveSeconds).ReachableWhen
      (NotLate .pcapSingle fiveSeconds) steadyClock :=
    Machine.reachableWhen_after rfl (by decide)
  exact ⟨hrun, by decide, periodic_of_notLate .pcapSingle fiveSeconds hrun⟩

/-- The variables of a loop that starts at 100. -/
def CaptureLoop.atHundred : CaptureLoop → Timers
  | dpdk => { Timers.zero.start fiveSeconds 100 with now := 100 }
  | _ => .zero

/-- After a gap of a minute every loop calls the statistics in two rounds of the same
second. -/
theorem not_periodic_after_gap :
    ¬∃ loop, ∀ conf s, (timerMachine loop conf).Reachable s →
      s.stat.Periodic conf.statPeriod.toNat ∧ s.output.Periodic conf.cachePeriod.toNat := by
  rintro ⟨loop, periodic⟩
  have hinit : (timerMachine loop fiveSeconds).init loop.atHundred := by
    cases loop with
    | dpdk => exact ⟨100, rfl⟩
    | pcapWorker | pcapSingle | stream => rfl
  have hreached : (timerMachine loop fiveSeconds).Reachable
      ((timerMachine loop fiveSeconds).after [100, 160, 160] loop.atHundred) :=
    Machine.reachable_after hinit (by cases loop <;> decide)
  have hstat := (periodic fiveSeconds _ hreached).1
  cases loop <;> exact absurd hstat (by decide)

end MmtProbe.Capture
