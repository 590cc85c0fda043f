/-
# What a round-trip time measures

A call of `tcp_rtt_add_packet` that finds a packet computes the time since that packet
was captured.  The packet may have been entered many calls before, and its time may
have been refreshed since then, so the result speaks about the history of the
connection: the number was added, possibly several times, and not removed since.

As long as the clock does not go back, the stored time is that of the latest addition
and the computed time is not negative.  It is returned as an unsigned 64-bit number,
through a `long`.
-/

import MmtProbe.Dpi.TcpRtt
import Mathlib.Data.List.Induction

namespace MmtProbe.Dpi

open MmtProbe.Math

/-! ## The latest addition -/

variable {direction : Bool} {number : UInt32} {latest : Option Timeval}

/-- What an event says about a number of a direction. -/
def RttEvent.tell (direction : Bool) (number : UInt32) (latest : Option Timeval) :
    RttEvent → Option Timeval
  | .added way other time => if way = direction ∧ other = number then some time else latest
  | .removed way other => if way = direction ∧ other = number then none else latest

/-- The most recent time at which a number was added since it was last removed. -/
def latestAdded (direction : Bool) (number : UInt32) (log : List RttEvent) : Option Timeval :=
  log.foldl (RttEvent.tell direction number) none

/-- The removal of other numbers does not matter. -/
theorem foldl_removed {way : Bool} {numbers : List UInt32}
    (other : way = direction → number ∉ numbers) :
    (numbers.map (RttEvent.removed way)).foldl (RttEvent.tell direction number) latest =
      latest := by
  induction numbers with
  | nil => rfl
  | cons first numbers ih =>
      have hfirst : ¬ (way = direction ∧ first = number) := by
        rintro ⟨hway, rfl⟩
        exact other hway (List.mem_cons_self ..)
      rw [List.map_cons, List.foldl_cons, RttEvent.tell, if_neg hfirst]
      apply ih
      intro hway hmem
      exact other hway (List.mem_cons_of_mem first hmem)

/-- A time that is known was added. -/
theorem mem_of_latestAdded {log : List RttEvent} {time : Timeval}
    (known : latestAdded direction number log = some time) :
    .added direction number time ∈ log := by
  induction log using List.reverseRecOn with
  | nil => cases known
  | append_singleton log event ih =>
      unfold latestAdded at known
      rw [List.foldl_concat] at known
      cases event with
      | added way other time' =>
          rw [RttEvent.tell] at known
          split_ifs at known with hsame
          · rcases hsame with ⟨rfl, rfl⟩
            cases known
            simp
          · exact List.mem_append_left _ (ih known)
      | removed way other =>
          rw [RttEvent.tell] at known
          split_ifs at known with hsame
          exact List.mem_append_left _ (ih known)

/-- The events of a call, for a number that is not removed by it. -/
theorem latestAdded_events (call : RttCall) (rtt : TcpRtt) (log : List RttEvent)
    (stays : direction = !call.direction →
      number ∈ ((call.addTo rtt).1.get (!call.direction)).map PktNode.expectedAckNumber) :
    latestAdded direction number (log ++ call.events rtt) =
      if call.direction = direction ∧ call.node.expectedAckNumber = number then
        some call.timestamp
      else latestAdded direction number log := by
  unfold latestAdded RttCall.events
  rw [List.foldl_append, List.foldl_cons, foldl_removed]
  · rfl
  · intro hway hgone
    rcases List.mem_filter.mp hgone with ⟨-, habsent⟩
    exact absurd (stays hway.symm) (by simpa using habsent)

/-! ## Times that do not go back -/

/-- A proper time that is not before that of an earlier packet. -/
def InTime (history : RttHistory) (call : RttCall) : Prop :=
  (0 ≤ call.timestamp.tvUsec ∧ call.timestamp.tvUsec < 1000000) ∧
    ∀ direction number time, .added direction number time ∈ history.log →
      isAfter call.timestamp time = false

/-- Two times of which neither is later are the same. -/
theorem eq_of_not_isAfter {first second : Timeval} (notLater : isAfter first second = false)
    (notEarlier : isAfter second first = false) : first = second :=
  le_antisymm ((isAfter_eq_false_iff _ _).mp notEarlier) ((isAfter_eq_false_iff _ _).mp notLater)

/-- The difference of times in order is not negative. -/
theorem uSecondDiff_nonneg {now time : Timeval} (notLater : isAfter now time = false)
    (proper : 0 ≤ now.tvUsec) (proper' : time.tvUsec < 1000000) : 0 ≤ uSecondDiff now time := by
  simp only [isAfter, Bool.or_eq_false_iff, Bool.and_eq_false_iff, decide_eq_false_iff_not,
    beq_eq_false_iff_ne] at notLater
  unfold uSecondDiff
  omega

/-- The packets of the lists have the times of their latest additions, which are
proper. -/
structure TimesKnown (history : RttHistory) : Prop where
  ordered : history.rtt.Ordered
  known : ∀ direction, ∀ p ∈ history.rtt.get direction,
    latestAdded direction p.expectedAckNumber history.log = some p.timestamp
  proper : ∀ direction number time, .added direction number time ∈ history.log →
    time.tvUsec < 1000000

/-- The list of the own direction after a call. -/
theorem TimesKnown.known_own {history : RttHistory} {call : RttCall} (times : TimesKnown history)
    (inTime : InTime history call) (p : PktNode)
    (inside : p ∈ addPktNode call.node (history.rtt.get call.direction)) :
    (if call.node.expectedAckNumber = p.expectedAckNumber then some call.timestamp
      else latestAdded call.direction p.expectedAckNumber history.log) = some p.timestamp := by
  have hsorted := times.ordered call.direction
  rcases addPktNode_place hsorted call.node with ⟨front, back, hlist, hadd, hlarger, hsmaller⟩ |
    ⟨front, q, back, hlist, hsame, hadd⟩
  · rw [hadd, List.mem_append, List.mem_cons, or_left_comm, ← List.mem_append] at inside
    rcases inside with rfl | hrest
    · rw [if_pos rfl]
      rfl
    · rw [hlist] at hsorted
      have hne := (hsorted.splice hlarger hsmaller).ne_of_mem p hrest
      rw [if_neg fun heq => hne (PktNode.number_eq_iff.mpr heq.symm)]
      exact times.known call.direction p (hlist ▸ hrest)
  · rw [hadd, List.mem_append, List.mem_cons, or_left_comm, ← List.mem_append] at inside
    rw [hlist] at hsorted
    have hnumber : call.node.expectedAckNumber = q.expectedAckNumber :=
      (PktNode.number_eq_iff.mp hsame).symm
    rcases inside with hp | hrest
    · have hexpected : call.node.expectedAckNumber = p.expectedAckNumber := by
        rw [hnumber, hp]
        split_ifs <;> rfl
      rw [if_pos hexpected]
      by_cases hafter : isAfter q.timestamp call.node.timestamp = true
      · rw [hp, if_pos hafter]
        rfl
      · -- the clock has not advanced, so the stored time is that of the call
        have hq := times.known call.direction q (by rw [hlist]; simp)
        have hsince := inTime.2 _ _ _ (mem_of_latestAdded hq)
        rw [hp, if_neg hafter, eq_of_not_isAfter (Bool.eq_false_iff.mpr hafter) hsince]
        rfl
    · have hne := hsorted.ne_of_mem p hrest
      rw [hnumber, if_neg fun heq => hne (PktNode.number_eq_iff.mpr heq.symm)]
      apply times.known call.direction p
      rw [hlist, List.mem_append, List.mem_cons, or_left_comm, ← List.mem_append]
      exact Or.inr hrest

theorem RttCall.other_subset (call : RttCall) (rtt : TcpRtt) :
    (call.addTo rtt).1.get (!call.direction) ⊆ rtt.get (!call.direction) := by
  rcases call.addTo_cases rtt with ⟨-, hsame, -⟩ | ⟨-, front, p, chain, back, hlist, -, -, hcut, -⟩
  · rw [hsame]
    exact List.Subset.refl _
  · rw [hcut, hlist, List.append_assoc]
    exact ((List.sublist_append_right _ back).append_left front).subset

theorem TimesKnown.addTo {history : RttHistory} {call : RttCall} (times : TimesKnown history)
    (inTime : InTime history call) :
    TimesKnown ⟨(call.addTo history.rtt).1, history.log ++ call.events history.rtt⟩ where
  ordered := call.addTo_ordered times.ordered
  known := by
    apply forall_direction (fun any => ∀ p ∈ (call.addTo history.rtt).1.get any,
      latestAdded any p.expectedAckNumber (history.log ++ call.events history.rtt) =
        some p.timestamp) call.direction
    · intro p hp
      rw [call.addTo_own history.rtt] at hp
      have hevents := @latestAdded_events call.direction p.expectedAckNumber call history.rtt
        history.log (by simp)
      rw [hevents, ← times.known_own inTime p hp]
      simp
    · intro p hp
      rw [latestAdded_events call history.rtt history.log fun _ => List.mem_map_of_mem hp,
        if_neg fun hboth => by simp at hboth]
      exact times.known _ p (call.other_subset history.rtt hp)
  proper := by
    intro direction number time hmem
    rcases List.mem_append.mp hmem with hbefore | hnew
    · exact times.proper direction number time hbefore
    · unfold RttCall.events at hnew
      rcases List.mem_cons.mp hnew with heq | hgone
      · cases heq
        exact inTime.1.2
      · simp at hgone

theorem timesKnown_of_reachable {history : RttHistory}
    (reached : rttCalls.ReachableWhen InTime history) : TimesKnown history := by
  apply reached.invariant TimesKnown
  · rintro state rfl
    refine ⟨ordered_empty, ?_, ?_⟩
    · intro direction p hp
      cases direction <;> cases hp
    · intro direction number time hmem
      cases hmem
  · intro state call target htimes hinTime henabled
    rw [← Option.some.inj henabled]
    exact htimes.addTo hinTime

/-- A call that finds a packet measures the time since the number was last added, which
is not negative and is stored as it is when it fits in a `long`. -/
theorem rttCalls_sample {history : RttHistory} (reached : rttCalls.ReachableWhen InTime history)
    (call : RttCall) (inTime : InTime history call) (found : (call.addTo history.rtt).2.1 ≠ 0) :
    ∃ time, latestAdded (!call.direction) call.ackNum history.log = some time ∧
      0 ≤ uSecondDiff call.timestamp time ∧
      (uSecondDiff call.timestamp time < 2 ^ 63 →
        ((call.addTo history.rtt).2.2.toNat : Int) = uSecondDiff call.timestamp time) := by
  have htimes := timesKnown_of_reachable reached
  rcases call.addTo_cases history.rtt with ⟨-, -, hnone⟩ |
    ⟨-, front, p, chain, back, hlist, hchained, -, -, -, husec⟩
  · exact absurd hnone found
  · have hknown := htimes.known (!call.direction) p (by rw [hlist]; simp)
    rw [hchained.1] at hknown
    have hadded := mem_of_latestAdded hknown
    have hnonneg := uSecondDiff_nonneg (inTime.2 _ _ _ hadded) inTime.1.1
      (htimes.proper _ _ _ hadded)
    refine ⟨p.timestamp, hknown, hnonneg, ?_⟩
    intro hfits
    rw [husec, toNat_ofInt hnonneg (by omega)]
    omega

/-- The first packet of a connection, and its answers after one second and after 2^64
microseconds. -/
def sampleStart : RttHistory := rttCalls.after [{ sent with timestamp := .zero }] ⟨⟨[], []⟩, []⟩

def afterSecond : RttCall := { answered with timestamp := ⟨1, 0⟩ }

def afterWrap : RttCall := { answered with timestamp := ⟨18446744073709, 551616⟩ }

theorem inTime_of_proper {call : RttCall} (proper : 0 ≤ call.timestamp.tvUsec)
    (proper' : call.timestamp.tvUsec < 1000000) : InTime ⟨⟨[], []⟩, []⟩ call := by
  refine ⟨⟨proper, proper'⟩, ?_⟩
  intro direction number time hmem
  cases hmem

theorem sampleStart_reached : rttCalls.ReachableWhen InTime sampleStart := by
  have hstart : rttCalls.ReachableWhen InTime ⟨⟨[], []⟩, []⟩ := .start rfl
  exact hstart.follow { sent with timestamp := .zero }
    (inTime_of_proper (by decide) (by decide)) rfl

theorem inTime_sampleStart {call : RttCall} (proper : 0 ≤ call.timestamp.tvUsec)
    (proper' : call.timestamp.tvUsec < 1000000) (later : isAfter call.timestamp .zero = false) :
    InTime sampleStart call := by
  refine ⟨⟨proper, proper'⟩, ?_⟩
  intro direction number time hmem
  have hlog : sampleStart.log = [.added false 1101 .zero] := by decide +kernel
  rw [hlog] at hmem
  cases List.mem_singleton.mp hmem
  exact later

theorem rttCalls_sample_second :
    rttCalls.ReachableWhen InTime sampleStart ∧ InTime sampleStart afterSecond ∧
      (afterSecond.addTo sampleStart.rtt).2 = (1, 1000000) ∧
      ∃ time, latestAdded false 1101 sampleStart.log = some time ∧
        0 ≤ uSecondDiff afterSecond.timestamp time ∧
        (uSecondDiff afterSecond.timestamp time < 2 ^ 63 →
          ((afterSecond.addTo sampleStart.rtt).2.2.toNat : Int) =
            uSecondDiff afterSecond.timestamp time) := by
  have hinTime : InTime sampleStart afterSecond :=
    inTime_sampleStart (by decide) (by decide) (by decide)
  refine ⟨sampleStart_reached, hinTime, by decide +kernel, ?_⟩
  exact rttCalls_sample sampleStart_reached afterSecond hinTime (by decide +kernel)

/-- An answer after 2^64 microseconds is measured as one after no time. -/
theorem rttCalls_sample_wraps :
    rttCalls.ReachableWhen InTime sampleStart ∧ InTime sampleStart afterWrap ∧
      (afterWrap.addTo sampleStart.rtt).2 = (1, 0) ∧
      latestAdded false 1101 sampleStart.log = some .zero ∧
      ((afterWrap.addTo sampleStart.rtt).2.2.toNat : Int) ≠
        uSecondDiff afterWrap.timestamp .zero := by
  refine ⟨sampleStart_reached, inTime_sampleStart (by decide) (by decide) (by decide), ?_⟩
  decide +kernel

end MmtProbe.Dpi
