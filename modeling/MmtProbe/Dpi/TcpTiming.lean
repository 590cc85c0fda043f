/-
# The times of a TCP session

With `QOS_MODULE` a report has three times.  `handshake_time` is printed in the first
report after the connection was established, `app_response_time` in the first one after
a packet that is later than that moment, and `data_transfer_time` says how long the
session went on since the last report.

`latest_tcp_data_pkt_ts` serves two purposes.  The callback on packets stores the first
packet after the establishment in it; a report moves it to the last activity.  A call of
the report that prints nothing moves it no further, so the times of the reports that are
printed add up to the time between that first packet and the last activity of the last
report.
-/

import MmtProbe.Dpi.SessionTelescope
import MmtProbe.Dpi.TcpRttSample
import MmtProbe.Math.Trace
import Mathlib.Data.Int.ModEq

namespace MmtProbe.Dpi

open MmtProbe.Configure MmtProbe.Math

/-! ## The packets and the reports of a session -/

/-- The times that a report prints. -/
def SessionReport.times (report : SessionReport) : QosTimes :=
  (report.qos.map (·.times)).getD ⟨0, 0, 0⟩

/-- The times of a report, the last activity by which they were computed, and the packets
that the session had received by then. -/
structure TimedReport where
  times : QosTimes
  lastActivityTime : Timeval
  packets : List PacketInfo
deriving DecidableEq, Repr

/-- The packets of a session and its reports, the oldest ones first. -/
structure TcpHistory where
  packets : List PacketInfo
  reports : List TimedReport
deriving DecidableEq, Repr

/-- A step adds its packet, and the reports that it emits. -/
def TcpHistory.record (s : SessionState) (act : SessionAct) (target : SessionState)
    (history : TcpHistory) : TcpHistory where
  packets :=
    match act with
    | .packet _ info => history.packets ++ [info]
    | _ => history.packets
  reports := history.reports ++ (target.reports.drop s.reports.length).map fun emitted =>
    ⟨emitted.report.times, s.dpi.lastActivityTime, history.packets⟩

/-- The callbacks on one session beside its packets and reports. -/
def timedMachine (env : Env) : Machine (SessionState × TcpHistory) SessionAct :=
  (sessionMachine env).observe ⟨[], []⟩ TcpHistory.record

/-- The times of the packets are not zero and do not go back, and the last activity is
the time of the last packet. -/
def InOrder (state : SessionState × TcpHistory) : SessionAct → Prop
  | .packet next info => isZeroTimestamp info.ts = false ∧
      (∀ p ∈ state.2.packets, isAfter info.ts p.ts = false) ∧ next.lastActivityTime = info.ts
  | _ => True

instance (state : SessionState × TcpHistory) (act : SessionAct) :
    Decidable (InOrder state act) :=
  match act with
  | .packet _ _ => inferInstanceAs (Decidable (_ ∧ (∀ p ∈ state.2.packets, _) ∧ _))
  | .start _ | .web _ _ | .webMethod _ _ | .ssl _ | .rtp _ | .gtp _ _ _ | .tick | .finish =>
      inferInstanceAs (Decidable True)

/-! ## The two moments -/

/-- TCP is found behind the protocol of the session, as in every packet of a TCP
session. -/
def PacketInfo.carriesTcp (info : PacketInfo) : Bool :=
  (getProtocolIndexAfterSession .tcp info).isSome

/-- When the connection was established. -/
def establishedAt (packets : List PacketInfo) : Option Timeval :=
  (packets.find? fun p => p.carriesTcp && p.tcp.connEstablished).map (·.ts)

/-- When the first packet came that is later than the establishment. -/
def firstDataAt (packets : List PacketInfo) : Option Timeval :=
  (establishedAt packets).bind fun established =>
    (packets.find? fun p => p.carriesTcp && isAfter established p.ts).map (·.ts)

/-- The time from the first packet after the establishment to the last activity of the
last report, zero before that packet. -/
def TcpHistory.transferTime (history : TcpHistory) : Int :=
  match firstDataAt history.packets, history.reports.getLast? with
  | some first, some last =>
      if isAfter first last.lastActivityTime then uSecondDiff last.lastActivityTime first else 0
  | _, _ => 0

/-- The sum of the times of transfer that were printed. -/
def TcpHistory.printedTransfer (history : TcpHistory) : Nat :=
  (history.reports.map fun r => r.times.dataTransferTime.toNat).sum

/-- The times of the packets are proper ones. -/
def TcpHistory.Proper (history : TcpHistory) : Prop :=
  ∀ p ∈ history.packets, 0 ≤ p.ts.tvUsec ∧ p.ts.tvUsec < 1000000

instance (history : TcpHistory) : Decidable history.Proper :=
  inferInstanceAs (Decidable (∀ p ∈ history.packets, _))

/-- A report that is printed after the first packet behind the establishment. -/
def TimedReport.knowsData (report : TimedReport) : Bool := (firstDataAt report.packets).isSome

/-- The answer is printed by the first report that knows it, and by no other one. -/
def PrintsResponse (before : List TimedReport) (report : TimedReport) : Prop :=
  report.times.appResponseTime =
    match establishedAt report.packets, firstDataAt report.packets with
    | some established, some first =>
        if before.any (·.knowsData) then 0 else UInt64.ofInt (uSecondDiff first established)
    | _, _ => 0

/-- What the times of the reports of a session say. -/
structure TcpTiming (history : TcpHistory) : Prop where
  handshake_once : history.reports.countP (fun r => r.times.handshakeTime != 0) ≤ 1
  response_once : history.reports.countP (fun r => r.times.appResponseTime != 0) ≤ 1
  /-- It is the time from the establishment to the first packet after it. -/
  response_eq : ∀ r ∈ history.reports, r.times.appResponseTime ≠ 0 →
    ∃ established first, establishedAt history.packets = some established ∧
      firstDataAt history.packets = some first ∧
      r.times.appResponseTime = UInt64.ofInt (uSecondDiff first established)
  response_first : Past PrintsResponse history.reports
  /-- The times of transfer add up, in 64 bits .. -/
  transfer : (history.printedTransfer : Int) ≡ history.transferTime [ZMOD 2 ^ 64]
  /-- .. and exactly, as long as the sum fits in them. -/
  transfer_exact : history.Proper → history.transferTime < 2 ^ 64 →
    (history.printedTransfer : Int) = history.transferTime

/-! ## One more packet -/

variable {packets : List PacketInfo} {info : PacketInfo}

theorem establishedAt_concat (packets : List PacketInfo) (info : PacketInfo) :
    establishedAt (packets ++ [info]) = (establishedAt packets).or
      (if info.carriesTcp && info.tcp.connEstablished then some info.ts else none) := by
  unfold establishedAt
  rw [List.find?_append, Option.map_or, List.find?_singleton]
  split_ifs <;> rfl

/-- Nothing is later than the establishment when it is seen. -/
theorem firstDataAt_concat (latest : ∀ p ∈ packets, isAfter info.ts p.ts = false) :
    firstDataAt (packets ++ [info]) = (establishedAt packets).bind fun established =>
      (firstDataAt packets).or
        (if info.carriesTcp && isAfter established info.ts then some info.ts else none) := by
  unfold firstDataAt
  rw [establishedAt_concat]
  cases hestablished : establishedAt packets with
  | some established =>
      simp only [Option.some_or, Option.bind_some]
      rw [List.find?_append, Option.map_or, List.find?_singleton]
      split_ifs <;> rfl
  | none =>
      split_ifs with hnow
      · rw [Option.none_or, Option.bind_some, Option.bind_none, Option.map_eq_none_iff,
          List.find?_eq_none]
        intro p hp
        have hlatest : isAfter info.ts p.ts = false := by
          rcases List.mem_append.mp hp with hp | hp
          · exact latest p hp
          · rw [List.mem_singleton.mp hp]
            exact (isAfter_eq_false_iff _ _).mpr le_rfl
        simp [hlatest]
      · rfl

/-- The two moments of some packets are those of all. -/
theorem establishedAt_of_prefix {earlier : List PacketInfo} (prefixed : earlier <+: packets)
    {established : Timeval} (found : establishedAt earlier = some established) :
    establishedAt packets = some established := by
  rcases prefixed with ⟨rest, rfl⟩
  unfold establishedAt at found ⊢
  rw [List.find?_append, Option.map_or, found, Option.some_or]

theorem firstDataAt_of_earlier {earlier : List PacketInfo} (prefixed : earlier <+: packets)
    {first : Timeval} (found : firstDataAt earlier = some first) :
    firstDataAt packets = some first := by
  rcases Option.bind_eq_some_iff.mp found with ⟨established, hestablished, hfirst⟩
  rw [firstDataAt, establishedAt_of_prefix prefixed hestablished, Option.bind_some]
  rcases prefixed with ⟨rest, rfl⟩
  rw [List.find?_append, Option.map_or, hfirst, Option.some_or]

theorem ts_of_establishedAt {established : Timeval}
    (found : establishedAt packets = some established) : ∃ p ∈ packets, p.ts = established := by
  rcases Option.map_eq_some_iff.mp found with ⟨p, hp, hts⟩
  exact ⟨p, List.mem_of_find?_eq_some hp, hts⟩

theorem ts_of_firstDataAt {first : Timeval} (found : firstDataAt packets = some first) :
    ∃ p ∈ packets, p.ts = first := by
  rcases Option.bind_eq_some_iff.mp found with ⟨established, _, hfirst⟩
  rcases Option.map_eq_some_iff.mp hfirst with ⟨p, hp, hts⟩
  exact ⟨p, List.mem_of_find?_eq_some hp, hts⟩

/-! ## What the statistics know of the history -/

/-- The moment up to which the transfer was reported. -/
def reportedUntil (first : Timeval) (reports : List TimedReport) : Timeval :=
  match reports.getLast? with
  | some last => max first last.lastActivityTime
  | none => first

/-- The response times of a session hold its two moments and what was printed. -/
structure Tracks (history : TcpHistory) (qos : QosStat) : Prop where
  established : qos.tcpEstablishedTs = (establishedAt history.packets).getD .zero
  latest : qos.latestTcpDataPktTs = ((firstDataAt history.packets).map
    fun first => reportedUntil first history.reports).getD .zero
  handshake : qos.isPrintedHandshakeTime =
    history.reports.any fun r => (establishedAt r.packets).isSome
  response : qos.isPrintedAppResponseTime = history.reports.any (·.knowsData)

/-- What is known of a history: the times are not zero, and every report has the time of
a packet as its last activity. -/
structure TcpHistory.Sound (history : TcpHistory) : Prop where
  nonzero : ∀ p ∈ history.packets, isZeroTimestamp p.ts = false
  reported : ∀ r ∈ history.reports, ∃ p ∈ history.packets, p.ts = r.lastActivityTime
  prefixed : ∀ r ∈ history.reports, r.packets <+: history.packets
  /-- A report before the first packet behind the establishment is not later than that. -/
  early : ∀ r ∈ history.reports, firstDataAt r.packets = none →
    ∀ first ∈ firstDataAt history.packets, r.lastActivityTime ≤ first

theorem max_eq_ite (first last : Timeval) :
    max first last = if isAfter first last then last else first := by
  split_ifs with hafter
  · exact max_eq_right ((isAfter_eq_true_iff _ _).mp hafter).le
  · exact max_eq_left ((isAfter_eq_false_iff _ _).mp (Bool.eq_false_iff.mpr hafter))

theorem uSecondDiff_self (ts : Timeval) : uSecondDiff ts ts = 0 := by
  unfold uSecondDiff
  omega

theorem uSecondDiff_add (last middle first : Timeval) :
    uSecondDiff last middle + uSecondDiff middle first = uSecondDiff last first := by
  unfold uSecondDiff
  omega

/-- The time of transfer, by the moment up to which it was reported. -/
theorem TcpHistory.transferTime_eq (history : TcpHistory) :
    history.transferTime = ((firstDataAt history.packets).map fun first =>
      uSecondDiff (reportedUntil first history.reports) first).getD 0 := by
  unfold transferTime reportedUntil
  cases firstDataAt history.packets with
  | none => rfl
  | some first =>
      cases history.reports.getLast? with
      | none => exact (uSecondDiff_self first).symm
      | some last =>
          simp only [Option.map_some, Option.getD_some, max_eq_ite]
          split_ifs
          · rfl
          · exact (uSecondDiff_self first).symm

/-! ## A packet -/

variable {history : TcpHistory} {qos : QosStat} {first established : Timeval}

/-- The history with one more packet. -/
def TcpHistory.received (history : TcpHistory) (info : PacketInfo) : TcpHistory :=
  { history with packets := history.packets ++ [info] }

/-- The moment up to which the transfer was reported is that of a packet. -/
theorem TcpHistory.Sound.ts_of_reportedUntil (sound : history.Sound)
    (found : firstDataAt history.packets = some first) :
    ∃ p ∈ history.packets, p.ts = reportedUntil first history.reports := by
  unfold reportedUntil
  cases hlast : history.reports.getLast? with
  | none => exact ts_of_firstDataAt found
  | some last =>
      dsimp only
      rw [max_eq_ite]
      split_ifs
      · exact sound.reported last (List.mem_of_getLast? hlast)
      · exact ts_of_firstDataAt found

theorem TcpHistory.Sound.isZero_established (sound : history.Sound)
    (found : establishedAt history.packets = some established) :
    isZeroTimestamp established = false := by
  rcases ts_of_establishedAt found with ⟨p, hp, rfl⟩
  exact sound.nonzero p hp

theorem TcpHistory.Sound.isZero_reportedUntil (sound : history.Sound)
    (found : firstDataAt history.packets = some first) :
    isZeroTimestamp (reportedUntil first history.reports) = false := by
  rcases sound.ts_of_reportedUntil found with ⟨p, hp, hts⟩
  rw [← hts]
  exact sound.nonzero p hp

/-- Nothing was reported behind a packet that has just come. -/
theorem TcpHistory.Sound.reportedUntil_new (sound : history.Sound)
    (latest : ∀ p ∈ history.packets, isAfter info.ts p.ts = false) :
    reportedUntil info.ts history.reports = info.ts := by
  unfold reportedUntil
  cases hlast : history.reports.getLast? with
  | none => rfl
  | some last =>
      rcases sound.reported last (List.mem_of_getLast? hlast) with ⟨p, hp, hts⟩
      exact max_eq_left (hts ▸ (isAfter_eq_false_iff _ _).mp (latest p hp))

theorem TcpHistory.Sound.received (sound : history.Sound)
    (nonzero : isZeroTimestamp info.ts = false)
    (latest : ∀ p ∈ history.packets, isAfter info.ts p.ts = false) :
    (history.received info).Sound where
  nonzero := by
    intro p hp
    rcases List.mem_append.mp hp with hp | hp
    · exact sound.nonzero p hp
    · rw [List.mem_singleton.mp hp]
      exact nonzero
  reported := by
    intro r hr
    rcases sound.reported r hr with ⟨p, hp, hts⟩
    exact ⟨p, List.mem_append_left _ hp, hts⟩
  prefixed := fun r hr => (sound.prefixed r hr).trans (List.prefix_append _ _)
  early := by
    intro r hr hnone first hfirst
    cases hbefore : firstDataAt history.packets with
    | some known =>
        have hknown := firstDataAt_of_earlier (List.prefix_append history.packets [info]) hbefore
        rw [TcpHistory.received, hknown] at hfirst
        cases hfirst
        exact sound.early r hr hnone first hbefore
    | none =>
        -- the packet that has just come is the first one
        have hnew : first = info.ts := by
          rw [TcpHistory.received, firstDataAt_concat latest, hbefore, Option.mem_def] at hfirst
          rcases Option.bind_eq_some_iff.mp hfirst with ⟨established, _, hfirst⟩
          rw [Option.none_or] at hfirst
          split_ifs at hfirst
          exact (Option.some.inj hfirst).symm
        rcases sound.reported r hr with ⟨p, hp, hts⟩
        rw [hnew, ← hts]
        exact (isAfter_eq_false_iff _ _).mp (latest p hp)

/-- A packet without TCP changes no moment. -/
theorem Tracks.received_other (tracks : Tracks history qos) (other : info.carriesTcp = false)
    (latest : ∀ p ∈ history.packets, isAfter info.ts p.ts = false) :
    Tracks (history.received info) qos := by
  have hestablished : establishedAt (history.packets ++ [info]) =
      establishedAt history.packets := by
    rw [establishedAt_concat, other, Bool.false_and, if_neg Bool.false_ne_true, Option.or_none]
  have hfirst : firstDataAt (history.packets ++ [info]) = firstDataAt history.packets := by
    rw [firstDataAt_concat latest]
    simp only [other, Bool.false_and, if_neg Bool.false_ne_true, Option.or_none]
    unfold firstDataAt
    cases establishedAt history.packets <;> rfl
  exact ⟨by rw [tracks.established, TcpHistory.received, hestablished],
    by rw [tracks.latest, TcpHistory.received, hfirst], tracks.handshake, tracks.response⟩

/-- A packet of TCP may be one of the two moments. -/
theorem Tracks.received_tcp (tracks : Tracks history qos) (sound : history.Sound)
    (tcp : info.carriesTcp = true)
    (latest : ∀ p ∈ history.packets, isAfter info.ts p.ts = false) :
    Tracks (history.received info) (qos.moments info) := by
  have hconcat := establishedAt_concat history.packets info
  have hdata := firstDataAt_concat latest
  rw [tcp, Bool.true_and] at hconcat
  simp only [tcp, Bool.true_and] at hdata
  unfold QosStat.moments
  cases hestablished : establishedAt history.packets with
  | none =>
      have hnone : firstDataAt history.packets = none := by
        rw [firstDataAt, hestablished, Option.bind_none]
      have hzero : isZeroTimestamp qos.tcpEstablishedTs = true := by
        rw [tracks.established, hestablished]
        rfl
      have hlatest : qos.latestTcpDataPktTs = .zero := by
        rw [tracks.latest, hnone]
        rfl
      rw [hestablished, Option.none_or] at hconcat
      rw [hestablished, Option.bind_none] at hdata
      rw [if_pos hzero]
      split_ifs at hconcat ⊢
      · exact ⟨by simp [TcpHistory.received, hconcat],
          by simp [TcpHistory.received, hdata, hlatest], tracks.handshake, tracks.response⟩
      · exact ⟨by simp [TcpHistory.received, hconcat, tracks.established, hestablished],
          by simp [TcpHistory.received, hdata, hlatest], tracks.handshake, tracks.response⟩
  | some established =>
      have hts : qos.tcpEstablishedTs = established := by
        rw [tracks.established, hestablished]
        rfl
      have hnonzero : ¬ isZeroTimestamp qos.tcpEstablishedTs = true := by
        rw [hts, sound.isZero_established hestablished]
        exact Bool.false_ne_true
      have hkeeps : qos.tcpEstablishedTs =
          (establishedAt (history.received info).packets).getD .zero := by
        simp [TcpHistory.received, hconcat, hestablished, hts]
      rw [hestablished, Option.bind_some, ← hts] at hdata
      rw [if_neg hnonzero]
      cases hfirst : firstDataAt history.packets with
      | none =>
          have hlatest : qos.latestTcpDataPktTs = .zero := by
            rw [tracks.latest, hfirst]
            rfl
          have hzero : isZeroTimestamp qos.latestTcpDataPktTs = true := by
            rw [hlatest]
            rfl
          rw [hfirst, Option.none_or] at hdata
          rw [if_pos hzero]
          split_ifs at hdata ⊢
          · exact ⟨hkeeps, by simp [TcpHistory.received, hdata, sound.reportedUntil_new latest],
              tracks.handshake, tracks.response⟩
          · exact ⟨hkeeps, by simp [TcpHistory.received, hdata, hlatest],
              tracks.handshake, tracks.response⟩
      | some first =>
          have hlatest : qos.latestTcpDataPktTs = reportedUntil first history.reports := by
            rw [tracks.latest, hfirst]
            rfl
          have hset : ¬ isZeroTimestamp qos.latestTcpDataPktTs = true := by
            rw [hlatest, sound.isZero_reportedUntil hfirst]
            exact Bool.false_ne_true
          rw [hfirst, Option.some_or] at hdata
          rw [if_neg hset]
          exact ⟨hkeeps, by simp [TcpHistory.received, hdata, hlatest],
            tracks.handshake, tracks.response⟩

/-- The round-trip times and the retransmissions do not touch the moments. -/
theorem QosStat.addRtt_moments (qos : QosStat) (base : RttBase) (info : PacketInfo) :
    ∃ rtt tcpRtt, qos.addRtt base info = { qos with rtt := rtt, tcpRtt := tcpRtt } := by
  unfold QosStat.addRtt
  dsimp only
  split_ifs
  · exact ⟨_, _, rfl⟩
  · exact ⟨_, _, rfl⟩
  · exact ⟨qos.rtt, qos.tcpRtt, rfl⟩

theorem Tracks.congr {other : QosStat} (tracks : Tracks history qos)
    (same : (other.tcpEstablishedTs, other.latestTcpDataPktTs, other.isPrintedHandshakeTime,
      other.isPrintedAppResponseTime) = (qos.tcpEstablishedTs, qos.latestTcpDataPktTs,
      qos.isPrintedHandshakeTime, qos.isPrintedAppResponseTime)) : Tracks history other := by
  simp only [Prod.mk.injEq] at same
  rcases same with ⟨hestablished, hlatest, hhandshake, hresponse⟩
  exact ⟨hestablished.trans tracks.established, hlatest.trans tracks.latest,
    hhandshake.trans tracks.handshake, hresponse.trans tracks.response⟩

/-- The callback behind a TCP header. -/
theorem Tracks.receive (tracks : Tracks history qos) (sound : history.Sound)
    (tcp : info.carriesTcp = true)
    (latest : ∀ p ∈ history.packets, isAfter info.ts p.ts = false) (base : RttBase) :
    Tracks (history.received info) (qos.receive base info) := by
  unfold QosStat.receive
  dsimp only
  generalize qos.retransmission.get info.direction + _ = count
  rcases QosStat.addRtt_moments
    { qos with retransmission := qos.retransmission.set info.direction count } base info
    with ⟨rtt, tcpRtt, hrtt⟩
  rw [hrtt]
  apply Tracks.received_tcp _ sound tcp latest
  exact tracks.congr rfl

/-! ## A report -/

variable {dpi : DpiSession}

/-- The history with one more report. -/
def TcpHistory.reported (history : TcpHistory) (times : QosTimes) (dpi : DpiSession) :
    TcpHistory :=
  { history with
    reports := history.reports ++ [⟨times, dpi.lastActivityTime, history.packets⟩] }

/-- The last activity is the time of the last packet. -/
structure LastActive (history : TcpHistory) (dpi : DpiSession) : Prop where
  active : ∃ p ∈ history.packets, p.ts = dpi.lastActivityTime
  latest : ∀ p ∈ history.packets, p.ts ≤ dpi.lastActivityTime

/-- The time of the handshake is printed only by the first report that knows it. -/
def PrintsHandshake (before : List TimedReport) (report : TimedReport) : Prop :=
  (report.times.handshakeTime != 0) = true → (establishedAt report.packets).isSome = true ∧
    ∀ earlier ∈ before, (establishedAt earlier.packets).isSome = false

theorem LastActive.reportedUntil_le (active : LastActive history dpi) (sound : history.Sound)
    (found : firstDataAt history.packets = some first) :
    reportedUntil first history.reports ≤ dpi.lastActivityTime := by
  rcases sound.ts_of_reportedUntil found with ⟨p, hp, hts⟩
  rw [← hts]
  exact active.latest p hp

/-- After a report everything up to the last activity was reported. -/
theorem LastActive.reportedUntil_reported (active : LastActive history dpi)
    (found : firstDataAt history.packets = some first) (times : QosTimes) :
    reportedUntil first (history.reported times dpi).reports = dpi.lastActivityTime := by
  have hlast : (history.reported times dpi).reports.getLast? =
      some ⟨times, dpi.lastActivityTime, history.packets⟩ := List.getLast?_concat ..
  rcases ts_of_firstDataAt found with ⟨p, hp, hts⟩
  unfold reportedUntil
  rw [hlast]
  exact max_eq_right (hts ▸ active.latest p hp)

/-- Before a report knows the first packet behind the establishment, nothing behind it was
reported. -/
theorem Tracks.reportedUntil_eq (tracks : Tracks history qos) (sound : history.Sound)
    (found : firstDataAt history.packets = some first)
    (unprinted : qos.isPrintedAppResponseTime = false) :
    reportedUntil first history.reports = first := by
  unfold reportedUntil
  cases hlast : history.reports.getLast? with
  | none => rfl
  | some last =>
      have hmem := List.mem_of_getLast? hlast
      rw [tracks.response, List.any_eq_false] at unprinted
      have hnone : firstDataAt last.packets = none := by
        simpa [TimedReport.knowsData] using unprinted last hmem
      exact max_eq_left (sound.early last hmem hnone first found)

/-- A report in the three cases: nothing is known, the establishment is known, and a packet
behind it is known too. -/
theorem Tracks.print_eq (tracks : Tracks history qos) (sound : history.Sound)
    (active : LastActive history dpi) :
    qos.print dpi =
      match establishedAt history.packets, firstDataAt history.packets with
      | some established, some first =>
          (⟨if qos.isPrintedHandshakeTime then 0 else uSecond dpi.rtt,
            if qos.isPrintedAppResponseTime then 0
              else UInt64.ofInt (uSecondDiff first established),
            UInt64.ofInt (uSecondDiff dpi.lastActivityTime
              (reportedUntil first history.reports))⟩,
            { qos with
              isPrintedHandshakeTime := true
              isPrintedAppResponseTime := true
              latestTcpDataPktTs := dpi.lastActivityTime })
      | some _, none =>
          (⟨if qos.isPrintedHandshakeTime then 0 else uSecond dpi.rtt, 0, 0⟩,
            { qos with isPrintedHandshakeTime := true })
      | none, _ => (⟨0, 0, 0⟩, qos) := by
  unfold QosStat.print
  cases hestablished : establishedAt history.packets with
  | none =>
      have hzero : isZeroTimestamp qos.tcpEstablishedTs = true := by
        rw [tracks.established, hestablished]
        rfl
      rw [if_pos hzero]
  | some established =>
      have hts : qos.tcpEstablishedTs = established := by
        rw [tracks.established, hestablished]
        rfl
      rw [hts, if_neg (by rw [sound.isZero_established hestablished]; exact Bool.false_ne_true)]
      cases hfirst : firstDataAt history.packets with
      | none =>
          have hzero : isZeroTimestamp qos.latestTcpDataPktTs = true := by
            rw [tracks.latest, hfirst]
            rfl
          dsimp only
          rw [if_pos hzero]
      | some first =>
          have hlatest : qos.latestTcpDataPktTs = reportedUntil first history.reports := by
            rw [tracks.latest, hfirst]
            rfl
          have hle := active.reportedUntil_le sound hfirst
          have hresponse : (if qos.isPrintedAppResponseTime = true then 0
              else UInt64.ofInt (uSecondDiff (reportedUntil first history.reports) established)) =
              if qos.isPrintedAppResponseTime = true then 0
                else UInt64.ofInt (uSecondDiff first established) := by
            split_ifs with hprinted
            · rfl
            · rw [tracks.reportedUntil_eq sound hfirst (Bool.eq_false_iff.mpr hprinted)]
          dsimp only
          rw [hlatest, if_neg (by rw [sound.isZero_reportedUntil hfirst]; exact Bool.false_ne_true),
            hresponse]
          by_cases hafter : isAfter (reportedUntil first history.reports) dpi.lastActivityTime
          · rw [if_pos hafter]
          · -- the last activity was reported before
            have heq : reportedUntil first history.reports = dpi.lastActivityTime :=
              le_antisymm hle ((isAfter_eq_false_iff _ _).mp (Bool.eq_false_iff.mpr hafter))
            rw [if_neg hafter, heq, uSecondDiff_self]
            rfl

theorem TcpHistory.Sound.report (sound : history.Sound) (active : LastActive history dpi)
    (times : QosTimes) : (history.reported times dpi).Sound where
  nonzero := sound.nonzero
  reported := by
    intro r hr
    rcases List.mem_append.mp hr with hr | hr
    · exact sound.reported r hr
    · rw [List.mem_singleton.mp hr]
      exact active.active
  prefixed := by
    intro r hr
    rcases List.mem_append.mp hr with hr | hr
    · exact sound.prefixed r hr
    · rw [List.mem_singleton.mp hr]
      exact List.prefix_rfl
  early := by
    intro r hr hnone first hfirst
    rcases List.mem_append.mp hr with hr | hr
    · exact sound.early r hr hnone first hfirst
    · rw [List.mem_singleton.mp hr] at hnone
      rw [TcpHistory.reported, hnone] at hfirst
      cases hfirst

/-- The statistics know what a report has printed. -/
theorem Tracks.reported (tracks : Tracks history qos) (sound : history.Sound)
    (active : LastActive history dpi) :
    Tracks (history.reported (qos.print dpi).1 dpi) (qos.print dpi).2 := by
  have huntil : ∀ first times, firstDataAt history.packets = some first →
      reportedUntil first (history.reported times dpi).reports = dpi.lastActivityTime :=
    fun first times found => active.reportedUntil_reported found times
  rw [tracks.print_eq sound active]
  cases hestablished : establishedAt history.packets with
  | none =>
      have hfirst : firstDataAt history.packets = none := by
        rw [firstDataAt, hestablished, Option.bind_none]
      refine ⟨tracks.established, ?_, ?_, ?_⟩
      · rw [tracks.latest, TcpHistory.reported, hfirst]
        rfl
      · simp [TcpHistory.reported, tracks.handshake, hestablished]
      · simp [TcpHistory.reported, tracks.response, TimedReport.knowsData, hfirst]
  | some established =>
      cases hfirst : firstDataAt history.packets with
      | none =>
          refine ⟨tracks.established, ?_, ?_, ?_⟩
          · dsimp only
            rw [tracks.latest, TcpHistory.reported, hfirst]
            rfl
          · simp [TcpHistory.reported, hestablished]
          · simp [TcpHistory.reported, tracks.response, TimedReport.knowsData, hfirst]
      | some first =>
          refine ⟨tracks.established, ?_, ?_, ?_⟩
          · dsimp only
            rw [TcpHistory.reported, hfirst]
            exact (huntil first _ hfirst).symm
          · simp [TcpHistory.reported, hestablished]
          · simp [TcpHistory.reported, TimedReport.knowsData, hfirst]

/-- The first two times of a report are printed once. -/
theorem Tracks.printsHandshake (tracks : Tracks history qos) (sound : history.Sound)
    (active : LastActive history dpi) :
    PrintsHandshake history.reports
      ⟨(qos.print dpi).1, dpi.lastActivityTime, history.packets⟩ := by
  intro hprints
  have hbefore : qos.isPrintedHandshakeTime = false →
      ∀ earlier ∈ history.reports, (establishedAt earlier.packets).isSome = false := by
    intro hflag earlier hearlier
    rw [tracks.handshake, List.any_eq_false] at hflag
    simpa using hflag earlier hearlier
  have hflag : ∀ time : UInt64,
      ((if qos.isPrintedHandshakeTime = true then 0 else time) != 0) = true →
        qos.isPrintedHandshakeTime = false := by
    intro time hne
    split_ifs at hne with hflag
    · cases hne
    · exact Bool.eq_false_iff.mpr hflag
  rw [tracks.print_eq sound active] at hprints
  dsimp only at hprints ⊢
  cases hestablished : establishedAt history.packets with
  | none =>
      rw [hestablished] at hprints
      cases hprints
  | some established =>
      refine ⟨rfl, hbefore ?_⟩
      rw [hestablished] at hprints
      cases hfirst : firstDataAt history.packets with
      | none =>
          rw [hfirst] at hprints
          exact hflag _ hprints
      | some first =>
          rw [hfirst] at hprints
          exact hflag _ hprints

theorem Tracks.printsResponse (tracks : Tracks history qos) (sound : history.Sound)
    (active : LastActive history dpi) :
    PrintsResponse history.reports
      ⟨(qos.print dpi).1, dpi.lastActivityTime, history.packets⟩ := by
  unfold PrintsResponse
  rw [tracks.print_eq sound active, ← tracks.response]
  cases hestablished : establishedAt history.packets with
  | none => rfl
  | some established =>
      cases hfirst : firstDataAt history.packets with
      | none => rfl
      | some first => rfl

/-- The third time is the growth of the time of transfer. -/
theorem Tracks.printsTransfer (tracks : Tracks history qos) (sound : history.Sound)
    (active : LastActive history dpi) :
    (qos.print dpi).1.dataTransferTime = UInt64.ofInt
      ((history.reported (qos.print dpi).1 dpi).transferTime - history.transferTime) := by
  rw [TcpHistory.transferTime_eq, TcpHistory.transferTime_eq]
  have huntil : ∀ first times, firstDataAt history.packets = some first →
      reportedUntil first (history.reported times dpi).reports = dpi.lastActivityTime :=
    fun first times found => active.reportedUntil_reported found times
  generalize htimes : (qos.print dpi).1 = times
  rw [tracks.print_eq sound active] at htimes
  cases hfirst : firstDataAt history.packets with
  | none =>
      have hnone : times.dataTransferTime = 0 := by
        rw [← htimes, hfirst]
        cases establishedAt history.packets <;> rfl
      rw [hnone, TcpHistory.reported, hfirst]
      rfl
  | some first =>
      rcases Option.bind_eq_some_iff.mp hfirst with ⟨established, hestablished, _⟩
      have htransfer : times.dataTransferTime = UInt64.ofInt
          (uSecondDiff dpi.lastActivityTime (reportedUntil first history.reports)) := by
        rw [← htimes, hestablished, hfirst]
      have hpackets : (history.reported times dpi).packets = history.packets := rfl
      rw [htransfer, hpackets, hfirst]
      simp only [Option.map_some, Option.getD_some]
      rw [huntil first times hfirst, ← uSecondDiff_add dpi.lastActivityTime
        (reportedUntil first history.reports) first, Int.add_sub_cancel]

/-! ## The reports of a history -/

/-- What is kept of the reports of a history. -/
structure TimesOk (history : TcpHistory) : Prop where
  handshake : Past PrintsHandshake history.reports
  response : Past PrintsResponse history.reports
  transfer : (history.printedTransfer : Int) ≡ history.transferTime [ZMOD 2 ^ 64]
  transfer_exact : history.Proper → history.transferTime < 2 ^ 64 →
    (history.printedTransfer : Int) = history.transferTime

/-- A time of the answer that is not zero. -/
theorem PrintsResponse.of_ne_zero {before : List TimedReport} {report : TimedReport}
    (prints : PrintsResponse before report) (present : report.times.appResponseTime ≠ 0) :
    ∃ established first, establishedAt report.packets = some established ∧
      firstDataAt report.packets = some first ∧ before.any (·.knowsData) = false ∧
      report.times.appResponseTime = UInt64.ofInt (uSecondDiff first established) := by
  unfold PrintsResponse at prints
  cases hestablished : establishedAt report.packets with
  | none =>
      rw [hestablished] at prints
      exact absurd prints present
  | some established =>
      cases hfirst : firstDataAt report.packets with
      | none =>
          rw [hestablished, hfirst] at prints
          exact absurd prints present
      | some first =>
          rw [hestablished, hfirst] at prints
          dsimp only at prints
          split_ifs at prints with hknown
          · exact absurd prints present
          · exact ⟨established, first, rfl, rfl, Bool.eq_false_iff.mpr hknown, prints⟩

theorem timesOk_empty : TimesOk ⟨[], []⟩ where
  handshake := past_nil
  response := past_nil
  transfer := rfl
  transfer_exact := fun _ _ => rfl

/-- A packet that has just come adds nothing to the time of transfer. -/
theorem TcpHistory.Sound.transferTime_received (sound : history.Sound)
    (latest : ∀ p ∈ history.packets, isAfter info.ts p.ts = false) :
    (history.received info).transferTime = history.transferTime := by
  rw [TcpHistory.transferTime_eq, TcpHistory.transferTime_eq]
  unfold TcpHistory.received
  cases hfirst : firstDataAt history.packets with
  | some first =>
      rw [firstDataAt_of_earlier (List.prefix_append _ _) hfirst]
  | none =>
      rw [firstDataAt_concat latest, hfirst]
      cases establishedAt history.packets with
      | none => rfl
      | some established =>
          rw [Option.bind_some, Option.none_or]
          split_ifs
          · simp only [Option.map_some, Option.getD_some, Option.map_none, Option.getD_none]
            rw [sound.reportedUntil_new latest, uSecondDiff_self]
          · rfl

theorem TimesOk.received (times : TimesOk history) (sound : history.Sound)
    (latest : ∀ p ∈ history.packets, isAfter info.ts p.ts = false) :
    TimesOk (history.received info) where
  handshake := times.handshake
  response := times.response
  transfer := by
    rw [sound.transferTime_received latest]
    exact times.transfer
  transfer_exact := by
    intro hproper hfits
    rw [sound.transferTime_received latest] at hfits ⊢
    exact times.transfer_exact (fun p hp => hproper p (List.mem_append_left _ hp)) hfits

/-- The times that are printed in a session with proper times do not go back. -/
theorem TcpHistory.Proper.le_transferTime (proper : history.Proper) (sound : history.Sound)
    (active : LastActive history dpi) (times : QosTimes) :
    0 ≤ history.transferTime ∧
      history.transferTime ≤ (history.reported times dpi).transferTime := by
  rw [TcpHistory.transferTime_eq, TcpHistory.transferTime_eq]
  have hpackets : (history.reported times dpi).packets = history.packets := rfl
  rw [hpackets]
  cases hfirst : firstDataAt history.packets with
  | none => exact ⟨le_rfl, le_rfl⟩
  | some first =>
      rcases ts_of_firstDataAt hfirst with ⟨start, hstart, rfl⟩
      rcases sound.ts_of_reportedUntil hfirst with ⟨middle, hmiddle, hts⟩
      rcases active.active with ⟨last, hlast, hactive⟩
      have hle := active.reportedUntil_le sound hfirst
      have hstarts : start.ts ≤ middle.ts := by
        rw [hts]
        unfold reportedUntil
        cases history.reports.getLast? with
        | none => exact le_rfl
        | some last => exact le_max_left _ _
      simp only [Option.map_some, Option.getD_some]
      rw [active.reportedUntil_reported hfirst, ← hts, ← hactive]
      rw [← hts, ← hactive] at hle
      have hfront : 0 ≤ uSecondDiff middle.ts start.ts :=
        uSecondDiff_nonneg ((isAfter_eq_false_iff _ _).mpr hstarts) (proper middle hmiddle).1
          (proper start hstart).2
      have hback : 0 ≤ uSecondDiff last.ts middle.ts :=
        uSecondDiff_nonneg ((isAfter_eq_false_iff _ _).mpr hle) (proper last hlast).1
          (proper middle hmiddle).2
      have hadd := uSecondDiff_add last.ts middle.ts start.ts
      omega

theorem toNat_ofInt_modEq (value : Int) :
    ((UInt64.ofInt value).toNat : Int) ≡ value [ZMOD 2 ^ 64] := by
  rw [UInt64.ofInt, UInt64.toNat_ofNat']
  unfold Int.ModEq
  omega

theorem TimesOk.reported (ok : TimesOk history) (tracks : Tracks history qos)
    (sound : history.Sound) (active : LastActive history dpi) :
    TimesOk (history.reported (qos.print dpi).1 dpi) := by
  have hgrowth := tracks.printsTransfer sound active
  have hsum : (history.reported (qos.print dpi).1 dpi).printedTransfer =
      history.printedTransfer + (qos.print dpi).1.dataTransferTime.toNat := by
    simp [TcpHistory.printedTransfer, TcpHistory.reported]
  constructor
  · exact ok.handshake.concat (tracks.printsHandshake sound active)
  · exact ok.response.concat (tracks.printsResponse sound active)
  · rw [hsum, hgrowth, Nat.cast_add]
    have hadd := ok.transfer.add (toNat_ofInt_modEq
      ((history.reported (qos.print dpi).1 dpi).transferTime - history.transferTime))
    rwa [add_sub_cancel] at hadd
  · intro hproper hfits
    have hsame : history.Proper := hproper
    have hbounds := hsame.le_transferTime sound active (qos.print dpi).1
    have hexact := ok.transfer_exact hsame (by omega)
    have hword : (UInt64.ofInt ((history.reported (qos.print dpi).1 dpi).transferTime -
        history.transferTime)).toNat = ((history.reported (qos.print dpi).1 dpi).transferTime -
        history.transferTime).toNat := toNat_ofInt (by omega) (by omega)
    rw [hsum, hgrowth, hword]
    omega

/-! ## Runs -/

variable {env : Env} {state target : SessionState × TcpHistory} {act : SessionAct}

/-- What holds in every state: the statistics of a session that reports know its history,
and a session without packets has nothing to report. -/
structure TimingInv (env : Env) (state : SessionState × TcpHistory) : Prop where
  sound : state.2.Sound
  times : TimesOk state.2
  starts : state.1.phase = .new → state.2 = ⟨[], []⟩
  idle : state.2.packets = [] → state.1.dpi.cap = .zero ∧
    ∀ stat, state.1.phase = .live (some stat) → stat.toTraffic = .zero
  active : state.2.packets ≠ [] → LastActive state.2 state.1.dpi
  tracks : env.conf.session.isEnable = true →
    ∀ stat, state.1.phase = .live (some stat) → Tracks state.2 stat.qos

theorem tracks_empty : Tracks ⟨[], []⟩ QosStat.zero := ⟨rfl, rfl, rfl, rfl⟩

theorem timingInv_fresh (micro : MicroFlowStats) :
    TimingInv env (.fresh micro, ⟨[], []⟩) := by
  have hnew : ∀ stat, (SessionState.fresh micro).phase ≠ .live (some stat) :=
    fun stat => Phase.noConfusion
  constructor
  · constructor <;> simp
  · exact timesOk_empty
  · exact fun _ => rfl
  · exact fun _ => ⟨rfl, fun stat live => absurd live (hnew stat)⟩
  · exact fun present => absurd rfl present
  · exact fun _ stat live => absurd live (hnew stat)

/-- A step that is no packet and emits nothing leaves the history. -/
theorem record_of_silent (silent : state.1.reports = target.1.reports)
    (other : ∀ next info, act ≠ .packet next info) :
    TcpHistory.record state.1 act target.1 state.2 = state.2 := by
  unfold TcpHistory.record
  rw [silent, List.drop_length, List.map_nil, List.append_nil]
  cases act with
  | packet next info => exact absurd rfl (other next info)
  | _ => rfl

/-- A step that leaves the history and changes at most the application. -/
theorem TimingInv.silent (inv : TimingInv env state)
    (keeps : ∀ stat, target.1.phase = .live (some stat) →
      (state.1.phase = .new ∧ stat = .fresh) ∨
        ∃ old, state.1.phase = .live (some old) ∧ old.OnlyApp stat)
    (dpi : target.1.dpi = state.1.dpi) (started : target.1.phase ≠ .new)
    (same : target.2 = state.2) : TimingInv env target := by
  constructor
  · rw [same]
    exact inv.sound
  · rw [same]
    exact inv.times
  · exact fun hnew => absurd hnew started
  · intro hempty
    rw [same] at hempty
    rw [dpi]
    refine ⟨(inv.idle hempty).1, ?_⟩
    intro stat hlive
    rcases keeps stat hlive with ⟨_, rfl⟩ | ⟨old, hold, honly⟩
    · rfl
    · rw [honly.toTraffic_eq]
      exact (inv.idle hempty).2 old hold
  · rw [same, dpi]
    exact inv.active
  · intro henable stat hlive
    rw [same]
    rcases keeps stat hlive with ⟨hnew, rfl⟩ | ⟨old, hold, honly⟩
    · rw [inv.starts hnew]
      exact tracks_empty
    · rw [honly.qos_eq]
      exact inv.tracks henable old hold

/-- The statistics after a packet, when session reports are enabled. -/
theorem qos_packet (build : env.build.qosModule = true) (s : SessionState)
    (enable : env.conf.session.isEnable = true) {given : Option SessionStat} {next : DpiSession}
    {stat : SessionStat} (live : (s.packet env given next info).phase = .live (some stat)) :
    ∃ old, given = some old ∧ stat.qos = if info.carriesTcp
      then old.qos.receive env.conf.session.rttBase info else old.qos := by
  unfold SessionState.packet at live
  dsimp only at live
  rw [if_pos enable] at live
  unfold receivingPacket at live
  rw [if_pos build] at live
  unfold PacketInfo.carriesTcp
  cases hindex : getProtocolIndexAfterSession .tcp info with
  | none =>
      rw [hindex] at live
      cases given with
      | none => cases live
      | some old =>
          cases live
          exact ⟨_, rfl, rfl⟩
  | some index =>
      rw [hindex] at live
      cases given with
      | none => cases live
      | some old =>
          cases live
          exact ⟨old, rfl, rfl⟩

theorem TimingInv.packet (inv : TimingInv env state) (build : env.build.qosModule = true)
    {given : Option SessionStat} {next : DpiSession} (live : state.1.phase = .live given)
    (inOrder : InOrder state (.packet next info))
    (packet : target.1 = state.1.packet env given next info)
    (same : target.2 = state.2.received info) : TimingInv env target := by
  rcases inOrder with ⟨hnonzero, hlatest, hactive⟩
  have hpresent : target.2.packets ≠ [] := by
    rw [same]
    exact List.append_ne_nil_of_right_ne_nil _ (List.cons_ne_nil _ _)
  constructor
  · rw [same]
    exact inv.sound.received hnonzero hlatest
  · rw [same]
    exact inv.times.received inv.sound hlatest
  · intro hnew
    rcases SessionState.packet_phase live env next info with ⟨old, qos, _, hphase⟩ |
      ⟨_, hphase⟩ | ⟨_, _, hphase⟩
    all_goals
      rw [packet, hphase] at hnew
      cases hnew
  · exact fun hempty => absurd hempty hpresent
  · intro _
    rw [same, packet]
    constructor
    · rw [state.1.packet_dpi env given next info]
      exact ⟨info, List.mem_append_right _ (List.mem_singleton_self info), hactive.symm⟩
    · intro p hp
      rw [state.1.packet_dpi env given next info, hactive]
      rcases List.mem_append.mp hp with hp | hp
      · exact (isAfter_eq_false_iff _ _).mp (hlatest p hp)
      · rw [List.mem_singleton.mp hp]
  · intro henable stat hstat
    rw [packet] at hstat
    rcases qos_packet build state.1 henable hstat with ⟨old, hold, hqos⟩
    have htracks := inv.tracks henable old (live.trans (congrArg Phase.live hold))
    rw [same, hqos]
    split_ifs with htcp
    · exact htracks.receive inv.sound htcp hlatest _
    · exact htracks.received_other (Bool.eq_false_iff.mpr htcp) hlatest

/-- The history after a call of `session_report_do_report`. -/
theorem record_of_called {emitted : List Emitted} (reports : target.1.reports =
    state.1.reports ++ emitted) (other : ∀ next info, act ≠ .packet next info) :
    TcpHistory.record state.1 act target.1 state.2 =
      { state.2 with
        reports := state.2.reports ++ emitted.map fun emitted =>
          ⟨emitted.report.times, state.1.dpi.lastActivityTime, state.2.packets⟩ } := by
  unfold TcpHistory.record
  rw [reports, List.drop_left]
  cases act with
  | packet next info => exact absurd rfl (other next info)
  | _ => rfl

/-- The times that a report prints, and the response times that it leaves. -/
theorem times_of_printQos (build : env.build.qosModule = true) {stat after : SessionStat}
    {dpi : DpiSession} {printed : SessionReport}
    (report : printed.qos = (stat.printQos env.build dpi).1)
    (left : after.qos = (stat.printQos env.build dpi).2) :
    printed.times = (stat.qos.print dpi).1 ∧ after.qos = (stat.qos.print dpi).2.resetData := by
  unfold SessionStat.printQos at report left
  rw [if_pos build] at report left
  rw [SessionReport.times, report]
  exact ⟨rfl, left⟩

theorem TimingInv.called (inv : TimingInv env state) (build : env.build.qosModule = true)
    (called : Called env state.1 target.1) (enable : env.conf.session.isEnable = true)
    (started : target.1.phase ≠ .new) (other : ∀ next info, act ≠ .packet next info)
    (recorded : target.2 = TcpHistory.record state.1 act target.1 state.2) :
    TimingInv env target := by
  rcases called.returned with ⟨old, prepared, middle, report, hlive, hprepared, hprint, hreports,
    _, hafter⟩
  rw [record_of_called hreports other] at recorded
  have htracks := inv.tracks enable old hlive
  rcases printIpSessionReport_eq_ok hprint with ⟨_, rfl, rfl⟩ | ⟨hnew, _⟩
  · -- nothing is printed, and only the application changes
    refine inv.silent ?_ called.dpi started (recorded.trans ?_)
    · exact fun stat hstat => .inr ⟨old, hlive, hprepared.trans (hafter stat hstat)⟩
    · simp
  rcases printIpSessionReport_qos hprint with ⟨hnone, _⟩ | ⟨printed, rfl, hprinted, hqos⟩
  · exact absurd hnone hnew
  rcases times_of_printQos build hprinted hqos with ⟨htimes, hleft⟩
  rw [hprepared.qos_eq] at htimes hleft
  -- a session without packets has nothing to print
  have hpresent : state.2.packets ≠ [] := by
    intro hempty
    rcases inv.idle hempty with ⟨hcap, htraffic⟩
    apply hnew
    have hcounters : prepared.toTraffic = .zero :=
      hprepared.toTraffic_eq.trans (htraffic old hlive)
    rw [NoNewPackets, hcap, hcounters]
  have hactive := inv.active hpresent
  have hsame : target.2 = state.2.reported (old.qos.print state.1.dpi).1 state.1.dpi := by
    rw [recorded, ← htimes]
    rfl
  constructor
  · rw [hsame]
    exact inv.sound.report hactive _
  · rw [hsame]
    exact inv.times.reported htracks inv.sound hactive
  · exact fun hphase => absurd hphase started
  · intro hempty
    rw [hsame] at hempty
    exact absurd hempty hpresent
  · intro _
    rw [hsame, called.dpi]
    exact ⟨hactive.active, hactive.latest⟩
  · intro _ stat hstat
    rw [hsame, (hafter stat hstat).qos_eq, hleft]
    exact (htracks.reported inv.sound hactive).congr rfl

/-- Every callback keeps what is known of the times. -/
theorem TimingInv.step (inv : TimingInv env state) (build : env.build.qosModule = true)
    (inOrder : InOrder state act) (enabled : (timedMachine env).step state act = some target) :
    TimingInv env target := by
  rcases Machine.observe_eq_some enabled with ⟨hstep, hrecord⟩
  have hstarted := sessionStep_phase_ne_new hstep
  rcases sessionStep_effect hstep with ⟨hsilent, hdpi, hother⟩ |
    ⟨given, next, info, rfl, hlive, _, hpacket⟩ | ⟨hcalled, henable, stat, _, hreports⟩
  · apply inv.silent hsilent.keeps hdpi hstarted
    rw [hrecord, record_of_silent hsilent.reports.symm hother]
  · apply inv.packet build hlive inOrder hpacket
    rw [hrecord]
    unfold TcpHistory.record
    have hkept : target.1.reports = state.1.reports := by
      rw [hpacket]
      exact state.1.packet_reports env given next info
    rw [hkept, List.drop_length, List.map_nil, List.append_nil]
    rfl
  · refine inv.called build hcalled henable hstarted ?_ hrecord
    rintro next info rfl
    exact hreports

/-- In every run of packets and reports of a session whose packets come in order, the
times of the handshake and of the answer are printed once, and the times of transfer add
up to the time between the first packet after the establishment and the last activity. -/
theorem tcpTiming_of_inOrder (build : env.build.qosModule = true)
    (reached : (timedMachine env).ReachableWhen InOrder state) : TcpTiming state.2 := by
  have hinv : TimingInv env state := by
    refine reached.invariant (TimingInv env) ?_ ?_
    · rintro ⟨s, history⟩ ⟨⟨micro, hfresh⟩, hempty⟩
      dsimp only at hfresh hempty
      rw [hfresh, hempty]
      exact timingInv_fresh micro
    · exact fun state act target inv inOrder enabled => inv.step build inOrder enabled
  have hresponse : Past (fun before r => (r.times.appResponseTime != 0) = true →
      r.knowsData = true ∧ ∀ earlier ∈ before, earlier.knowsData = false) state.2.reports := by
    intro before r after hsplit hne
    rcases (hinv.times.response before r after hsplit).of_ne_zero (bne_iff_ne.mp hne) with
      ⟨_, first, _, hfirst, hbefore, _⟩
    rw [List.any_eq_false] at hbefore
    refine ⟨by rw [TimedReport.knowsData, hfirst, Option.isSome_some], ?_⟩
    exact fun earlier hearlier => Bool.eq_false_iff.mpr (hbefore earlier hearlier)
  constructor
  · exact hinv.times.handshake.countP_le_one
  · exact hresponse.countP_le_one
  · intro r hr hne
    rcases List.append_of_mem hr with ⟨before, after, hsplit⟩
    rcases (hinv.times.response before r after hsplit).of_ne_zero hne with
      ⟨established, first, hestablished, hfirst, _, heq⟩
    have hprefix := hinv.sound.prefixed r hr
    exact ⟨established, first, establishedAt_of_prefix hprefix hestablished,
      firstDataAt_of_earlier hprefix hfirst, heq⟩
  · exact hinv.times.response
  · exact hinv.times.transfer
  · exact hinv.times.transfer_exact

/-- A packet of TCP as the `packets`-th one of its session. -/
def tcpPacket (packets : UInt64) (ts : Timeval) (connEstablished : Bool) : SessionAct :=
  .packet { countedPackets packets 0 with lastActivityTime := ts, rtt := ⟨0, 30⟩ }
    ⟨1, [.other 99, .ip, .tcp], false, ts, ⟨none, none, none, none, none, none, connEstablished⟩⟩

/-- A session that is established after one second and ends two seconds later. -/
def timedRun : List SessionAct :=
  [.start .ip, tcpPacket 1 ⟨1, 0⟩ true, .tick, tcpPacket 2 ⟨1, 500000⟩ false, .tick, .tick,
    tcpPacket 3 ⟨3, 0⟩ false, .finish]

theorem tcpTiming_of_inOrder_run :
    let state := ((timedMachine qosEnv).restrict InOrder).after timedRun
      (.fresh noMicroFlows, ⟨[], []⟩)
    TcpTiming state.2 ∧ state.2.transferTime = 1500000 ∧
      state.2.reports.map (·.times) = [⟨30, 0, 0⟩, ⟨0, 500000, 0⟩, ⟨0, 0, 1500000⟩] :=
  ⟨@tcpTiming_of_inOrder qosEnv _ rfl
    (Machine.reachableWhen_after ⟨⟨noMicroFlows, rfl⟩, rfl⟩ (by decide +kernel)),
    by decide +kernel, by decide +kernel⟩

end MmtProbe.Dpi
