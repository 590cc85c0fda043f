/-
# The report of a session

`session_report_do_report` prints what a session has carried since its last
report.  Nothing is printed while no packet has arrived.  Otherwise the report
holds, for each of three quantities, the growth of the total, of the upload and of
the download, computed from six remembered counters that are then replaced.

The arithmetic is that of unsigned 64-bit numbers.  The growth of one direction
never wraps, because the counters of the packet inspection never decrease.  The
growth of a total is right as long as it fits in 64 bits.
-/

import MmtProbe.Dpi.Qos

namespace MmtProbe.Dpi

open MmtProbe.Configure MmtProbe.Math

/-! ## What is printed -/

/-- The three numbers that are printed of one quantity. -/
structure Delta where
  total : UInt64
  ul : UInt64
  dl : UInt64
deriving DecidableEq, Repr

/-- The differences as `_print_ip_session_report` computes them. -/
def FlowStatData.delta (now old : FlowStatData) : Delta where
  total := (now.upload + now.download) - (old.upload + old.download)
  ul := now.upload - old.upload
  dl := now.download - old.download

/-- The three times of a report. -/
structure QosTimes where
  handshakeTime : UInt64
  appResponseTime : UInt64
  dataTransferTime : UInt64
deriving DecidableEq, Repr

/-- What a report says about the quality of service: the times, and the values from
which the round-trip times and the retransmissions are printed. -/
structure QosReport where
  times : QosTimes
  rtt : PerDirection RttStat
  retransmission : PerDirection UInt64
deriving DecidableEq, Repr

/-- `SESSION_REPORT_TYPE`. The statistics of the application are those from which its
part was printed. -/
structure SessionReport where
  volumes : Delta
  payload : Delta
  packets : Delta
  qos : Option QosReport
  appType : AppType
  app : Option AppStat
deriving DecidableEq, Repr

/-! ## Printing -/

/-- The times of a report. The time of the handshake and that of the first answer
are printed once. -/
def QosStat.print (qos : QosStat) (dpi : DpiSession) : QosTimes × QosStat :=
  if isZeroTimestamp qos.tcpEstablishedTs then (⟨0, 0, 0⟩, qos)
  else
    let handshakeTime := if qos.isPrintedHandshakeTime then 0 else uSecond dpi.rtt
    let qos := { qos with isPrintedHandshakeTime := true }
    if isZeroTimestamp qos.latestTcpDataPktTs then (⟨handshakeTime, 0, 0⟩, qos)
    else
      let appResponseTime := if qos.isPrintedAppResponseTime then 0
        else UInt64.ofInt (uSecondDiff qos.latestTcpDataPktTs qos.tcpEstablishedTs)
      let qos := { qos with isPrintedAppResponseTime := true }
      if isAfter qos.latestTcpDataPktTs dpi.lastActivityTime then
        (⟨handshakeTime, appResponseTime,
            UInt64.ofInt (uSecondDiff dpi.lastActivityTime qos.latestTcpDataPktTs)⟩,
          { qos with latestTcpDataPktTs := dpi.lastActivityTime })
      else (⟨handshakeTime, appResponseTime, 0⟩, qos)

/-- What remains of the response times after a report. -/
def QosStat.resetData (qos : QosStat) : QosStat :=
  { qos with rtt := ⟨.zero, .zero⟩, retransmission := ⟨0, 0⟩ }

/-- `print_web_report` and its siblings, selected by the type of the session. Each of
them prints nothing when its pointer is `NULL`. -/
def printAppReport (build : Build) : AppType → Option AppStat →
    Except Crash (Option AppStat × Option AppStat)
  | .ip, apps => .ok (none, apps)
  | _, none => .ok (none, none)
  | .web, some (.web web) =>
      .ok (some (.web web), some (.web { web with
        responseTime := if build.qosModule then .zero else web.responseTime
        transactionIndicator := web.transactionIndicator + 1 }))
  | .ssl, some (.ssl ssl) => .ok (some (.ssl ssl), some (.ssl ssl))
  | .rtp, some (.rtp rtp) => .ok (some (.rtp rtp), some (.rtp .reset))
  | .ftp, some (.ftp ftp) => .ok (some (.ftp ftp), some (.ftp ftp))
  | .gtp, some (.gtp gtp) => .ok (some (.gtp gtp), some (.gtp gtp))
  | _, some _ => .error .confused

/-- The part of a report that exists with `QOS_MODULE`, and what remains of the
response times. -/
def SessionStat.printQos (build : Build) (dpi : DpiSession) (stat : SessionStat) :
    Option QosReport × QosStat :=
  if build.qosModule then
    let (times, qos) := stat.qos.print dpi
    (some ⟨times, qos.rtt, qos.retransmission⟩, qos.resetData)
  else (none, stat.qos)

/-- The comparison in front of a report: no new packets since the last one. -/
def NoNewPackets (dpi : DpiSession) (stat : SessionStat) : Prop :=
  dpi.cap.packets.upload + dpi.cap.packets.download =
    stat.packets.upload + stat.packets.download

instance (dpi : DpiSession) (stat : SessionStat) : Decidable (NoNewPackets dpi stat) :=
  inferInstanceAs (Decidable (_ = _))

/-- `_print_ip_session_report`: the report, when one is printed, and the statistics
afterwards. -/
def printIpSessionReport (build : Build) (dpi : DpiSession) (stat : SessionStat) :
    Except Crash (Option SessionReport × SessionStat) :=
  if NoNewPackets dpi stat then .ok (none, stat)
  else do
    let (app, apps) ← printAppReport build stat.appType stat.apps
    let report : SessionReport :=
      { volumes := FlowStatData.delta dpi.cap.volumes stat.volumes
        payload := FlowStatData.delta dpi.cap.payload stat.payload
        packets := FlowStatData.delta dpi.cap.packets stat.packets
        qos := (stat.printQos build dpi).1
        appType := stat.appType
        app := app }
    return (some report, ⟨dpi.cap, stat.appType, apps, (stat.printQos build dpi).2⟩)

/-- `session_report_do_report` -/
def sessionReportDoReport (build : Build) (dpi : DpiSession) (stat : Option SessionStat) :
    Except Crash (Option SessionReport × SessionStat) :=
  match stat with
  | none => .error .nullStat
  | some stat => printIpSessionReport build dpi stat

/-- Whether `_web_method_handle` makes a report first: the session has a request with a
host. -/
def SessionStat.hasRequest (stat : SessionStat) : Bool :=
  match stat.apps with
  | some (.web web) => hasString web.hostname
  | _ => false

/-- What `_web_method_handle` writes about the new request. -/
def WebStat.request (build : Build) (web : WebStat) (ts : Timeval) (val : Option (List UInt8)) :
    WebStat :=
  let web := { web with
    requestNb := web.requestNb + 1
    transactionIndicator := 1
    method := copyStringValue 10 val }
  if build.qosModule then
    { web with
      requestTime := ts
      firstRequestTime := if web.requestNb = 1 then ts else web.firstRequestTime }
  else web

/-- A request in a session that already has one is preceded by a report of the old
one, which is then forgotten. -/
def reportOldRequest (build : Build) (dpi : DpiSession) (stat : SessionStat) (web : WebStat) :
    Except Crash (Option SessionReport × SessionStat × WebStat) :=
  if hasString web.hostname then
    (sessionReportDoReport build dpi (some stat)).map fun (report, stat) => (report, stat, .reset)
  else .ok (none, stat, web)

/-- `_web_method_handle` -/
def webMethodHandle (build : Build) (dpi : DpiSession) (ts : Timeval)
    (val : Option (List UInt8)) (stat : SessionStat) :
    Except Crash (Option SessionReport × SessionStat) := do
  let stat ← getPacketSession .web (.web .reset) stat
  let web ← asWeb stat.apps
  let (report, stat, web) ← reportOldRequest build dpi stat web
  return (report, stat.putWeb (web.request build ts val))

/-! ## The arithmetic of a report -/

/-- Counters that never decrease. -/
def FlowStatData.le (old now : FlowStatData) : Prop :=
  old.upload ≤ now.upload ∧ old.download ≤ now.download

instance (old now : FlowStatData) : Decidable (FlowStatData.le old now) :=
  inferInstanceAs (Decidable (_ ∧ _))

/-- The growth of the upload and the download together. -/
def FlowStatData.growth (old now : FlowStatData) : Nat :=
  (now.upload.toNat - old.upload.toNat) + (now.download.toNat - old.download.toNat)

/-- The sum of the two directions. -/
def FlowStatData.total (data : FlowStatData) : Nat := data.upload.toNat + data.download.toNat

/-- A printed difference is the mathematical one, and nothing wrapped. -/
structure Delta.Exact (delta : Delta) (old now : FlowStatData) : Prop where
  ul : old.upload.toNat + delta.ul.toNat = now.upload.toNat
  dl : old.download.toNat + delta.dl.toNat = now.download.toNat
  total : delta.total.toNat = delta.ul.toNat + delta.dl.toNat

/-- What is printed of a quantity whose growth fits in 64 bits is exact. -/
theorem FlowStatData.delta_exact {old now : FlowStatData} (ordered : FlowStatData.le old now)
    (fits : FlowStatData.growth old now < 2 ^ 64) :
    (FlowStatData.delta now old).Exact old now := by
  rcases ordered with ⟨hup, hdown⟩
  have hup' := UInt64.le_iff_toNat_le.mp hup
  have hdown' := UInt64.le_iff_toNat_le.mp hdown
  have hul := UInt64.toNat_sub_of_le _ _ hup
  have hdl := UInt64.toNat_sub_of_le _ _ hdown
  have hnow := now.upload.toNat_lt
  have hnow' := now.download.toNat_lt
  unfold growth at fits
  constructor
  · show old.upload.toNat + (now.upload - old.upload).toNat = now.upload.toNat
    omega
  · show old.download.toNat + (now.download - old.download).toNat = now.download.toNat
    omega
  · show ((now.upload + now.download) - (old.upload + old.download)).toNat =
      (now.upload - old.upload).toNat + (now.download - old.download).toNat
    rw [hul, hdl, UInt64.toNat_sub, UInt64.toNat_add, UInt64.toNat_add]
    omega

/-- Counters with the same values. -/
theorem FlowStatData.eq_of_toNat {first second : FlowStatData}
    (up : first.upload.toNat = second.upload.toNat)
    (down : first.download.toNat = second.download.toNat) : first = second :=
  PerDirection.ext (UInt64.toNat_inj.mp up) (UInt64.toNat_inj.mp down)

/-- The comparison in front of a report sees every growth of the packets that fits in
64 bits. -/
theorem FlowStatData.sum_eq_iff {old now : FlowStatData} (ordered : FlowStatData.le old now)
    (fits : FlowStatData.growth old now < 2 ^ 64) :
    now.upload + now.download = old.upload + old.download ↔ now = old := by
  rcases ordered with ⟨hup, hdown⟩
  have hup' := UInt64.le_iff_toNat_le.mp hup
  have hdown' := UInt64.le_iff_toNat_le.mp hdown
  have hnow := now.upload.toNat_lt
  have hnow' := now.download.toNat_lt
  unfold growth at fits
  constructor
  · intro hsum
    have hnat := congrArg UInt64.toNat hsum
    rw [UInt64.toNat_add, UInt64.toNat_add] at hnat
    apply FlowStatData.eq_of_toNat <;> omega
  · rintro rfl
    rfl

/-! ## What a report does to the statistics -/

variable {build : Build} {dpi : DpiSession} {stat target : SessionStat}
  {report : Option SessionReport}

/-- The numbers of a report are the differences to the remembered counters. -/
structure SessionReport.Differences (report : SessionReport) (old now : Traffic) : Prop where
  volumes : report.volumes = FlowStatData.delta now.volumes old.volumes
  payload : report.payload = FlowStatData.delta now.payload old.payload
  packets : report.packets = FlowStatData.delta now.packets old.packets

/-- Printing the part of an application keeps the kind of its structure. -/
theorem printAppReport_kind {appType : AppType} {apps printed kept : Option AppStat}
    (returned : printAppReport build appType apps = .ok (printed, kept)) :
    kept.map AppStat.kind = apps.map AppStat.kind := by
  unfold printAppReport at returned
  split at returned <;> cases returned <;> rfl

/-- A call either prints nothing and changes nothing, or prints the differences and
remembers the counters. -/
theorem printIpSessionReport_eq_ok
    (returned : printIpSessionReport build dpi stat = .ok (report, target)) :
    (NoNewPackets dpi stat ∧ report = none ∧ target = stat) ∨
      (¬ NoNewPackets dpi stat ∧ target.toTraffic = dpi.cap ∧ target.appType = stat.appType ∧
        target.apps.map AppStat.kind = stat.apps.map AppStat.kind ∧
        ∃ printed, report = some printed ∧ printed.Differences stat.toTraffic dpi.cap) := by
  unfold printIpSessionReport at returned
  by_cases hnone : NoNewPackets dpi stat
  · rw [if_pos hnone] at returned
    cases returned
    exact .inl ⟨hnone, rfl, rfl⟩
  · rw [if_neg hnone] at returned
    rcases bind_eq_ok_iff.mp returned with ⟨⟨app, apps⟩, happ, returned⟩
    cases returned
    exact .inr ⟨hnone, rfl, rfl, printAppReport_kind happ, _, rfl, ⟨rfl, rfl, rfl⟩⟩

/-- The response times are printed with the other numbers. -/
theorem printIpSessionReport_qos
    (returned : printIpSessionReport build dpi stat = .ok (report, target)) :
    (NoNewPackets dpi stat ∧ report = none ∧ target = stat) ∨
      ∃ printed, report = some printed ∧ printed.qos = (stat.printQos build dpi).1 ∧
        target.qos = (stat.printQos build dpi).2 := by
  unfold printIpSessionReport at returned
  by_cases hnone : NoNewPackets dpi stat
  · rw [if_pos hnone] at returned
    cases returned
    exact .inl ⟨hnone, rfl, rfl⟩
  · rw [if_neg hnone] at returned
    rcases bind_eq_ok_iff.mp returned with ⟨⟨app, apps⟩, _, returned⟩
    cases returned
    exact .inr ⟨_, rfl, rfl, rfl⟩

/-- Printing the part of an application succeeds when its structure is in place. -/
theorem printAppReport_of_tagged (build : Build) (tagged : stat.Tagged) :
    ∃ printed kept, printAppReport build stat.appType stat.apps = .ok (printed, kept) := by
  rcases tagged with ⟨hip, hnone⟩ | ⟨app, happ, hkind⟩
  · rw [hip, hnone]
    exact ⟨_, _, rfl⟩
  · rw [happ, ← hkind]
    cases app <;> exact ⟨_, _, rfl⟩

/-- A report succeeds when the structure of the application is in place. -/
theorem printIpSessionReport_of_tagged (build : Build) (dpi : DpiSession)
    (tagged : stat.Tagged) :
    ∃ report target, printIpSessionReport build dpi stat = .ok (report, target) ∧
      target.appType = stat.appType ∧ target.Tagged := by
  have hreturns : ∃ result, printIpSessionReport build dpi stat = .ok result := by
    unfold printIpSessionReport
    split_ifs with hnone
    · exact ⟨_, rfl⟩
    · rcases printAppReport_of_tagged build tagged with ⟨printed, kept, hprint⟩
      rw [hprint]
      exact ⟨_, rfl⟩
  rcases hreturns with ⟨⟨report, target⟩, hreturns⟩
  refine ⟨report, target, hreturns, ?_⟩
  rcases printIpSessionReport_eq_ok hreturns with
    ⟨_, _, rfl⟩ | ⟨_, _, htype, hkind, _⟩
  · exact ⟨rfl, tagged⟩
  · refine ⟨htype, ?_⟩
    rcases tagged with ⟨hip, hnone⟩ | ⟨app, happ, happKind⟩
    · rw [hnone] at hkind
      exact .inl ⟨htype.trans hip, by simpa using hkind⟩
    · rw [happ] at hkind
      rcases Option.map_eq_some_iff.mp hkind with ⟨kept, hkept, hkeptKind⟩
      exact .inr ⟨kept, hkept, by rw [hkeptKind, happKind, htype]⟩

/-- The web structure after `_get_packet_session` has a host only when the session had
a request. -/
theorem hasRequest_of_getPacketSession {web : WebStat} {prepared : SessionStat}
    (returned : getPacketSession .web (.web .reset) stat = .ok prepared)
    (found : asWeb prepared.apps = .ok web) : hasString web.hostname = stat.hasRequest := by
  unfold getPacketSession at returned
  split_ifs at returned with hother
  rw [← Except.ok.inj returned] at found
  unfold SessionStat.hasRequest
  cases happs : stat.apps with
  | none =>
      simp only [happs, Option.getD_none] at found
      cases found
      rfl
  | some app =>
      simp only [happs, Option.getD_some] at found
      cases app with
      | web _ =>
          cases found
          rfl
      | ssl _ | rtp _ | ftp _ | gtp _ => cases found

/-- A request reports first exactly when the session had one. Around the report only the
application changes. -/
theorem webMethodHandle_eq_ok {ts : Timeval} {val : Option (List UInt8)}
    (returned : webMethodHandle build dpi ts val stat = .ok (report, target)) :
    (stat.hasRequest = false ∧ report = none ∧ stat.OnlyApp target) ∨
      (stat.hasRequest = true ∧ ∃ prepared middle, stat.OnlyApp prepared ∧
        printIpSessionReport build dpi prepared = .ok (report, middle) ∧
        middle.OnlyApp target) := by
  unfold webMethodHandle at returned
  rcases bind_eq_ok_iff.mp returned with ⟨prepared, hprepared, returned⟩
  rcases bind_eq_ok_iff.mp returned with ⟨web, hweb, returned⟩
  rcases bind_eq_ok_iff.mp returned with ⟨⟨printed, middle, web'⟩, hreport, returned⟩
  have honly := getPacketSession_onlyApp hprepared
  have hrequest := hasRequest_of_getPacketSession hprepared hweb
  cases returned
  unfold reportOldRequest at hreport
  split_ifs at hreport with hhost
  · rcases map_eq_ok_iff.mp hreport with ⟨⟨printed', middle'⟩, hprint, hpair⟩
    cases hpair
    exact .inr ⟨hrequest ▸ hhost, prepared, middle, honly, hprint, middle.onlyApp_putWeb _⟩
  · cases hreport
    exact .inl ⟨by simpa [hrequest] using hhost, rfl, honly.trans (SessionStat.onlyApp_putWeb _ _)⟩

/-- A request on a session without an application or with a web structure. -/
theorem webMethodHandle_of_tagged (build : Build) (dpi : DpiSession) (ts : Timeval)
    (val : Option (List UInt8)) (tagged : stat.Tagged)
    (allowed : stat.appType = .ip ∨ stat.appType = .web) :
    ∃ report target, webMethodHandle build dpi ts val stat = .ok (report, target) ∧
      target.appType = .web ∧ target.Tagged := by
  rcases getPacketSession_of_tagged .web (.web .reset) tagged rfl allowed with ⟨app, hkind, hget⟩
  cases app with
  | ssl _ | rtp _ | ftp _ | gtp _ => simp [AppStat.kind] at hkind
  | web web =>
      unfold webMethodHandle reportOldRequest
      rw [hget, bind_ok]
      simp only [asWeb, bind_ok]
      split_ifs with hhost
      · have hprepared : SessionStat.Tagged
            { stat with apps := some (.web web), appType := .web } := .inr ⟨_, rfl, rfl⟩
        rcases printIpSessionReport_of_tagged build dpi hprepared with
          ⟨report, target, hprint, htype, _⟩
        refine ⟨report, target.putWeb (WebStat.reset.request build ts val), ?_, htype,
          .inr ⟨_, rfl, htype.symm⟩⟩
        rw [sessionReportDoReport, hprint]
        rfl
      · exact ⟨_, _, rfl, rfl, .inr ⟨_, rfl, rfl⟩⟩

end MmtProbe.Dpi
