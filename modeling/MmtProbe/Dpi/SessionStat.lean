/-
# The statistics of one session

`session_stat_t` is what the probe remembers of a session between two reports.
It holds the counters of the last report, the state of the response times, and
one pointer to the statistics of the application.  That pointer is an untyped
union; `app_type` says which structure stands behind it, and nothing but the code
of the four application modules keeps the two in step.

A pointer is modelled by what stands behind it: `none` is `NULL`, and the
structure behind a pointer of the union keeps the kind with which it was
allocated.
-/

import MmtProbe.Configure.Validate
import MmtProbe.Math.Bytes
import Mathlib.Data.Prod.Lex

namespace MmtProbe.Dpi

open MmtProbe.Math MmtProbe.Configure

/-! ## Times and counters -/

/-- `struct timeval` -/
structure Timeval where
  tvSec : Int
  tvUsec : Int
deriving DecidableEq, Repr

/-- `reset_timeval` -/
def Timeval.zero : Timeval := ⟨0, 0⟩

/-- `is_zero_timestamp` -/
def isZeroTimestamp (ts : Timeval) : Bool := ts.tvSec == 0 && ts.tvUsec == 0

/-- `is_after`: whether the second moment is later than the first one. -/
def isAfter (start stop : Timeval) : Bool :=
  stop.tvSec > start.tvSec || (stop.tvSec == start.tvSec && stop.tvUsec > start.tvUsec)

/-- Moments are ordered by their seconds, and within a second by their microseconds. -/
instance : LinearOrder Timeval :=
  LinearOrder.lift' (fun ts => toLex (ts.tvSec, ts.tvUsec)) fun first second same => by
    cases first
    cases second
    simpa using same

theorem isAfter_eq_true_iff (start stop : Timeval) : isAfter start stop = true ↔ start < stop := by
  have hlt : start < stop ↔ toLex (start.tvSec, start.tvUsec) < toLex (stop.tvSec, stop.tvUsec) :=
    Iff.rfl
  rw [hlt, Prod.Lex.toLex_lt_toLex]
  simp only [isAfter, Bool.or_eq_true, Bool.and_eq_true, decide_eq_true_iff, beq_iff_eq, gt_iff_lt]
  exact or_congr_right (and_congr_left' eq_comm)

theorem isAfter_eq_false_iff (start stop : Timeval) :
    isAfter start stop = false ↔ stop ≤ start := by
  rw [← Bool.not_eq_true, isAfter_eq_true_iff, not_lt]

/-- `u_second_diff` -/
def uSecondDiff (stop start : Timeval) : Int :=
  (stop.tvSec - start.tvSec) * 1000000 + (stop.tvUsec - start.tvUsec)

/-- `u_second` -/
def uSecond (ts : Timeval) : UInt64 := UInt64.ofInt (ts.tvSec * 1000000 + ts.tvUsec)

/-- A value for each direction; direction 0, `false`, is the upload. -/
@[ext]
structure PerDirection (α : Type) where
  upload : α
  download : α
deriving DecidableEq, Repr

namespace PerDirection

variable {α : Type}

def get (pair : PerDirection α) (direction : Bool) : α :=
  if direction then pair.download else pair.upload

def set (pair : PerDirection α) (direction : Bool) (value : α) : PerDirection α :=
  if direction then { pair with download := value } else { pair with upload := value }

end PerDirection

/-- `flow_stat_data_t` -/
abbrev FlowStatData := PerDirection UInt64

/-- The three quantities of a session. -/
@[ext]
structure Traffic where
  volumes : FlowStatData
  payload : FlowStatData
  packets : FlowStatData
deriving DecidableEq, Repr

/-- Nothing was counted. -/
def Traffic.zero : Traffic := ⟨⟨0, 0⟩, ⟨0, 0⟩, ⟨0, 0⟩⟩

/-- What the getters of the packet inspection return for a session. -/
structure DpiSession where
  /-- `get_session_{ul,dl}_cap_byte_count`, `.._data_byte_count` and
  `.._cap_packet_count` -/
  cap : Traffic
  /-- `get_session_byte_count` -/
  byteCount : UInt64
  /-- `get_session_packet_count` -/
  packetCount : UInt64
  /-- `get_session_{ul,dl}_byte_count` -/
  bytes : FlowStatData
  /-- `get_session_{ul,dl}_packet_count` -/
  packets : FlowStatData
  /-- `get_session_last_activity_time` -/
  lastActivityTime : Timeval
  /-- `get_session_rtt` -/
  rtt : Timeval
deriving DecidableEq, Repr

/-! ## Response times -/

/-- `struct pkt_node` -/
structure PktNode where
  seqNumber : UInt32
  dataLen : UInt16
  timestamp : Timeval
deriving DecidableEq, Repr

/-- `tcp_rtt_t`: for each direction the packets that were not acknowledged. -/
abbrev TcpRtt := PerDirection (List PktNode)

/-- The round-trip times of one direction since the last report. -/
structure RttStat where
  sum : UInt64
  max : UInt64
  min : UInt64
  counter : UInt64
deriving DecidableEq, Repr

def RttStat.zero : RttStat := ⟨0, 0, 0, 0⟩

/-- The fields of `session_stat_t` that exist with `QOS_MODULE`. -/
structure QosStat where
  rtt : PerDirection RttStat
  tcpRtt : TcpRtt
  retransmission : PerDirection UInt64
  tcpEstablishedTs : Timeval
  latestTcpDataPktTs : Timeval
  isPrintedHandshakeTime : Bool
  isPrintedAppResponseTime : Bool
deriving DecidableEq, Repr

def QosStat.zero : QosStat :=
  ⟨⟨.zero, .zero⟩, ⟨[], []⟩, ⟨0, 0⟩, .zero, .zero, false, false⟩

/-! ## Applications -/

/-- `session_stat_type_t` -/
inductive AppType where
  | ip
  | web
  | ssl
  | rtp
  | ftp
  | gtp
deriving DecidableEq, Repr

/-- `session_web_stat_t`. The texts are what stands before their NUL. -/
structure WebStat where
  firstRequestTime : Timeval
  requestTime : Timeval
  responseTime : Timeval
  xcdnSeen : Bool
  requestNb : UInt8
  transactionIndicator : UInt8
  mimeType : List UInt8
  hostname : List UInt8
  referer : List UInt8
  method : List UInt8
  uri : List UInt8
  response : List UInt8
  contentLen : List UInt8
deriving DecidableEq, Repr

/-- `_reset_report` -/
def WebStat.reset : WebStat :=
  ⟨.zero, .zero, .zero, false, 0, 0, [], [], [], [], [], [], []⟩

/-- `session_ssl_stat_t` -/
structure SslStat where
  hostname : List UInt8
deriving DecidableEq, Repr

/-- `session_rtp_stat_t` -/
structure RtpStat where
  packetsNb : UInt32
  jitter : UInt32
  nbOrderError : UInt32
  nbLost : UInt32
  nbLossBursts : UInt32
deriving DecidableEq, Repr

/-- `_reset_rtp` -/
def RtpStat.reset : RtpStat := ⟨0, 0, 0, 0, 0⟩

/-- The addresses below GTP. -/
inductive OuterIp where
  /-- `ip_version` is 0: they were not extracted yet. -/
  | unknown
  | v4 (src dst : UInt32)
  | v6 (src dst : List UInt8)
deriving DecidableEq, Repr

/-- What is printed of a `session_ftp_stat_t`; a text that is not there is `NULL`. -/
structure FtpStat where
  sessionConnType : UInt8
  sessionUsername : Option (List UInt8)
  sessionPassword : Option (List UInt8)
  fileSize : UInt32
  filename : Option (List UInt8)
  direction : UInt8
  sessionIdControlChannel : UInt64
  /-- It exists with `QOS_MODULE`. -/
  responseTime : UInt64
deriving DecidableEq, Repr

/-- `MAX_NB_TEID` -/
def maxNbTeid : Nat := 6

/-- `session_gtp_stat_t` -/
structure GtpStat where
  teids : List UInt32
  ip : OuterIp
  size : teids.length = maxNbTeid
deriving DecidableEq, Repr

def GtpStat.zero : GtpStat := ⟨List.replicate maxNbTeid 0, .unknown, List.length_replicate⟩

/-- The structure behind a pointer of the union. One for FTP can be printed, but none is
ever allocated: `session_report_register` does not register the handlers of FTP. -/
inductive AppStat where
  | web (stat : WebStat)
  | ssl (stat : SslStat)
  | rtp (stat : RtpStat)
  | ftp (stat : FtpStat)
  | gtp (stat : GtpStat)
deriving DecidableEq, Repr

/-- The kind with which a structure was allocated. -/
def AppStat.kind : AppStat → AppType
  | .web _ => .web
  | .ssl _ => .ssl
  | .rtp _ => .rtp
  | .ftp _ => .ftp
  | .gtp _ => .gtp

/-- `session_stat_t` -/
structure SessionStat extends Traffic where
  appType : AppType
  apps : Option AppStat
  qos : QosStat
deriving DecidableEq, Repr

/-- The statistics of a new session are zero. -/
def SessionStat.fresh : SessionStat := ⟨.zero, .ip, none, .zero⟩

/-- Why a callback does not return. -/
inductive Crash where
  /-- A `NULL` `session_stat` is dereferenced. -/
  | nullStat
  /-- The `NULL` result of `_get_gtp_session_data` is dereferenced. -/
  | nullGtp
  /-- "Impossible: stat_type must be .." -/
  | impossible (appType : AppType)
  /-- A structure is accessed as one of another kind. -/
  | confused
deriving DecidableEq, Repr

/-! ## Copying a header line -/

/-- Characters that a JSON text cannot hold are replaced. -/
def jsonByte (byte : UInt8) : UInt8 :=
  if byte ∈ [8, 12, 10, 13, 9, 92] then 46 else if byte = 34 then 39 else byte

/-- `dpi_copy_string_value`: the text that stands in a target of `size` bytes
afterwards. -/
def copyStringValue (size : Nat) (val : Option (List UInt8)) : List UInt8 :=
  match val with
  | none => []
  | some line => cstring ((line.take (size - 1)).map jsonByte)

/-- `has_string` -/
def hasString (text : List UInt8) : Bool := !text.isEmpty

/-! ## Callbacks of the applications -/

/-- `_get_packet_session` of the web and of the RTP module: a structure is
allocated at the first callback, and the session is marked with the type. -/
def getPacketSession (own : AppType) (new : AppStat) (stat : SessionStat) :
    Except Crash SessionStat :=
  if stat.appType ≠ .ip ∧ stat.appType ≠ own then .error (.impossible stat.appType)
  else .ok { stat with apps := some (stat.apps.getD new), appType := own }

/-- Access the web structure. -/
def asWeb : Option AppStat → Except Crash WebStat
  | some (.web web) => .ok web
  | _ => .error .confused

/-- Access the SSL structure. -/
def asSsl : Option AppStat → Except Crash SslStat
  | some (.ssl ssl) => .ok ssl
  | _ => .error .confused

/-- Access the RTP structure. -/
def asRtp : Option AppStat → Except Crash RtpStat
  | some (.rtp rtp) => .ok rtp
  | _ => .error .confused

/-- Access the GTP structure. -/
def asGtp : Option AppStat → Except Crash GtpStat
  | some (.gtp gtp) => .ok gtp
  | _ => .error .confused

/-- Change the web structure. -/
def SessionStat.putWeb (stat : SessionStat) (web : WebStat) : SessionStat :=
  { stat with apps := some (.web web) }

/-- The attributes of HTTP with a callback, except the method. -/
inductive WebAttribute where
  | uri (val : Option (List UInt8))
  | response (val : Option (List UInt8))
  | contentType (val : Option (List UInt8))
  | host (val : Option (List UInt8))
  | referer (val : Option (List UInt8))
  | xcdnSeen (val : Option UInt8)
  | contentLen (val : Option (List UInt8))
deriving DecidableEq, Repr

/-- What the callbacks `_web_uri_handle` and so on write. The time of the packet is
stored with `QOS_MODULE` only. -/
def WebStat.handle (build : Build) (web : WebStat) (ts : Timeval) : WebAttribute → WebStat
  | .uri val => { web with uri := copyStringValue 1024 val }
  | .response val =>
      { web with
        responseTime := if build.qosModule then ts else web.responseTime
        transactionIndicator := 0
        response := copyStringValue 20 val }
  | .contentType val =>
      if hasString web.mimeType then web else { web with mimeType := copyStringValue 127 val }
  | .host val =>
      if hasString web.hostname then web else { web with hostname := copyStringValue 64 val }
  | .referer val => { web with referer := copyStringValue 255 val }
  | .xcdnSeen val => { web with xcdnSeen := val.isSome }
  | .contentLen val => { web with contentLen := copyStringValue 20 val }

/-- A callback of the web module on a session with statistics. -/
def webHandle (build : Build) (stat : SessionStat) (ts : Timeval) (att : WebAttribute) :
    Except Crash SessionStat := do
  let stat ← getPacketSession .web (.web .reset) stat
  let web ← asWeb stat.apps
  return stat.putWeb (web.handle build ts att)

/-- The SSL structure is allocated when there is none. Only then the session is
marked. -/
def attachSsl (stat : SessionStat) : SessionStat :=
  match stat.apps with
  | none => { stat with apps := some (.ssl ⟨[]⟩), appType := .ssl }
  | some _ => stat

/-- `_ssl_server_name_handle` -/
def sslServerNameHandle (stat : SessionStat) (val : Option (List UInt8)) :
    Except Crash SessionStat :=
  if stat.appType ≠ .ip ∧ stat.appType ≠ .ssl then .error (.impossible stat.appType)
  else
    match val with
    | none | some [] => .ok (attachSsl stat)
    | some (byte :: line) => do
        let ssl ← asSsl (attachSsl stat).apps
        return { attachSsl stat with
          apps := some (.ssl { ssl with hostname := copyStringValue 64 (some (byte :: line)) }) }

/-- The attributes of RTP with a callback. -/
inductive RtpAttribute where
  | version
  | jitter (val : Option UInt32)
  | loss (val : Option UInt16)
  | errorOrder (val : Option UInt16)
  | burstLoss (val : Option UInt16)
deriving DecidableEq, Repr

/-- What the callbacks `_rtp_version_handle` and so on write. -/
def RtpStat.handle (rtp : RtpStat) : RtpAttribute → RtpStat
  | .version => { rtp with packetsNb := rtp.packetsNb + 1 }
  | .jitter val => { rtp with jitter := max rtp.jitter (val.getD 0) }
  | .loss val => { rtp with nbLost := rtp.nbLost + (val.getD 0).toUInt32 }
  | .errorOrder val => { rtp with nbOrderError := rtp.nbOrderError + (val.getD 0).toUInt32 }
  | .burstLoss val => { rtp with nbLossBursts := rtp.nbLossBursts + if val.isSome then 1 else 0 }

/-- A callback of the RTP module on a session with statistics. -/
def rtpHandle (stat : SessionStat) (att : RtpAttribute) : Except Crash SessionStat := do
  let stat ← getPacketSession .rtp (.rtp .reset) stat
  let rtp ← asRtp stat.apps
  return { stat with apps := some (.rtp (rtp.handle att)) }

/-- `_gtp_update_ip` -/
def GtpStat.updateIp (gtp : GtpStat) (outer : OuterIp) : GtpStat :=
  if gtp.ip ≠ .unknown then gtp else { gtp with ip := outer }

/-- The loop of `_gtp_update_teid`. -/
def addTeid (teid : UInt32) : List UInt32 → List UInt32
  | [] => []
  | known :: teids =>
      if known = teid then known :: teids
      else if known = 0 then teid :: teids
      else known :: addTeid teid teids

theorem length_addTeid (teid : UInt32) (teids : List UInt32) :
    (addTeid teid teids).length = teids.length := by
  induction teids with
  | nil => rfl
  | cons known teids ih =>
      rw [addTeid]
      split_ifs
      · rfl
      · rfl
      · rw [List.length_cons, ih, List.length_cons]

/-- `_gtp_update_teid` -/
def GtpStat.updateTeid (gtp : GtpStat) : Option UInt32 → GtpStat
  | none => gtp
  | some teid =>
      { gtp with
        teids := addTeid teid gtp.teids
        size := (length_addTeid teid gtp.teids).trans gtp.size }

/-- `_get_gtp_session_data` with `create_if_need`: the pointer it returns. The type
of the session is not looked at. -/
def getGtpSessionData : Option SessionStat → Option SessionStat × Option AppStat
  | none => (none, none)
  | some stat =>
      match stat.apps with
      | none => (some { stat with appType := .gtp, apps := some (.gtp .zero) }, some (.gtp .zero))
      | some app => (some stat, some app)

/-- `_gtp_ip_src_handle`, when the session is the one on top of GTP. -/
def gtpIpSrcHandle (stat : Option SessionStat) (outer : OuterIp) (teid : Option UInt32) :
    Except Crash (Option SessionStat) :=
  match getGtpSessionData stat with
  | (_, none) => .error .nullGtp
  | (stat, some app) => do
      let gtp ← asGtp (some app)
      let gtp := (gtp.updateIp outer).updateTeid teid
      return stat.map fun stat => { stat with apps := some (.gtp gtp) }

/-! ## What the callbacks keep -/

/-- The structure behind the pointer is of the kind that the type names, and there is
none in a session without an application. -/
def SessionStat.Tagged (stat : SessionStat) : Prop :=
  (stat.appType = .ip ∧ stat.apps = none) ∨ ∃ app, stat.apps = some app ∧ app.kind = stat.appType

variable {stat target : SessionStat}

/-- In a session with its structure in place, the structure of a type that is not IP
is there. -/
theorem SessionStat.Tagged.exists_of_ne (tagged : stat.Tagged) (app : stat.appType ≠ .ip) :
    ∃ app, stat.apps = some app ∧ app.kind = stat.appType := by
  rcases tagged with ⟨hip, _⟩ | happ
  · exact absurd hip app
  · exact happ

theorem SessionStat.Tagged.none_of_ip (tagged : stat.Tagged) (ip : stat.appType = .ip) :
    stat.apps = none := by
  rcases tagged with ⟨_, hnone⟩ | ⟨app, _, hkind⟩
  · exact hnone
  · rw [ip] at hkind
    cases app <;> simp [AppStat.kind] at hkind

/-- The first access of the web and of the RTP module stops at a session of another
application, and otherwise leaves one of its own. -/
theorem getPacketSession_of_tagged (own : AppType) (new : AppStat) (tagged : stat.Tagged)
    (kind : new.kind = own) (allowed : stat.appType = .ip ∨ stat.appType = own) :
    ∃ app, app.kind = own ∧
      getPacketSession own new stat = .ok { stat with apps := some app, appType := own } := by
  have hguard : ¬ (stat.appType ≠ .ip ∧ stat.appType ≠ own) := by
    rintro ⟨hip, hown⟩
    exact allowed.elim hip hown
  unfold getPacketSession
  rw [if_neg hguard]
  rcases tagged with ⟨_, hnone⟩ | ⟨app, happ, hkind⟩
  · exact ⟨new, kind, by rw [hnone]; rfl⟩
  · refine ⟨app, ?_, by rw [happ]; rfl⟩
    rcases allowed with hip | hown
    · rw [hip] at hkind
      cases app <;> simp [AppStat.kind] at hkind
    · rw [hkind, hown]

theorem getPacketSession_of_other {own : AppType} {new : AppStat} (ip : stat.appType ≠ .ip)
    (other : stat.appType ≠ own) :
    getPacketSession own new stat = .error (.impossible stat.appType) := by
  unfold getPacketSession
  rw [if_pos ⟨ip, other⟩]

/-- A callback of the web module that is not stopped by the type. -/
theorem webHandle_of_tagged (build : Build) (ts : Timeval) (att : WebAttribute)
    (tagged : stat.Tagged) (allowed : stat.appType = .ip ∨ stat.appType = .web) :
    ∃ web, webHandle build stat ts att =
      .ok { stat with apps := some (.web web), appType := .web } := by
  rcases getPacketSession_of_tagged .web (.web .reset) tagged rfl allowed with ⟨app, hkind, hget⟩
  cases app with
  | web web =>
      refine ⟨web.handle build ts att, ?_⟩
      unfold webHandle
      rw [hget]
      rfl
  | ssl _ | rtp _ | ftp _ | gtp _ => simp [AppStat.kind] at hkind

/-- A callback of the RTP module that is not stopped by the type. -/
theorem rtpHandle_of_tagged (att : RtpAttribute) (tagged : stat.Tagged)
    (allowed : stat.appType = .ip ∨ stat.appType = .rtp) :
    ∃ rtp, rtpHandle stat att = .ok { stat with apps := some (.rtp rtp), appType := .rtp } := by
  rcases getPacketSession_of_tagged .rtp (.rtp .reset) tagged rfl allowed with ⟨app, hkind, hget⟩
  cases app with
  | rtp rtp =>
      refine ⟨rtp.handle att, ?_⟩
      unfold rtpHandle
      rw [hget]
      rfl
  | web _ | ssl _ | ftp _ | gtp _ => simp [AppStat.kind] at hkind

/-- The callback of the SSL module that is not stopped by the type. -/
theorem sslServerNameHandle_of_tagged (val : Option (List UInt8)) (tagged : stat.Tagged)
    (allowed : stat.appType = .ip ∨ stat.appType = .ssl) :
    ∃ ssl, sslServerNameHandle stat val =
      .ok { stat with apps := some (.ssl ssl), appType := .ssl } := by
  have hguard : ¬ (stat.appType ≠ .ip ∧ stat.appType ≠ .ssl) := by
    rintro ⟨hip, hown⟩
    exact allowed.elim hip hown
  have hattach : ∃ ssl, attachSsl stat =
      { stat with apps := some (.ssl ssl), appType := .ssl } := by
    unfold attachSsl
    rcases allowed with hip | hssl
    · rw [tagged.none_of_ip hip]
      exact ⟨⟨[]⟩, rfl⟩
    · rcases tagged.exists_of_ne (by rw [hssl]; decide) with ⟨app, happ, hkind⟩
      rw [hssl] at hkind
      cases app with
      | ssl ssl => exact ⟨ssl, by simp only [happ, ← hssl]; rw [← happ]⟩
      | web _ | rtp _ | ftp _ | gtp _ => simp [AppStat.kind] at hkind
  rcases hattach with ⟨ssl, hattach⟩
  unfold sslServerNameHandle
  rw [if_neg hguard, hattach]
  cases val with
  | none => exact ⟨ssl, rfl⟩
  | some line =>
      cases line with
      | nil => exact ⟨ssl, rfl⟩
      | cons byte line => exact ⟨⟨copyStringValue 64 (some (byte :: line))⟩, rfl⟩

/-- The callback of the GTP module on a session without an application or with its
own. -/
theorem gtpIpSrcHandle_of_tagged (outer : OuterIp) (teid : Option UInt32) (tagged : stat.Tagged)
    (allowed : stat.appType = .ip ∨ stat.appType = .gtp) :
    ∃ gtp, gtpIpSrcHandle (some stat) outer teid =
      .ok (some { stat with apps := some (.gtp gtp), appType := .gtp }) := by
  unfold gtpIpSrcHandle getGtpSessionData
  rcases allowed with hip | hgtp
  · refine ⟨(GtpStat.zero.updateIp outer).updateTeid teid, ?_⟩
    simp only [tagged.none_of_ip hip]
    rfl
  · rcases tagged.exists_of_ne (by rw [hgtp]; decide) with ⟨app, happ, hkind⟩
    rw [hgtp] at hkind
    cases app with
    | gtp gtp =>
        refine ⟨(gtp.updateIp outer).updateTeid teid, ?_⟩
        simp only [happ, ← hgtp]
        rfl
    | web _ | ssl _ | rtp _ | ftp _ => simp [AppStat.kind] at hkind

/-! ## Only the application is touched -/

/-- Two statistics that differ at most in their application. -/
def SessionStat.OnlyApp (stat target : SessionStat) : Prop :=
  ∃ appType apps, target = { stat with appType := appType, apps := apps }

theorem SessionStat.OnlyApp.refl (stat : SessionStat) : stat.OnlyApp stat :=
  ⟨stat.appType, stat.apps, rfl⟩

theorem SessionStat.OnlyApp.trans {middle : SessionStat} (first : stat.OnlyApp middle)
    (second : middle.OnlyApp target) : stat.OnlyApp target := by
  rcases first with ⟨_, _, rfl⟩
  rcases second with ⟨appType, apps, rfl⟩
  exact ⟨appType, apps, rfl⟩

theorem SessionStat.OnlyApp.toTraffic_eq (only : stat.OnlyApp target) :
    target.toTraffic = stat.toTraffic := by
  rcases only with ⟨_, _, rfl⟩
  rfl

theorem SessionStat.OnlyApp.qos_eq (only : stat.OnlyApp target) : target.qos = stat.qos := by
  rcases only with ⟨_, _, rfl⟩
  rfl

theorem SessionStat.onlyApp_putWeb (stat : SessionStat) (web : WebStat) :
    stat.OnlyApp (stat.putWeb web) :=
  ⟨stat.appType, some (.web web), rfl⟩

theorem getPacketSession_onlyApp {own : AppType} {new : AppStat}
    (returned : getPacketSession own new stat = .ok target) : stat.OnlyApp target := by
  unfold getPacketSession at returned
  split_ifs at returned with hother
  exact ⟨own, _, (Except.ok.inj returned).symm⟩

theorem webHandle_onlyApp {build : Build} {ts : Timeval} {att : WebAttribute}
    (returned : webHandle build stat ts att = .ok target) : stat.OnlyApp target := by
  unfold webHandle at returned
  rcases bind_eq_ok_iff.mp returned with ⟨prepared, hprepared, returned⟩
  rcases bind_eq_ok_iff.mp returned with ⟨web, _, returned⟩
  apply (getPacketSession_onlyApp hprepared).trans
  exact ⟨prepared.appType, _, (Except.ok.inj returned).symm⟩

theorem rtpHandle_onlyApp {att : RtpAttribute} (returned : rtpHandle stat att = .ok target) :
    stat.OnlyApp target := by
  unfold rtpHandle at returned
  rcases bind_eq_ok_iff.mp returned with ⟨prepared, hprepared, returned⟩
  rcases bind_eq_ok_iff.mp returned with ⟨rtp, _, returned⟩
  apply (getPacketSession_onlyApp hprepared).trans
  exact ⟨prepared.appType, _, (Except.ok.inj returned).symm⟩

theorem attachSsl_onlyApp (stat : SessionStat) : stat.OnlyApp (attachSsl stat) := by
  unfold attachSsl
  cases stat.apps with
  | none => exact ⟨_, _, rfl⟩
  | some _ => exact .refl stat

theorem sslServerNameHandle_onlyApp {val : Option (List UInt8)}
    (returned : sslServerNameHandle stat val = .ok target) : stat.OnlyApp target := by
  unfold sslServerNameHandle at returned
  split_ifs at returned with hother
  apply (attachSsl_onlyApp stat).trans
  cases val with
  | none =>
      rw [← Except.ok.inj returned]
      exact .refl _
  | some line =>
      cases line with
      | nil =>
          rw [← Except.ok.inj returned]
          exact .refl _
      | cons byte line =>
          rcases bind_eq_ok_iff.mp returned with ⟨ssl, _, returned⟩
          exact ⟨(attachSsl stat).appType, _, (Except.ok.inj returned).symm⟩

theorem gtpIpSrcHandle_onlyApp {given : Option SessionStat} {outer : OuterIp}
    {teid : Option UInt32} (returned : gtpIpSrcHandle given outer teid = .ok (some target)) :
    ∃ stat, given = some stat ∧ stat.OnlyApp target := by
  unfold gtpIpSrcHandle getGtpSessionData at returned
  cases given with
  | none => cases returned
  | some stat =>
      refine ⟨stat, rfl, ?_⟩
      cases happs : stat.apps with
      | none =>
          simp only [happs] at returned
          exact ⟨_, _, (Option.some.inj (Except.ok.inj returned)).symm⟩
      | some app =>
          simp only [happs] at returned
          rcases bind_eq_ok_iff.mp returned with ⟨gtp, _, returned⟩
          exact ⟨stat.appType, _, (Option.some.inj (Except.ok.inj returned)).symm⟩

end MmtProbe.Dpi
