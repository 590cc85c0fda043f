/-
# The message of a session report

`_print_ip_session_report` prints 37 fields into an array of 3000 bytes.  For a session
that has an application it adds a comma, without a check, lets the application print its
own fields into the rest of the array, and stores a NUL at the place that it returns.  The
builder drops and cuts what does not fit, without a word.

Nothing is written outside the array, whatever the application is.  And nothing is cut: each
field has a largest width, and the widths of all fields of a web session add up to less than
the array.  So the message can be split into the fields again.
-/

import MmtProbe.Dpi.AppReports
import MmtProbe.Dpi.WebReport
import MmtProbe.Lib.ReportLine

namespace MmtProbe.Dpi

open MmtProbe.Configure (Build)
open MmtProbe.Math MmtProbe.Lib MmtProbe.Output

/-! ## Protocol paths -/

/-- `proto_hierarchy_t`: the identifiers of the protocols of a packet, from the lowest on. -/
structure ProtoHierarchy where
  len : Nat
  protoPath : Nat → Int

/-- The loop of `dpi_proto_hierarchy_ids_to_str`: so many identifiers, each behind a dot. -/
def protoIdsLoop (hierarchy : ProtoHierarchy) (maxLength : Nat) :
    Nat → Nat → Nat × List UInt8 → Except Fault (Nat × List UInt8)
  | 0, _, sofar => .ok sofar
  | rounds + 1, index, (offset, dest) => do
      let (written, dest) ← appendChar dest offset (maxLength - offset) 46
      let offset := offset + written
      let (written, dest) ← appendNumber dest offset (maxLength - offset)
        (UInt64.ofInt (hierarchy.protoPath index))
      protoIdsLoop hierarchy maxLength rounds (index + 1) (offset + written, dest)

/-- The identifiers; the first one that is written is the one with index 1. -/
def protoIds (hierarchy : ProtoHierarchy) (dest : List UInt8) (maxLength : Nat) :
    Except Fault (Nat × List UInt8) :=
  if 1 ≤ hierarchy.len then do
    let sofar ← appendNumber dest 0 maxLength (UInt64.ofInt (hierarchy.protoPath 1))
    protoIdsLoop hierarchy maxLength (hierarchy.len - 2) 2 sofar
  else .ok (0, dest)

/-- `dpi_proto_hierarchy_ids_to_str` -/
def dpiProtoHierarchyIdsToStr (hierarchy : ProtoHierarchy) (dest : List UInt8) (maxLength : Nat) :
    Except Fault (Nat × List UInt8) := do
  let (offset, dest) ← protoIds hierarchy dest maxLength
  let dest ← store dest offset 0
  return (offset, dest)

/-- A string that was written into an array of 128 bytes. -/
structure PathText where
  hierarchy : ProtoHierarchy
  dest : List UInt8
  size : dest.length = 128
  text : CString
  written : (dpiProtoHierarchyIdsToStr hierarchy dest 128).bind
    (fun result => loadString result.2 0) = .ok text.bytes

/-! ## The fields -/

/-- What else is printed of a session: its identity, and what the context and the packet
inspection know about it. -/
structure SessionInfo where
  statPeriodsIndex : UInt64
  protoId : Int
  pathUl : PathText
  pathDl : PathText
  totalActiveSessions : UInt64
  startTime : Timeval
  startSeconds : 0 ≤ startTime.tvSec ∧ startTime.tvSec < 10 ^ 12
  ipSrc : AddressText
  ipDst : AddressText
  macSrc : Vector UInt8 6
  macDst : Vector UInt8 6
  sessionId : UInt64
  portDst : UInt16
  portSrc : UInt16
  workerIndex : UInt16
  /-- `get_application_class_by_protocol_id` -/
  applicationClass : Int
  contentClass : UInt16
  /-- `get_session_content_flags` has `MMT_CONTENT_CDN`. -/
  contentCdn : Bool

/-- The numbers of `session_stat_type_t`. -/
def AppType.number : AppType → UInt64
  | .ip => 0
  | .web => 1
  | .ssl => 2
  | .rtp => 3
  | .ftp => 4
  | .gtp => 5

/-- `_div` -/
def div (a b : UInt64) : UInt64 := if b = 0 then 0 else a / b

/-- The elements that depend on `QOS_MODULE`. -/
def qosFields : Option QosReport → List Field
  | none => [.arr (.ofText "0,0,0,0,0,0,0,0,0,0,0")]
  | some qos =>
      [.int qos.times.handshakeTime, .int qos.times.appResponseTime,
        .int qos.times.dataTransferTime,
        .int qos.rtt.upload.min, .int qos.rtt.download.min,
        .int qos.rtt.upload.max, .int qos.rtt.download.max,
        .int (div qos.rtt.upload.sum qos.rtt.upload.counter),
        .int (div qos.rtt.download.sum qos.rtt.download.counter),
        .int qos.retransmission.upload, .int qos.retransmission.download]

/-- The elements of every report. -/
def baseFields (info : SessionInfo) (report : SessionReport) : List Field :=
  [.int info.statPeriodsIndex, .int (UInt64.ofInt info.protoId),
    .str info.pathUl.text, .str info.pathDl.text,
    .int info.totalActiveSessions,
    .int report.volumes.total, .int report.payload.total, .int report.packets.total,
    .int report.volumes.ul, .int report.payload.ul, .int report.packets.ul,
    .int report.volumes.dl, .int report.payload.dl, .int report.packets.dl,
    .time info.startTime, .str info.ipSrc.text, .str info.ipDst.text,
    .mac info.macSrc, .mac info.macDst,
    .int info.sessionId, .int info.portDst.toUInt64, .int info.portSrc.toUInt64,
    .int info.workerIndex.toUInt64] ++
  qosFields report.qos ++
  [.int report.appType.number, .int (UInt64.ofInt info.applicationClass),
    .int info.contentClass.toUInt64]

/-- The `cdn_flag` of `print_web_report` -/
def cdnFlag (info : SessionInfo) (web : WebStat) : UInt64 :=
  if web.xcdnSeen then 1 else if info.contentCdn then 2 else 0

/-- The elements of `print_web_report` that depend on `QOS_MODULE`. -/
def webTimes (build : Build) (web : WebStat) : List Field :=
  if build.qosModule then
    [.int (UInt64.ofInt web.printedResponseTime), .int web.requestNb.toUInt64,
      .int (UInt64.ofInt web.interactionTime)]
  else [.arr (.ofText "0,0,0")]

/-- The elements of `print_web_report`. -/
def webFields (build : Build) (info : SessionInfo) (web : WebStat) : List Field :=
  webTimes build web ++
    [.str (.of web.hostname), .str (.of web.mimeType), .str (.of web.referer),
      .int (cdnFlag info web), .str (.of web.uri), .str (.of web.method), .str (.of web.response),
      .str (.of web.contentLen), .int web.transactionIndicator.toUInt64]

/-- The two values of `print_ssl_report`. -/
def sslFields (info : SessionInfo) (ssl : SslStat) : List Field :=
  [.str (.of ssl.hostname), .int (if info.contentCdn then 2 else 0)]

/-! ## The message -/

/-- The part of the application, in the rest of the message.  Each function looks first
whether its structure is there, and prints nothing of one that is not. -/
def printAppPart (printer : AddressPrinter) (build : Build) (info : SessionInfo)
    (report : SessionReport) (rest : List UInt8) : Except Stop (Nat × List UInt8) :=
  match report.appType, report.app with
  | .web, some (.web web) =>
      stringBuilderWithSeparator 0 rest rest.length (.ofText ",") (webFields build info web)
  | .ssl, some (.ssl ssl) =>
      -- the comma is an element of its own
      stringBuilder 0 rest rest.length ((sslFields info ssl).intersperse (.char 44))
  | .rtp, some (.rtp rtp) => printRtpReport rtp rest
  | .ftp, some (.ftp ftp) => printFtpReport build ftp rest
  | .gtp, some (.gtp gtp) => printGtpReport printer gtp rest
  | _, _ => .ok (0, rest)

/-- The message that `_print_ip_session_report` builds. -/
def printMessage (printer : AddressPrinter) (build : Build) (info : SessionInfo)
    (report : SessionReport) (message : ReportArray) : Except Stop (List UInt8) := do
  let (valid, message) ← stringBuilderWithSeparator 0 message.val maxLengthReportMessage
    (.ofText ",")
    (baseFields info report)
  if report.appType = .ip then return message
  else do
    let message ← (store message valid 44).mapError .fault
    let valid := valid + 1
    let (written, rest) ← printAppPart printer build info report (message.drop valid)
    let message := message.take valid ++ rest
    (store message (valid + written) 0).mapError .fault

/-! ## What is wanted -/

/-- The fields that an application adds. -/
def appFields (build : Build) (info : SessionInfo) (report : SessionReport) : List Field :=
  match report.app with
  | some (.web web) => webFields build info web
  | some (.ssl ssl) => sslFields info ssl
  | _ => []

/-- How many fields a report has. -/
def fieldCount : AppType → Nat
  | .web => 37 + 12
  | .ssl => 37 + 2
  | _ => 37

/-- A text that `dpi_copy_string_value` stored in an array of some size, or an empty one. -/
def StoredIn (size : Nat) (text : List UInt8) : Prop := ∃ val, text = copyStringValue size val

/-- The texts of an application were stored in their arrays. -/
def AppStat.TextsStored : AppStat → Prop
  | .web stat => StoredIn 127 stat.mimeType ∧ StoredIn 64 stat.hostname ∧
      StoredIn 255 stat.referer ∧ StoredIn 10 stat.method ∧ StoredIn 1024 stat.uri ∧
      StoredIn 20 stat.response ∧ StoredIn 20 stat.contentLen
  | .ssl stat => StoredIn 64 stat.hostname
  | _ => True

/-- The message of a report is complete: whatever the application is, nothing is written
outside the array and the base part is not cut, and the message of a session of IP, web or
SSL is split into all its fields.  Every write is checked, so a message that is returned was
written inside the array. -/
structure Complete (printer : AddressPrinter) (build : Build) (info : SessionInfo)
    (report : SessionReport) (message : ReportArray) : Prop where
  base : ∃ valid after text, stringBuilderWithSeparator 0 message.val maxLengthReportMessage
      (.ofText ",") (baseFields info report) = .ok (valid, after) ∧
    valid + 1 < maxLengthReportMessage ∧ loadString after 0 = .ok text ∧
    splitCsv text = (baseFields info report).map Field.full ∧ (splitCsv text).length = 37
  inside : ∃ after, printMessage printer build info report message = .ok after ∧
    after.length = maxLengthReportMessage
  whole : report.appType = .ip ∨ report.appType = .web ∨ report.appType = .ssl →
    ∃ after body, printMessage printer build info report message = .ok after ∧
      after.length = maxLengthReportMessage ∧ loadString after 0 = .ok body ∧
      splitCsv body = (baseFields info report ++ appFields build info report).map Field.full ∧
      (splitCsv body).length = fieldCount report.appType

/-! ## Protocol paths hold digits and dots -/

/-- A character of a protocol path. -/
def PathByte (byte : UInt8) : Prop := isDigit byte = true ∨ byte = 46

/-- What was written so far at the beginning of an array of 128 bytes. -/
def PathSofar (array : List UInt8) (sofar : Nat × List UInt8) : Prop :=
  ∃ text, (∀ byte ∈ text, PathByte byte) ∧ text.length ≤ 128 ∧
    sofar = (text.length, splice array 0 text)

variable {array : List UInt8} {hierarchy : ProtoHierarchy}

theorem pathByte_of_mem_numberText {room val : Nat} :
    ∀ byte ∈ numberText room val, PathByte byte := by
  intro byte listed
  rw [numberText] at listed
  split_ifs at listed
  · exact .inl (isDigit_of_mem_fixed listed)
  · cases listed

/-- A number behind what was written so far. -/
theorem appendNumber_pathSofar (size : array.length = 128) {text : List UInt8}
    (bytes : ∀ byte ∈ text, PathByte byte) (inside : text.length ≤ 128) (val : UInt64) :
    ∃ written dest, appendNumber (splice array 0 text) text.length (128 - text.length) val =
      .ok (written, dest) ∧ PathSofar array (text.length + written, dest) := by
  have hlength : (splice array 0 text).length = 128 := by
    rw [length_splice (by omega), size]
  have hroom := length_numberText_le (128 - text.length) val.toNat
  refine ⟨_, _, appendNumber_eq (by omega) (by omega) val, text ++
    numberText (128 - text.length) val.toNat, ?_, ?_, ?_⟩
  · intro byte listed
    rcases List.mem_append.mp listed with hbyte | hbyte
    · exact bytes byte hbyte
    · exact pathByte_of_mem_numberText byte hbyte
  · rw [List.length_append]
    omega
  · rw [List.length_append, splice_splice_zero (by omega)]

/-- A dot behind what was written so far. -/
theorem appendChar_pathSofar (size : array.length = 128) {text : List UInt8}
    (bytes : ∀ byte ∈ text, PathByte byte) (inside : text.length ≤ 128) :
    ∃ written dest, appendChar (splice array 0 text) text.length (128 - text.length) 46 =
      .ok (written, dest) ∧ PathSofar array (text.length + written, dest) := by
  have hlength : (splice array 0 text).length = 128 := by
    rw [length_splice (by omega), size]
  have hchar := @appendChar_eq (splice array 0 text) text.length (128 - text.length) (by omega) 46
  have hdot : ∃ dot : List UInt8,
      appendChar (splice array 0 text) text.length (128 - text.length) 46 =
      .ok (dot.length, splice (splice array 0 text) text.length dot) ∧
      dot.length ≤ 128 - text.length ∧ ∀ byte ∈ dot, PathByte byte := by
    refine ⟨_, hchar, ?_, ?_⟩
    · split_ifs
      · exact Nat.zero_le _
      · rw [List.length_singleton]
        omega
    · intro byte listed
      split_ifs at listed
      · cases listed
      · exact .inr (List.mem_singleton.mp listed)
  rcases hdot with ⟨dot, hwritten, hroom, hdot⟩
  refine ⟨_, _, hwritten, text ++ dot, ?_, ?_, ?_⟩
  · intro byte listed
    rcases List.mem_append.mp listed with hbyte | hbyte
    · exact bytes byte hbyte
    · exact hdot byte hbyte
  · rw [List.length_append]
    omega
  · rw [List.length_append, splice_splice_zero (by omega)]

theorem protoIdsLoop_pathSofar (size : array.length = 128) (rounds index : Nat)
    {sofar : Nat × List UInt8} (path : PathSofar array sofar) :
    ∃ result, protoIdsLoop hierarchy 128 rounds index sofar = .ok result ∧
      PathSofar array result := by
  induction rounds generalizing index sofar with
  | zero => exact ⟨sofar, rfl, path⟩
  | succ rounds ih =>
      rcases path with ⟨text, hbytes, hinside, rfl⟩
      rcases appendChar_pathSofar size hbytes hinside with ⟨written, dest, hchar, hdot⟩
      rcases hdot with ⟨dotted, hbytes', hinside', heq⟩
      rw [Prod.mk.injEq] at heq
      rcases appendNumber_pathSofar size hbytes' hinside' (UInt64.ofInt (hierarchy.protoPath index))
        with ⟨written', dest', hnumber, hpath⟩
      rcases ih (index + 1) hpath with ⟨result, hrest, hresult⟩
      refine ⟨result, ?_, hresult⟩
      simp only [protoIdsLoop, hchar, bind_ok, heq.1, heq.2, hnumber, hrest]

theorem protoIds_pathSofar (size : array.length = 128) :
    ∃ result, protoIds hierarchy array 128 = .ok result ∧ PathSofar array result := by
  have hempty : PathSofar array (0, array) :=
    ⟨[], nofun, Nat.zero_le _, by rw [splice_nil]; rfl⟩
  rw [protoIds]
  split_ifs
  · rcases @appendNumber_pathSofar array size [] nofun (Nat.zero_le _)
      (UInt64.ofInt (hierarchy.protoPath 1)) with ⟨written, dest, hnumber, hpath⟩
    rw [splice_nil, List.length_nil, Nat.sub_zero] at hnumber
    rw [List.length_nil, Nat.zero_add] at hpath
    rw [hnumber, bind_ok]
    exact protoIdsLoop_pathSofar size _ _ hpath
  · exact ⟨_, rfl, hempty⟩

namespace PathText

variable (path : PathText)

/-- A path that was written completely is short, and holds digits and dots only. -/
theorem text_bounds : path.text.bytes.length < 128 ∧ ∀ byte ∈ path.text.bytes, PathByte byte := by
  have hsize := path.size
  rcases @protoIds_pathSofar path.dest path.hierarchy hsize with ⟨result, hids, hpath⟩
  rcases hpath with ⟨text, hbytes, hinside, rfl⟩
  have hlength : (splice path.dest 0 text).length = 128 := by
    rw [length_splice (by omega), hsize]
  have hwritten := path.written
  rw [dpiProtoHierarchyIdsToStr, hids, bind_ok] at hwritten
  by_cases hfits : text.length < 128
  · have hclose : store (splice path.dest 0 text) (0 + text.length) 0 =
        .ok (splice path.dest 0 (text ++ [0])) := store_splice text (by omega) 0
    have hplain : (0 : UInt8) ∉ text := by
      intro listed
      rcases hbytes 0 listed with hdigit | hdot
      · exact absurd hdigit (by decide)
      · exact absurd hdot (by decide)
    have hread : loadString (splice path.dest 0 (text ++ [0])) 0 = .ok text :=
      loadString_splice (by omega) hplain
    rw [Nat.zero_add] at hclose
    simp only [hclose, bind_ok] at hwritten
    rw [← Except.ok.inj (hread.symm.trans hwritten)]
    exact ⟨hfits, hbytes⟩
  · -- there is no room for the NUL
    simp only [store, if_neg (show ¬ text.length < (splice path.dest 0 text).length by omega)]
      at hwritten
    cases hwritten

theorem length_text_lt : path.text.bytes.length < 128 := path.text_bounds.1

theorem noQuote : (34 : UInt8) ∉ path.text.bytes := by
  intro listed
  rcases path.text_bounds.2 34 listed with hdigit | hdot
  · exact absurd hdigit (by decide)
  · exact absurd hdot (by decide)

end PathText

/-! ## All fields are clean, and together they are short -/

theorem noQuote_copyStringValue (size : Nat) (val : Option (List UInt8)) :
    (34 : UInt8) ∉ copyStringValue size val := by
  have hbyte : ∀ byte, jsonByte byte ≠ 34 := by
    intro byte
    rw [jsonByte]
    split_ifs with hlisted hquote
    · decide
    · decide
    · exact hquote
  cases val with
  | none => exact List.not_mem_nil
  | some line =>
      intro listed
      rcases List.mem_map.mp ((List.takeWhile_subset _) listed) with ⟨byte, -, hsame⟩
      exact hbyte byte hsame

theorem length_copyStringValue_le (size : Nat) (val : Option (List UInt8)) :
    (copyStringValue size val).length ≤ size - 1 := by
  cases val with
  | none => exact Nat.zero_le _
  | some line =>
      apply (length_cstring_le _).trans
      rw [List.length_map]
      exact List.length_take_le _ _

theorem clean_str_of_stored {size : Nat} {text : List UInt8} (stored : StoredIn size text) :
    (Field.str (.of text)).Clean := by
  rcases stored with ⟨val, rfl⟩
  apply Field.clean_str
  intro listed
  exact noQuote_copyStringValue size val ((List.takeWhile_subset _) listed)

theorem width_str_le {size : Nat} {text : List UInt8} (stored : StoredIn size text) :
    (Field.str (.of text)).width ≤ size - 1 + 2 := by
  rcases stored with ⟨val, rfl⟩
  have hof : (CString.of (copyStringValue size val)).bytes.length ≤
      (copyStringValue size val).length := length_cstring_le _
  have hle := length_copyStringValue_le size val
  rw [Field.width]
  omega

variable {build : Build} {info : SessionInfo} {report : SessionReport}

theorem clean_baseFields (quality : report.qos.isSome) :
    ∀ field ∈ baseFields info report, field.Clean := by
  rcases Option.isSome_iff_exists.mp quality with ⟨qos, hqos⟩
  simp [baseFields, qosFields, hqos, Field.clean_str info.pathUl.noQuote,
    Field.clean_str info.pathDl.noQuote, Field.clean_time info.startSeconds,
    Field.clean_str info.ipSrc.noQuote, Field.clean_str info.ipDst.noQuote]

theorem length_baseFields (quality : report.qos.isSome) : (baseFields info report).length = 37 := by
  rcases Option.isSome_iff_exists.mp quality with ⟨qos, hqos⟩
  rw [baseFields, hqos]
  rfl

theorem length_baseFields_le : (baseFields info report).length ≤ 37 := by
  cases hqos : report.qos with
  | none =>
      rw [baseFields, hqos]
      exact Nat.le_of_ble_eq_true rfl
  | some qos => exact Nat.le_of_eq (length_baseFields (by rw [hqos]; rfl))

/-- The zeros that stand for the quality of service are one text. -/
theorem zeros_full : (Field.arr (.ofText "0,0,0,0,0,0,0,0,0,0,0")).full.length = 21 ∧
    (0 : UInt8) ∉ (Field.arr (.ofText "0,0,0,0,0,0,0,0,0,0,0")).full := by
  decide +kernel

theorem width_baseFields_le : ((baseFields info report).map Field.width).sum ≤ 1009 := by
  have hul := info.pathUl.length_text_lt
  have hdl := info.pathDl.length_text_lt
  have hsrc : info.ipSrc.text.bytes.length < 46 := info.ipSrc.short
  have hdst : info.ipDst.text.bytes.length < 46 := info.ipDst.short
  have hzeros : (CString.ofText "0,0,0,0,0,0,0,0,0,0,0").bytes.length = 21 := zeros_full.1
  cases hqos : report.qos with
  | none =>
      simp only [baseFields, hqos, qosFields, List.cons_append, List.nil_append, List.map_cons,
        List.map_nil, List.sum_cons, List.sum_nil, Field.width, hzeros]
      omega
  | some qos =>
      simp only [baseFields, hqos, qosFields, List.cons_append, List.nil_append, List.map_cons,
        List.map_nil, List.sum_cons, List.sum_nil, Field.width]
      omega

/-- With and without the quality of service, the elements are printed without a NUL. -/
theorem printable_baseFields :
    ∀ field ∈ baseFields info report, field.Timely ∧ (0 : UInt8) ∉ field.full := by
  cases hqos : report.qos with
  | none =>
      have hclean : ∀ field : Field, field.Clean → field.Timely ∧ (0 : UInt8) ∉ field.full :=
        fun field clean => ⟨clean.timely, clean.plain⟩
      have hzeros : (Field.arr (.ofText "0,0,0,0,0,0,0,0,0,0,0")).Timely ∧
          (0 : UInt8) ∉ (Field.arr (.ofText "0,0,0,0,0,0,0,0,0,0,0")).full :=
        ⟨trivial, zeros_full.2⟩
      simp [baseFields, qosFields, hqos, hzeros,
        hclean _ (Field.clean_int _), hclean _ (Field.clean_mac _),
        hclean _ (Field.clean_str info.pathUl.noQuote),
        hclean _ (Field.clean_str info.pathDl.noQuote),
        hclean _ (Field.clean_time info.startSeconds),
        hclean _ (Field.clean_str info.ipSrc.noQuote),
        hclean _ (Field.clean_str info.ipDst.noQuote)]
  | some qos =>
      intro field listed
      have hclean := clean_baseFields (by rw [hqos]; rfl) field listed
      exact ⟨hclean.timely, hclean.plain⟩

theorem clean_appFields (quality : build.qosModule = true)
    (stored : ∀ app, report.app = some app → app.TextsStored) :
    ∀ field ∈ appFields build info report, field.Clean := by
  rw [appFields]
  split
  next web happ =>
    rcases stored _ happ with ⟨hmime, hhost, hreferer, hmethod, huri, hresponse, hlength⟩
    simp [webFields, webTimes, quality, clean_str_of_stored hmime, clean_str_of_stored hhost,
      clean_str_of_stored hreferer, clean_str_of_stored hmethod, clean_str_of_stored huri,
      clean_str_of_stored hresponse, clean_str_of_stored hlength]
  next ssl happ =>
    have hhost : StoredIn 64 ssl.hostname := stored _ happ
    simp [sslFields, clean_str_of_stored hhost]
  next => nofun

theorem width_appFields_le (quality : build.qosModule = true)
    (stored : ∀ app, report.app = some app → app.TextsStored) :
    ((appFields build info report).map Field.width).sum ≤ 1627 := by
  rw [appFields]
  split
  next web happ =>
    rcases stored _ happ with ⟨hmime, hhost, hreferer, hmethod, huri, hresponse, hlength⟩
    have hmime := width_str_le hmime
    have hhost := width_str_le hhost
    have hreferer := width_str_le hreferer
    have hmethod := width_str_le hmethod
    have huri := width_str_le huri
    have hresponse := width_str_le hresponse
    have hlength := width_str_le hlength
    have hint : ∀ val, (Field.int val).width = 20 := fun _ => rfl
    simp only [webFields, webTimes, if_pos quality, List.cons_append, List.nil_append,
      List.map_cons, List.map_nil, List.sum_cons, List.sum_nil, hint]
    omega
  next ssl happ =>
    have hhost := width_str_le (show StoredIn 64 ssl.hostname from stored _ happ)
    have hint : ∀ val, (Field.int val).width = 20 := fun _ => rfl
    simp only [sslFields, List.map_cons, List.map_nil, List.sum_cons, List.sum_nil, hint]
    omega
  next => exact Nat.zero_le _

/-! ## The message is complete -/

/-- Clean elements with commas between them, in a block with enough room. -/
theorem comma_eq {block : List UInt8} {fields : List Field} (clean : ∀ field ∈ fields, field.Clean)
    (room : (joined [44] fields).length + 16 ≤ block.length) (small : block.length ≤ 2 ^ 31) :
    stringBuilderWithSeparator 0 block block.length (.ofText ",") fields =
      .ok ((joined [44] fields).length,
        joined [44] fields ++ 0 :: block.drop ((joined [44] fields).length + 1)) := by
  have hbuild := @build_zero_eq block (some (.ofText ",")) fields
    (fun field listed => (clean field listed).timely)
  rw [separatorBytes_comma] at hbuild
  exact hbuild room small

variable {printer : AddressPrinter} {rest : List UInt8}

/-- The number of fields that an application adds. -/
theorem length_appFields (quality : build.qosModule = true) {app : AppStat}
    (happ : report.app = some app) (kind : app.kind = report.appType) :
    37 + (appFields build info report).length = fieldCount report.appType := by
  rw [← kind, appFields, happ]
  cases app with
  | web web =>
      simp only [webFields, webTimes, if_pos quality]
      rfl
  | _ => rfl

/-- SSL prints its comma as an element of its own. -/
theorem sslBuild_eq (ssl : SslStat)
    (room : (joined [44] (sslFields info ssl)).length + 16 ≤ rest.length)
    (small : rest.length ≤ 2 ^ 31) :
    stringBuilder 0 rest rest.length ((sslFields info ssl).intersperse (.char 44)) =
      .ok ((joined [44] (sslFields info ssl)).length, joined [44] (sslFields info ssl) ++
        0 :: rest.drop ((joined [44] (sslFields info ssl)).length + 1)) := by
  have hjoined : joined (separatorBytes none) ((sslFields info ssl).intersperse (.char 44)) =
      joined [44] (sslFields info ssl) := rfl
  have htimely : ∀ field ∈ (sslFields info ssl).intersperse (.char 44), field.Timely := by
    simp [sslFields, List.intersperse, Field.Timely]
  have hbuild := @build_zero_eq rest none _ htimely
  rw [hjoined] at hbuild
  exact hbuild room small

/-- The part of a web or of an SSL session. -/
theorem printAppPart_eq (quality : build.qosModule = true)
    (stored : ∀ app, report.app = some app → app.TextsStored) {app : AppStat}
    (happ : report.app = some app) (kind : app.kind = report.appType)
    (modelled : report.appType = .web ∨ report.appType = .ssl)
    (room : 1660 ≤ rest.length) (small : rest.length ≤ 2 ^ 31) :
    ∃ rest', printAppPart printer build info report rest =
        .ok ((joined [44] (appFields build info report)).length,
          joined [44] (appFields build info report) ++ 0 :: rest') ∧
      (joined [44] (appFields build info report)).length + 1 + rest'.length = rest.length := by
  have hclean := @clean_appFields build info report quality stored
  have hwidth := @width_appFields_le build info report quality stored
  have hcount := @length_appFields build info report quality app happ kind
  have hle := length_joined_le [44] fun field listed => (hclean field listed).timely
  have hroom : (joined [44] (appFields build info report)).length + 16 ≤ rest.length := by
    rw [List.length_singleton, Nat.one_mul] at hle
    rcases modelled with htype | htype
    all_goals
      rw [htype, fieldCount] at hcount
      omega
  refine ⟨rest.drop ((joined [44] (appFields build info report)).length + 1), ?_, ?_⟩
  · rcases modelled with htype | htype
    · rw [htype] at kind
      cases app with
      | web web =>
          have hfields : appFields build info report = webFields build info web := by
            rw [appFields, happ]
          rw [hfields] at hroom hclean
          simp only [printAppPart, htype, happ, hfields]
          exact comma_eq hclean hroom small
      | _ => cases kind
    · rw [htype] at kind
      cases app with
      | ssl ssl =>
          have hfields : appFields build info report = sslFields info ssl := by
            rw [appFields, happ]
          rw [hfields] at hroom
          simp only [printAppPart, htype, happ, hfields]
          exact sslBuild_eq ssl hroom small
      | _ => cases kind
  · rw [List.length_drop]
    omega

/-- The base part leaves room for the part of any application. -/
theorem base_eq (message : ReportArray) :
    ∃ rest, stringBuilderWithSeparator 0 message.val maxLengthReportMessage (.ofText ",")
        (baseFields info report) = .ok ((joined [44] (baseFields info report)).length,
          joined [44] (baseFields info report) ++ 0 :: rest) ∧
      (joined [44] (baseFields info report)).length + 1 + rest.length = maxLengthReportMessage ∧
      1660 ≤ rest.length := by
  have hsize : message.val.length = 3000 := message.property
  have htimely : ∀ field ∈ baseFields info report, field.Timely :=
    fun field listed => (printable_baseFields field listed).1
  have hwidth := @width_baseFields_le info report
  have hcount := @length_baseFields_le info report
  have hle := length_joined_le [44] htimely
  rw [List.length_singleton] at hle
  have hbuild := @build_zero_eq message.val (some (.ofText ",")) _ htimely
  rw [separatorBytes_comma, hsize] at hbuild
  refine ⟨_, hbuild (by omega) (by decide), ?_, ?_⟩
  · show _ = 3000
    rw [List.length_drop]
    omega
  · rw [List.length_drop]
    omega

/-- Behind the base part comes a comma, then what the application writes, and then a NUL in
the place that the application returns. -/
theorem printMessage_of_part {message : ReportArray} {base rest rest' : List UInt8} {written : Nat}
    (app : report.appType ≠ .ip)
    (built : stringBuilderWithSeparator 0 message.val maxLengthReportMessage (.ofText ",")
      (baseFields info report) = .ok (base.length, base ++ 0 :: rest))
    (printed : printAppPart printer build info report rest = .ok (written, rest')) :
    printMessage printer build info report message =
      (store (base ++ 44 :: rest') (base.length + 1 + written) 0).mapError .fault := by
  have hcomma : store (base ++ 0 :: rest) base.length 44 = .ok (base ++ 44 :: rest) :=
    store_append base rest 0 44
  have hdrop : (base ++ 44 :: rest).drop (base.length + 1) = rest := by
    rw [List.drop_append, List.drop_eq_nil_of_le (by omega)]
    simp
  have htake : (base ++ 44 :: rest).take (base.length + 1) = base ++ [44] := by
    rw [List.take_append, List.take_of_length_le (by omega)]
    simp
  simp only [printMessage, built, bind_ok, if_neg app]
  rw [hcomma, mapError_ok, bind_ok]
  simp only [hdrop, printed, bind_ok, htake, List.append_assoc, List.singleton_append]

/-- The message of a session with an application is made of two parts. -/
theorem printMessage_eq (message : ReportArray) (app : report.appType ≠ .ip) {part : List UInt8}
    (prints : ∀ rest : List UInt8, 1660 ≤ rest.length → rest.length ≤ 2 ^ 31 → ∃ rest',
      printAppPart printer build info report rest = .ok (part.length, part ++ 0 :: rest') ∧
        part.length + 1 + rest'.length = rest.length) :
    ∃ rest', printMessage printer build info report message =
        .ok (joined [44] (baseFields info report) ++ ([44] ++ part) ++ 0 :: rest') ∧
      (joined [44] (baseFields info report) ++ ([44] ++ part) ++ 0 :: rest').length =
        maxLengthReportMessage := by
  rcases @base_eq info report message with ⟨rest, hbase, hlength, hroom⟩
  have hsmall : rest.length ≤ 2 ^ 31 := by
    rw [maxLengthReportMessage] at hlength
    omega
  rcases prints rest hroom hsmall with ⟨rest', hpart, hpartLength⟩
  have hprinted := printMessage_of_part app hbase hpart
  generalize joined [44] (baseFields info report) = base at hlength hprinted ⊢
  have hclose := store_append_append (base ++ [44]) part rest' 0 0
  simp only [List.length_append, List.length_singleton, List.append_assoc,
    List.singleton_append] at hclose
  refine ⟨rest', ?_, ?_⟩
  · rw [hprinted, hclose, mapError_ok]
    simp only [List.append_assoc, List.cons_append, List.nil_append]
  · simp only [List.length_append, List.length_cons, List.length_nil]
    omega

/-- Every application keeps to the rest of the message, and leaves a place for the NUL. -/
theorem printAppPart_leavesPlace (room : 1660 ≤ rest.length) (small : rest.length ≤ 2 ^ 31) :
    LeavesPlace rest (printAppPart printer build info report rest) := by
  have hnothing : LeavesPlace rest (.ok (0, rest)) := ⟨0, rest, rfl, by omega, rfl⟩
  rw [printAppPart]
  split
  next web _ _ =>
    have htimely : ∀ field ∈ webFields build info web, field.Timely := by
      cases hquality : build.qosModule <;> simp [webFields, webTimes, hquality, Field.Timely]
    exact build_leavesPlace _ htimely (by omega) small
  next ssl _ _ =>
    have htimely : ∀ field ∈ (sslFields info ssl).intersperse (.char 44), field.Timely := by
      simp [sslFields, List.intersperse, Field.Timely]
    exact build_leavesPlace _ htimely (by omega) small
  next rtp _ _ => exact printRtpReport_leavesPlace rtp (by omega)
  next ftp _ _ => exact printFtpReport_leavesPlace build ftp (by omega) small
  next gtp _ _ => exact printGtpReport_leavesPlace printer gtp (by omega) small
  next => exact hnothing

/-- Nothing is written outside the message. -/
theorem printMessage_inside (message : ReportArray) :
    ∃ after, printMessage printer build info report message = .ok after ∧
      after.length = maxLengthReportMessage := by
  rcases @base_eq info report message with ⟨rest, hbase, hlength, hroom⟩
  have hsize : maxLengthReportMessage = 3000 := rfl
  by_cases hip : report.appType = .ip
  · refine ⟨_, by simp only [printMessage, hbase, bind_ok, if_pos hip]; rfl, ?_⟩
    rw [List.length_append, List.length_cons]
    omega
  · rcases @printAppPart_leavesPlace build info report printer rest hroom (by omega) with
      ⟨written, rest', hpart, hplace, hkept⟩
    have hprinted := printMessage_of_part hip hbase hpart
    generalize joined [44] (baseFields info report) = base at hlength hprinted
    have hplaces : (base ++ 44 :: rest').length = maxLengthReportMessage := by
      rw [List.length_append, List.length_cons]
      omega
    have hclose := @store_eq_splice (base ++ 44 :: rest') (base.length + 1 + written)
      (by omega) 0
    refine ⟨_, by rw [hprinted, hclose, mapError_ok], ?_⟩
    rw [length_splice (by rw [List.length_singleton]; omega), hplaces]

variable {dpi : DpiSession} {stat target : SessionStat}

/-- What a report of a build with `QOS_MODULE` holds. -/
theorem report_of_printIpSessionReport (quality : build.qosModule = true) (tagged : stat.Tagged)
    (reported : printIpSessionReport build dpi stat = .ok (some report, target)) :
    report.qos.isSome ∧ report.appType = stat.appType ∧ report.app = stat.apps := by
  have hnew : ¬ NoNewPackets dpi stat := by
    intro hnone
    rw [printIpSessionReport, if_pos hnone] at reported
    cases reported
  rw [printIpSessionReport, if_neg hnew] at reported
  rcases bind_eq_ok_iff.mp reported with ⟨⟨app, apps⟩, happ, hreport⟩
  cases hreport
  refine ⟨?_, rfl, ?_⟩
  · simp only [SessionStat.printQos, if_pos quality]
    rfl
  · show app = stat.apps
    rcases tagged with ⟨hip, happs⟩ | ⟨given, happs, hkind⟩
    · rw [hip, happs] at happ
      cases happ
      exact happs.symm
    · rw [← hkind, happs] at happ
      rw [happs]
      cases given <;> cases happ <;> rfl

/-- Clean elements, with commas between them, at the beginning of a message. -/
theorem loadString_joined {fields : List Field} (clean : ∀ field ∈ fields, field.Clean)
    (rest : List UInt8) :
    loadString (joined [44] fields ++ 0 :: rest) 0 = .ok (joined [44] fields) :=
  loadString_front (plain_joined (by decide) fun field listed => (clean field listed).plain) rest

theorem splitCsv_clean {fields : List Field} (clean : ∀ field ∈ fields, field.Clean)
    (given : fields ≠ []) : splitCsv (joined [44] fields) = fields.map Field.full :=
  splitCsv_joined given fun field listed => (clean field listed).whole

/-- A path of two protocols. -/
def samplePath : PathText where
  hierarchy := ⟨3, fun index => [99, 178, 354].getD index 0⟩
  dest := List.replicate 128 7
  size := List.length_replicate
  text := .ofText "178.354"
  written := by decide +kernel

def sampleAddress : AddressText where
  text := .ofText "10.0.0.1"
  short := by decide +kernel
  noQuote := by decide +kernel

def samplePrinter : AddressPrinter where
  inetNtop := fun _ => sampleAddress
  srcArray := ⟨List.replicate 46 1, rfl⟩
  dstArray := ⟨List.replicate 46 1, rfl⟩

def sampleInfo : SessionInfo where
  statPeriodsIndex := 1
  protoId := 354
  pathUl := samplePath
  pathDl := samplePath
  totalActiveSessions := 1
  startTime := ⟨1, 0⟩
  startSeconds := by decide
  ipSrc := sampleAddress
  ipDst := sampleAddress
  macSrc := Vector.replicate 6 1
  macDst := Vector.replicate 6 2
  sessionId := 1
  portDst := 80
  portSrc := 50000
  workerIndex := 0
  applicationClass := -1
  contentClass := 0
  contentCdn := false

/-- A session with one request, whose host holds a quote and a comma. -/
def sampleWeb : SessionStat :=
  { SessionStat.fresh with
    appType := .web
    apps := some (.web { WebStat.reset with
      requestNb := 1
      hostname := copyStringValue 64 (some [97, 34, 44, 98]) }) }

/-- A session of RTP that lost one packet of three. -/
def sampleRtp : SessionStat :=
  { SessionStat.fresh with
    appType := .rtp
    apps := some (.rtp ⟨1, 30, 0, 1, 1⟩) }

def sampleDpi : DpiSession where
  cap := ⟨⟨100, 50⟩, ⟨80, 20⟩, ⟨2, 1⟩⟩
  byteCount := 150
  packetCount := 3
  bytes := ⟨100, 50⟩
  packets := ⟨2, 1⟩
  lastActivityTime := ⟨2, 0⟩
  rtt := ⟨0, 5⟩

/-- A build with `QOS_MODULE`. -/
def sampleBuild : Build := ⟨false, false, false, false, false, false, true⟩

/-- A message on the stack before anything is printed, with what was there before. -/
def sampleMessage : ReportArray :=
  ⟨List.replicate maxLengthReportMessage 120, List.length_replicate⟩

end MmtProbe.Dpi
