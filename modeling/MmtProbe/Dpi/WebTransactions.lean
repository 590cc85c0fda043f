/-
# The HTTP transactions of a session

A TCP session may carry many requests.  A report says which of them it is about,
`request_nb`, how long ago the first one was, and by `transaction_indicator` whether its
response was seen: 0 with the response, and otherwise the number of the block.

Both numbers have eight bits.  The first one is kept together with the texts of the
transaction, and `_reset_report` forgets all of them at the next request when a host name
was stored: the number then starts again at 1, and so does the time of the first request.
The second one is counted up by every report and set by requests and responses.
-/

import MmtProbe.Dpi.WebReport
import MmtProbe.Dpi.SessionTelescope

namespace MmtProbe.Dpi

open MmtProbe.Configure MmtProbe.Math

/-! ## Numbers of requests -/

/-- The requests of a session. -/
structure Requests where
  /-- When each of them came. -/
  times : List Timeval
  /-- A host name was given since the first one. -/
  named : Bool
  /-- A request came after such a host name. -/
  renamed : Bool
deriving DecidableEq, Repr

def Requests.next (requests : Requests) : WebEvent → Requests
  | .request ts =>
      { requests with
        times := requests.times ++ [ts]
        renamed := requests.renamed || requests.named }
  | .host => { requests with named := requests.named || !requests.times.isEmpty }
  | .response | .printed _ => requests

/-- The requests that a log holds. -/
def requestsOf (log : List WebEvent) : Requests := log.foldl Requests.next ⟨[], false, false⟩

/-- A report about the last one of some requests has its number, and measures the time of
interaction from the first one. -/
def Numbered (times : List Timeval) (web : WebStat) : Prop :=
  ∀ first ∈ times.head?, web.requestNb.toNat = times.length ∧
    web.interactionTime = web.timeSince first

/-- The number of the last request is not lost: it fits in eight bits, and no host name
was stored between the first request and the last one. -/
def Requests.NumberKept (requests : Requests) : Prop :=
  requests.times.length < 256 ∧ requests.renamed = false

instance (requests : Requests) : Decidable requests.NumberKept :=
  inferInstanceAs (Decidable (_ ∧ _))

theorem requestsOf_concat (log : List WebEvent) (event : WebEvent) :
    requestsOf (log ++ [event]) = (requestsOf log).next event := by
  rw [requestsOf, List.foldl_concat, requestsOf]

/-- What the structure knows of the requests. -/
structure Numbers (requests : Requests) (web : WebStat) : Prop where
  empty : requests.times = [] → requests.named = false ∧ requests.renamed = false
  named : requests.times ≠ [] → requests.renamed = false →
    hasString web.hostname = requests.named
  kept : requests.renamed = false → web.requestNb = UInt8.ofNat requests.times.length
  first : requests.renamed = false → requests.times.length < 256 →
    ∀ first ∈ requests.times.head?, web.firstRequestTime = first
  lost : requests.renamed = true → web.requestNb.toNat < requests.times.length

variable {requests : Requests} {web : WebStat} {build : Build} {ts : Timeval}

/-- The condition is exact for a structure that knows the requests. -/
theorem Numbers.numbered_iff (numbers : Numbers requests web) :
    Numbered requests.times web ↔ requests.NumberKept := by
  unfold Numbered Requests.NumberKept
  constructor
  · intro hnumbered
    cases htimes : requests.times with
    | nil => exact ⟨by simp, (numbers.empty htimes).2⟩
    | cons first rest =>
        rw [← htimes]
        have hnumber := (hnumbered first (by rw [htimes]; rfl)).1
        have hword := web.requestNb.toNat_lt
        refine ⟨by omega, ?_⟩
        by_contra hrenamed
        have hlost := numbers.lost (by simpa using hrenamed)
        omega
  · rintro ⟨hfits, hkept⟩ first hfirst
    constructor
    · rw [numbers.kept hkept, UInt8.toNat_ofNat', Nat.mod_eq_of_lt hfits]
    · rw [WebStat.interactionTime, numbers.first hkept hfits first hfirst]

/-- An event that is neither a request nor a host name, on a structure that keeps its
number, its first request and its host name. -/
theorem Numbers.same {other : WebStat} (numbers : Numbers requests web)
    (number : other.requestNb = web.requestNb)
    (first : other.firstRequestTime = web.firstRequestTime)
    (hostname : other.hostname = web.hostname) : Numbers requests other := by
  refine ⟨numbers.empty, ?_, ?_, ?_, ?_⟩
  · rw [hostname]
    exact numbers.named
  · rw [number]
    exact numbers.kept
  · rw [first]
    exact numbers.first
  · rw [number]
    exact numbers.lost

/-- The first request of a session. -/
theorem Numbers.first_request {other : WebStat} (numbers : Numbers requests web)
    (qos : build.qosModule = true) (unstarted : requests.times = []) (number : other.requestNb = 0)
    (hostname : hasString other.hostname = false) (val : Option (List UInt8)) :
    Numbers (requests.next (.request ts)) (other.request build ts val) := by
  rcases numbers.empty unstarted with ⟨hnamed, hrenamed⟩
  have hnumber : (other.request build ts val).requestNb = 1 := by
    simp [WebStat.request, qos, number]
  have hfirst : (other.request build ts val).firstRequestTime = ts := by
    simp [WebStat.request, qos, number]
  have hhost : (other.request build ts val).hostname = other.hostname := by
    simp [WebStat.request, qos]
  refine ⟨by simp [Requests.next], ?_, ?_, ?_, ?_⟩
  · intro _ _
    rw [hhost, hostname]
    exact hnamed.symm
  · intro _
    rw [hnumber, Requests.next, unstarted]
    rfl
  · intro _ _ first hmem
    rw [Requests.next, unstarted] at hmem
    cases hmem
    exact hfirst
  · intro hlost
    simp [Requests.next, hnamed, hrenamed] at hlost

/-- A later request that finds no host name goes on with the number. -/
theorem Numbers.next_request (numbers : Numbers requests web) (qos : build.qosModule = true)
    (started : requests.times ≠ []) (hostname : hasString web.hostname = false)
    (val : Option (List UInt8)) :
    Numbers (requests.next (.request ts)) (web.request build ts val) := by
  have hnumber : (web.request build ts val).requestNb = web.requestNb + 1 := by
    simp [WebStat.request, qos]
  have hfirst : web.requestNb + 1 ≠ 1 →
      (web.request build ts val).firstRequestTime = web.firstRequestTime := by
    intro hne
    simp only [WebStat.request, if_pos qos, if_neg hne]
  have hhost : (web.request build ts val).hostname = web.hostname := by
    simp [WebStat.request, qos]
  have hlength : (requests.times ++ [ts]).length = requests.times.length + 1 := by simp
  have hpositive : 0 < requests.times.length := List.length_pos_iff.mpr started
  have hkept : (requests.next (.request ts)).renamed = false →
      requests.renamed = false ∧ requests.named = false := by
    simp [Requests.next]
  refine ⟨by simp [Requests.next], ?_, ?_, ?_, ?_⟩
  · intro _ hrenamed
    rw [hhost]
    exact numbers.named started (hkept hrenamed).1
  · intro hrenamed
    rw [hnumber, numbers.kept (hkept hrenamed).1, Requests.next, hlength, UInt8.ofNat_add]
    rfl
  · intro hrenamed hfits first hmem
    rw [Requests.next, hlength] at hfits
    have hne : web.requestNb + 1 ≠ 1 := by
      intro hone
      have hnat := congrArg UInt8.toNat hone
      rw [numbers.kept (hkept hrenamed).1, UInt8.toNat_add, UInt8.toNat_ofNat'] at hnat
      simp at hnat
      omega
    rw [hfirst hne]
    apply numbers.first (hkept hrenamed).1 (by omega)
    rwa [Requests.next, List.head?_append_of_ne_nil _ started] at hmem
  · intro hrenamed
    rw [hnumber, Requests.next, hlength, UInt8.toNat_add]
    have hlost : requests.renamed = true := by
      by_contra hnot
      have hrenamed' : requests.renamed = false := by simpa using hnot
      have hnamed := numbers.named started hrenamed'
      simp [Requests.next, hrenamed', ← hnamed, hostname] at hrenamed
    have hless := numbers.lost hlost
    have hone : (1 : UInt8).toNat = 1 := rfl
    omega

/-- A later request that finds a host name starts again at 1. -/
theorem Numbers.renew (numbers : Numbers requests web) (qos : build.qosModule = true)
    (started : requests.times ≠ []) (hostname : hasString web.hostname = true)
    (val : Option (List UInt8)) :
    Numbers (requests.next (.request ts)) (WebStat.reset.request build ts val) := by
  have hrenamed : (requests.next (.request ts)).renamed = true := by
    cases hbefore : requests.renamed with
    | true => simp [Requests.next, hbefore]
    | false => simp [Requests.next, ← numbers.named started hbefore, hostname]
  have hkept : ¬ (requests.next (.request ts)).renamed = false := by
    rw [hrenamed]
    exact Bool.noConfusion
  have hpositive : 0 < requests.times.length := List.length_pos_iff.mpr started
  refine ⟨by simp [Requests.next], fun _ h => absurd h hkept, fun h => absurd h hkept,
    fun h => absurd h hkept, ?_⟩
  intro _
  have hnumber : (WebStat.reset.request build ts val).requestNb = 1 := by
    simp [WebStat.request, qos, WebStat.reset]
  rw [hnumber]
  simp [Requests.next, hpositive]

/-- A host name is stored when there is none. -/
theorem Numbers.host (numbers : Numbers requests web) (val : Option (List UInt8)) :
    Numbers (if hasString (copyStringValue 64 val) then requests.next .host else requests)
      (web.handle build ts (.host val)) := by
  have hnext : requests.times = [] → requests.next .host = requests := by
    intro hempty
    rw [Requests.next, hempty, List.isEmpty_nil, Bool.not_true, Bool.or_false, ← hempty]
  have hnumber : (web.handle build ts (.host val)).requestNb = web.requestNb := by
    unfold WebStat.handle
    dsimp only
    split_ifs <;> rfl
  have hfirst : (web.handle build ts (.host val)).firstRequestTime = web.firstRequestTime := by
    unfold WebStat.handle
    dsimp only
    split_ifs <;> rfl
  have hhost : hasString (web.handle build ts (.host val)).hostname =
      (hasString web.hostname || hasString (copyStringValue 64 val)) := by
    unfold WebStat.handle
    dsimp only
    split_ifs with hhas
    · rw [hhas, Bool.true_or]
    · rw [Bool.eq_false_iff.mpr hhas, Bool.false_or]
  split_ifs with hgiven
  · refine ⟨?_, ?_, ?_, ?_, ?_⟩
    · intro hempty
      rw [hnext hempty]
      exact numbers.empty hempty
    · intro hstarted _
      rw [hhost, hgiven, Bool.or_true]
      have hne : requests.times ≠ [] := hstarted
      simp [Requests.next, hne]
    · rw [hnumber]
      exact numbers.kept
    · rw [hfirst]
      exact numbers.first
    · rw [hnumber]
      exact numbers.lost
  · refine ⟨numbers.empty, ?_, ?_, ?_, ?_⟩
    · intro hstarted hkept
      rw [hhost, Bool.eq_false_iff.mpr hgiven, Bool.or_false]
      exact numbers.named hstarted hkept
    · rw [hnumber]
      exact numbers.kept
    · rw [hfirst]
      exact numbers.first
    · rw [hnumber]
      exact numbers.lost

/-- A callback on an attribute. -/
theorem Numbers.handle {log : List WebEvent} (numbers : Numbers (requestsOf log) web)
    (att : WebAttribute) :
    Numbers (requestsOf (log ++ (SessionAct.web ts att).webEvent.toList))
      (web.handle build ts att) := by
  cases att with
  | host val =>
      have hlog : requestsOf (log ++ (SessionAct.web ts (.host val)).webEvent.toList) =
          if hasString (copyStringValue 64 val) then (requestsOf log).next .host
          else requestsOf log := by
        unfold SessionAct.webEvent
        dsimp only
        split_ifs
        · exact requestsOf_concat log .host
        · simp
      rw [hlog]
      exact numbers.host val
  | response val =>
      have hlog : requestsOf (log ++ (SessionAct.web ts (.response val)).webEvent.toList) =
          requestsOf log := requestsOf_concat log .response
      rw [hlog]
      exact numbers.same rfl rfl rfl
  | contentType val =>
      have hlog : log ++ (SessionAct.web ts (.contentType val)).webEvent.toList = log :=
        List.append_nil log
      rw [hlog]
      unfold WebStat.handle
      dsimp only
      split_ifs
      · exact numbers
      · exact numbers.same rfl rfl rfl
  | uri val | referer val | xcdnSeen val | contentLen val =>
      have hlog : log ++ [] = log := List.append_nil log
      exact hlog.symm ▸ numbers.same rfl rfl rfl

/-- The callbacks keep what the structure knows of the requests. -/
theorem webRelation_numbers (qos : build.qosModule = true) :
    WebRelation build fun log web => Numbers (requestsOf log) web where
  empty := ⟨fun _ => ⟨rfl, rfl⟩, fun h => absurd rfl h, fun _ => rfl, nofun, nofun⟩
  handle := fun _ _ _ att numbers => numbers.handle att
  request := by
    intro log web ts val hhost numbers
    rw [requestsOf_concat]
    by_cases hempty : (requestsOf log).times = []
    · have hnumber : web.requestNb = 0 := by
        rw [numbers.kept (numbers.empty hempty).2, hempty]
        rfl
      exact numbers.first_request qos hempty hnumber hhost val
    · exact numbers.next_request qos hempty hhost val
  renew := by
    intro log web ts val hhost numbers
    rw [requestsOf_concat]
    by_cases hempty : (requestsOf log).times = []
    · exact numbers.first_request qos hempty rfl rfl val
    · exact numbers.renew qos hempty hhost val
  print := by
    intro log web numbers
    rw [requestsOf_concat]
    exact numbers.same rfl rfl rfl

/-- Two requests with a host name; the first one is reported when the second one comes, the
second one after its response. -/
def namedRequests : List SessionAct :=
  [.start .ip, .packet (countedPackets 1 0) plainPacket,
    .webMethod ⟨10, 0⟩ (some [71]), .web ⟨10, 0⟩ (.host (some [97])),
    .packet (countedPackets 2 0) plainPacket,
    .webMethod ⟨20, 0⟩ (some [71]), .web ⟨20, 0⟩ (.host (some [97])),
    .web ⟨21, 0⟩ (.response (some [50])), .packet (countedPackets 3 0) plainPacket, .tick]

/-- The structure about a request of the host `a`. -/
def requestOf (ts : Timeval) : WebStat :=
  { WebStat.reset with
    firstRequestTime := ts
    requestTime := ts
    requestNb := 1
    transactionIndicator := 1
    method := [71]
    hostname := [97] }

/-- Two requests, of which only the second one names its host.  It is reported twice before
its response and twice behind it. -/
def laterRequests : List SessionAct :=
  [.start .ip, .packet (countedPackets 1 0) plainPacket, .webMethod ⟨10, 0⟩ (some [71]),
    .packet (countedPackets 2 0) plainPacket, .tick,
    .webMethod ⟨20, 0⟩ (some [71]), .web ⟨20, 0⟩ (.host (some [97])),
    .packet (countedPackets 3 0) plainPacket, .tick,
    .packet (countedPackets 4 0) plainPacket, .tick, .web ⟨21, 0⟩ (.response (some [50])),
    .packet (countedPackets 5 0) plainPacket, .tick,
    .packet (countedPackets 6 0) plainPacket, .tick]

/-- The structure about the second one of these requests, behind its response. -/
def secondRequest (responseTime : Timeval) (transactionIndicator : UInt8) : WebStat :=
  { WebStat.reset with
    firstRequestTime := ⟨10, 0⟩
    requestTime := ⟨20, 0⟩
    responseTime := responseTime
    requestNb := 2
    transactionIndicator := transactionIndicator
    method := [71]
    hostname := [97]
    response := [50] }

theorem reachable_laterRequests : (webMachine qosEnv).Reachable
    ((webMachine qosEnv).after laterRequests (.fresh noMicroFlows, [])) :=
  Machine.reachable_after ⟨⟨noMicroFlows, rfl⟩, rfl⟩ (by decide +kernel)

/-- The current transaction of a session. -/
structure Transaction where
  requested : Bool
  responded : Bool
  /-- The reports since the request. -/
  blocks : Nat
  /-- The reports since the response .. -/
  afterResponse : Nat
  /-- .. and since the last one, when there were several. -/
  afterLast : Nat
deriving DecidableEq, Repr

def Transaction.next (transaction : Transaction) : WebEvent → Transaction
  | .request _ => ⟨true, false, 0, 0, 0⟩
  | .host => transaction
  | .response =>
      { transaction with
        responded := true
        afterResponse := if transaction.responded then transaction.afterResponse else 0
        afterLast := 0 }
  | .printed _ =>
      { transaction with
        blocks := transaction.blocks + 1
        afterResponse := transaction.afterResponse + 1
        afterLast := transaction.afterLast + 1 }

/-- The transaction at the end of a log. -/
def transactionOf (log : List WebEvent) : Transaction :=
  log.foldl Transaction.next ⟨false, false, 0, 0, 0⟩

/-- The indicator is 0 in the first report after the response and in no other one, and
before the response it is the number of the block. -/
def Indicates (transaction : Transaction) (web : WebStat) : Prop :=
  (web.transactionIndicator = 0 ↔
      transaction.responded = true ∧ transaction.afterResponse = 0) ∧
    (transaction.requested = true → transaction.responded = false →
      web.transactionIndicator.toNat = transaction.blocks + 1)

/-- The reports for which the eight bits do: a block before the 256th one, the first report
after the response, or a later one that is not a multiple of 256 behind the last response,
and likewise in a session of which neither a request nor a response was seen. -/
def Transaction.Timely (transaction : Transaction) : Prop :=
  if transaction.responded then
    transaction.afterResponse = 0 ∨ transaction.afterLast % 256 ≠ 0
  else if transaction.requested then transaction.blocks + 1 < 256
  else transaction.blocks % 256 ≠ 0

instance (transaction : Transaction) : Decidable transaction.Timely := by
  unfold Transaction.Timely
  infer_instance

/-- What is printed before it is cut to eight bits. -/
def Transaction.counted (transaction : Transaction) : Nat :=
  if transaction.responded then transaction.afterLast
  else if transaction.requested then transaction.blocks + 1
  else transaction.blocks

/-- What the structure knows of the transaction. -/
structure Blocks (transaction : Transaction) (web : WebStat) : Prop where
  counted : web.transactionIndicator = UInt8.ofNat transaction.counted
  last : transaction.responded = true → transaction.afterResponse = 0 → transaction.afterLast = 0

theorem transactionOf_concat (log : List WebEvent) (event : WebEvent) :
    transactionOf (log ++ [event]) = (transactionOf log).next event := by
  rw [transactionOf, List.foldl_concat, transactionOf]

variable {transaction : Transaction}

theorem Blocks.indicator_toNat (blocks : Blocks transaction web) :
    web.transactionIndicator.toNat = transaction.counted % 256 := by
  rw [blocks.counted, UInt8.toNat_ofNat']

theorem Blocks.indicator_eq_zero_iff (blocks : Blocks transaction web) :
    web.transactionIndicator = 0 ↔ transaction.counted % 256 = 0 := by
  rw [← blocks.indicator_toNat, ← UInt8.toNat_inj]
  rfl

/-- The condition is exact for a structure that knows the transaction. -/
theorem Blocks.indicates_iff (blocks : Blocks transaction web) :
    Indicates transaction web ↔ transaction.Timely := by
  unfold Indicates Transaction.Timely
  rw [blocks.indicator_eq_zero_iff, blocks.indicator_toNat]
  have hlast := blocks.last
  unfold Transaction.counted
  cases hresponded : transaction.responded with
  | true =>
      rw [hresponded] at hlast
      simp only [if_true]
      constructor
      · rintro ⟨hzero, -⟩
        by_cases hfirst : transaction.afterResponse = 0
        · exact .inl hfirst
        · exact .inr fun h => hfirst (hzero.mp h).2
      · intro htimely
        refine ⟨⟨?_, ?_⟩, nofun⟩
        · intro hzero
          rcases htimely with hfirst | hlater
          · exact ⟨trivial, hfirst⟩
          · exact absurd hzero hlater
        · rintro ⟨-, hfirst⟩
          rw [hlast rfl hfirst]
  | false =>
      simp only [Bool.false_eq_true, if_false]
      cases transaction.requested with
      | true =>
          simp only [if_true]
          constructor
          · rintro ⟨-, hblock⟩
            have hnumber := hblock trivial trivial
            omega
          · intro htimely
            refine ⟨⟨?_, fun h => h.1.elim⟩, fun _ _ => ?_⟩ <;> omega
      | false =>
          simp only [Bool.false_eq_true, if_false]
          constructor
          · rintro ⟨hzero, -⟩ hmod
            exact (hzero.mp hmod).1
          · intro htimely
            exact ⟨⟨fun h => absurd h htimely, fun h => h.1.elim⟩, fun h => h.elim⟩

/-- An attribute that is not the response keeps the indicator. -/
theorem WebStat.handle_indicator (web : WebStat) (att : WebAttribute)
    (other : ∀ val, att ≠ .response val) :
    (web.handle build ts att).transactionIndicator = web.transactionIndicator := by
  cases att with
  | response val => exact absurd rfl (other val)
  | contentType val | host val =>
      unfold WebStat.handle
      dsimp only
      split_ifs <;> rfl
  | uri val | referer val | xcdnSeen val | contentLen val => rfl

/-- A callback on an attribute. -/
theorem Blocks.handle {log : List WebEvent} (blocks : Blocks (transactionOf log) web)
    (att : WebAttribute) :
    Blocks (transactionOf (log ++ (SessionAct.web ts att).webEvent.toList))
      (web.handle build ts att) := by
  by_cases hresponse : ∃ val, att = .response val
  · rcases hresponse with ⟨val, rfl⟩
    have hlog : transactionOf (log ++ (SessionAct.web ts (.response val)).webEvent.toList) =
        (transactionOf log).next .response := transactionOf_concat log .response
    rw [hlog]
    exact ⟨rfl, fun _ _ => rfl⟩
  · have hother : ∀ val, att ≠ .response val := fun val heq => hresponse ⟨val, heq⟩
    -- a host name is an event, but not one of the transaction
    have hlog : transactionOf (log ++ (SessionAct.web ts att).webEvent.toList) =
        transactionOf log := by
      cases att with
      | response val => exact absurd rfl (hother val)
      | host val =>
          unfold SessionAct.webEvent
          dsimp only
          split_ifs
          · exact transactionOf_concat log .host
          · simp
      | uri val | contentType val | referer val | xcdnSeen val | contentLen val =>
          simp [SessionAct.webEvent]
    rw [hlog]
    exact ⟨(web.handle_indicator att hother).trans blocks.counted, blocks.last⟩

/-- A request is the first block of its transaction. -/
theorem blocks_request (log : List WebEvent) (web : WebStat) (val : Option (List UInt8)) :
    Blocks (transactionOf (log ++ [.request ts])) (web.request build ts val) := by
  rw [transactionOf_concat]
  refine ⟨?_, nofun⟩
  unfold WebStat.request
  dsimp only
  split_ifs <;> rfl

/-- The callbacks keep what the structure knows of the transaction. -/
theorem webRelation_blocks (build : Build) :
    WebRelation build fun log web => Blocks (transactionOf log) web where
  empty := ⟨rfl, nofun⟩
  handle := fun _ _ _ att blocks => blocks.handle att
  request := fun log web _ val _ _ => blocks_request log web val
  renew := fun log _ _ val _ _ => blocks_request log .reset val
  print := by
    intro log web blocks
    rw [transactionOf_concat]
    have hcounted : ((transactionOf log).next (.printed web)).counted =
        (transactionOf log).counted + 1 := by
      unfold Transaction.next Transaction.counted
      dsimp only
      split_ifs <;> rfl
    refine ⟨?_, fun _ hfirst => absurd hfirst (Nat.succ_ne_zero _)⟩
    rw [hcounted, UInt8.ofNat_add, ← blocks.counted]
    rfl

/-- A report has the right indicator exactly when it is a timely one: less than 256 blocks
before the response, and no multiple of 256 reports behind a response except the first
report after the response of the transaction. -/
theorem indicates_iff_timely {env : Env} {state : SessionState × List WebEvent}
    (reached : (webMachine env).Reachable state) {before after : List WebEvent}
    (printed : state.2 = before ++ .printed web :: after) :
    Indicates (transactionOf before) web ↔ (transactionOf before).Timely := by
  have hpast : Past (OnPrinted fun before web =>
      Indicates (transactionOf before) web ↔ (transactionOf before).Timely) state.2 :=
    webLog_past (webRelation_blocks env.build) (fun _ _ blocks => blocks.indicates_iff) reached
  exact hpast before (.printed web) after printed

/-- The second report behind the response is not taken for the first one. -/
theorem indicates_iff_timely_later :
    let log := ((webMachine qosEnv).after laterRequests (.fresh noMicroFlows, [])).2
    log = log.take 8 ++ .printed (secondRequest .zero 1) :: log.drop 9 ∧
      transactionOf (log.take 8) = ⟨true, true, 3, 1, 1⟩ ∧
      (Indicates (transactionOf (log.take 8)) (secondRequest .zero 1) ↔
        (transactionOf (log.take 8)).Timely) := by
  intro log
  have hlog : log = log.take 8 ++ .printed (secondRequest .zero 1) :: log.drop 9 := by
    decide +kernel
  exact ⟨hlog, by decide +kernel, indicates_iff_timely reachable_laterRequests hlog⟩

/-- The counters after some packets that are counted and nothing else. -/
def idlePackets (n : Nat) : DpiSession :=
  { DpiSession.zero with cap := ⟨⟨0, 0⟩, ⟨0, 0⟩, ⟨UInt64.ofNat n, 0⟩⟩ }

/-- The structure about a request after some reports. -/
def waitingWeb (n : Nat) : WebStat :=
  { WebStat.reset with requestNb := 1, transactionIndicator := UInt8.ofNat (n + 1), method := [71] }

/-- A session that waits for a response, after some periods with one packet and one report
each. -/
structure Waiting (n : Nat) (state : SessionState × List WebEvent) : Prop where
  reached : (webMachine plainEnv).Reachable state
  live : ∃ stat, state.1.phase = .live (some stat) ∧ stat.toTraffic = (idlePackets n).cap ∧
    stat.appType = .web ∧ stat.apps = some (.web (waitingWeb n))
  dpi : state.1.dpi = idlePackets n
  transaction : transactionOf state.2 = ⟨true, false, n, n, n⟩

theorem waiting_zero : Waiting 0 ((webMachine plainEnv).after
    [.start .ip, .webMethod ⟨10, 0⟩ (some [71])] (.fresh noMicroFlows, [])) where
  reached := Machine.reachable_after ⟨⟨noMicroFlows, rfl⟩, rfl⟩ (by decide +kernel)
  live := ⟨⟨.zero, .web, some (.web (waitingWeb 0)), .zero⟩, by decide +kernel, rfl, rfl, rfl⟩
  dpi := by decide +kernel
  transaction := by decide +kernel

theorem idlePackets_grows {n : Nat} (fits : n + 1 < 2 ^ 64) :
    (idlePackets n).Grows (idlePackets (n + 1)) := by
  have hup : UInt64.ofNat n ≤ UInt64.ofNat (n + 1) := by
    rw [UInt64.le_iff_toNat_le, UInt64.toNat_ofNat', UInt64.toNat_ofNat']
    omega
  exact ⟨⟨UInt64.le_refl _, UInt64.le_refl _⟩, ⟨UInt64.le_refl _, UInt64.le_refl _⟩,
    ⟨hup, UInt64.le_refl _⟩, UInt64.le_refl _, UInt64.le_refl _, fun _ => ⟨rfl, rfl⟩⟩

/-- The report of a session that waits. -/
theorem print_waiting {n : Nat} {stat : SessionStat}
    (traffic : stat.toTraffic = (idlePackets n).cap) (type : stat.appType = .web)
    (apps : stat.apps = some (.web (waitingWeb n))) :
    ∃ report after, printIpSessionReport plainEnv.build (idlePackets (n + 1)) stat =
        .ok (some report, after) ∧ report.web? = some (waitingWeb n) ∧
      after.toTraffic = (idlePackets (n + 1)).cap ∧ after.appType = .web ∧
      after.apps = some (.web (waitingWeb (n + 1))) := by
  have hnew : ¬ NoNewPackets (idlePackets (n + 1)) stat := by
    have hpackets : stat.packets = ⟨UInt64.ofNat n, 0⟩ := congrArg Traffic.packets traffic
    rw [NoNewPackets, hpackets]
    intro hsame
    have hnat := congrArg UInt64.toNat hsame
    simp only [idlePackets, UInt64.add_zero, UInt64.toNat_ofNat'] at hnat
    omega
  have hkept : (waitingWeb n).printed plainEnv.build = waitingWeb (n + 1) := by
    simp [WebStat.printed, waitingWeb, UInt8.ofNat_add, plainEnv]
  unfold printIpSessionReport
  rw [if_neg hnew, type, apps]
  exact ⟨_, _, rfl, rfl, rfl, rfl, congrArg (fun web => some (AppStat.web web)) hkept⟩

/-- One more period. -/
theorem Waiting.period {n : Nat} {state : SessionState × List WebEvent} (waiting : Waiting n state)
    (fits : n + 1 < 2 ^ 64) :
    ∃ target, Waiting (n + 1) target ∧ target.2 = state.2 ++ [.printed (waitingWeb n)] := by
  rcases state with ⟨s, log⟩
  rcases waiting with ⟨hreached, ⟨stat, hlive, htraffic, htype, happs⟩, hdpi, htransaction⟩
  dsimp only at hlive hdpi htransaction
  have hgrows : s.dpi.Grows (idlePackets (n + 1)) := hdpi ▸ idlePackets_grows fits
  have hpacket : (sessionMachine plainEnv).step s
      (.packet (idlePackets (n + 1)) plainPacket) =
      some { s with dpi := idlePackets (n + 1), phase := .live (some stat) } := by
    unfold sessionMachine sessionStep
    dsimp only
    rw [hlive]
    exact if_pos hgrows
  rcases print_waiting htraffic htype happs with
    ⟨report, after, hprint, hweb, htraffic', htype', happs'⟩
  have htick : (sessionMachine plainEnv).step
      { s with dpi := idlePackets (n + 1), phase := .live (some stat) } .tick =
      some (SessionState.afterCall
        { s with dpi := idlePackets (n + 1), phase := .live (some stat) } (some stat.toTraffic)
        (.ok (some report, after))) := by
    rw [← hprint]
    rfl
  have hreached' := (hreached.step (Machine.observe_step hpacket)).step (Machine.observe_step htick)
  have hlog : recordWeb { s with dpi := idlePackets (n + 1), phase := .live (some stat) } .tick
      (SessionState.afterCall
        { s with dpi := idlePackets (n + 1), phase := .live (some stat) } (some stat.toTraffic)
        (.ok (some report, after)))
      (recordWeb s (.packet (idlePackets (n + 1)) plainPacket)
        { s with dpi := idlePackets (n + 1), phase := .live (some stat) } log) =
      log ++ [.printed (waitingWeb n)] := by
    simp [recordWeb, SessionState.afterCall, SessionAct.webEvent, hweb]
  rw [hlog] at hreached'
  refine ⟨_, ⟨hreached', ⟨after, rfl, htraffic', htype', happs'⟩, rfl, ?_⟩, rfl⟩
  rw [transactionOf_concat, htransaction]
  rfl

theorem exists_waiting (n : Nat) (fits : n < 2 ^ 64) : ∃ state, Waiting n state := by
  induction n with
  | zero => exact ⟨_, waiting_zero⟩
  | succ n ih =>
      rcases ih (Nat.lt_of_succ_lt fits) with ⟨state, hwaiting⟩
      rcases hwaiting.period fits with ⟨target, htarget, _⟩
      exact ⟨target, htarget⟩

/-- The 256th report about a request without response has the indicator of the last
block. -/
theorem not_indicates_long :
    ∃ state, (webMachine plainEnv).Reachable state ∧ ∃ before web after,
      state.2 = before ++ .printed web :: after ∧
        transactionOf before = ⟨true, false, 255, 255, 255⟩ ∧ web.transactionIndicator = 0 ∧
        ¬ Indicates (transactionOf before) web := by
  rcases exists_waiting 255 (by decide) with ⟨state, hwaiting⟩
  rcases hwaiting.period (by decide) with ⟨target, htarget, hlog⟩
  refine ⟨target, htarget.reached, state.2, waitingWeb 255, [], hlog, hwaiting.transaction, rfl, ?_⟩
  rw [hwaiting.transaction]
  rintro ⟨hzero, -⟩
  exact Bool.noConfusion (hzero.mp rfl).1

end MmtProbe.Dpi
