/-
# Which values a QoS report of LTE puts together

An S1AP message may carry the identifier of a UE, a TEID and a QCI.  Each of them that is
extracted calls `_got_data`, which stores the value and reports the three values it holds
when none of them is 0.  Only the QCI is cleared behind a report.

So a value that an earlier message left may meet the values of a later one.  To say where
the values of a report come from, a run notes beside the state the number of the message that
delivered each value.  All reports of a run hold the values of one message, and a message with
all three values is reported once, exactly when at no callback the values of the message so
far, filled up with the values that were held before it, are all different from 0 too early.
-/

import MmtProbe.Dpi.SessionMessage

namespace MmtProbe.Dpi

open MmtProbe.Math MmtProbe.Lib MmtProbe.Output

/-! ## The callbacks -/

/-- The attributes of S1AP with a handler. -/
inductive S1apAttribute where
  | ueId
  | teid
  | qci
deriving DecidableEq, Repr

/-- A call of the handler for an attribute; there may be no data. -/
inductive S1apCallback where
  | ueId (data : Option UInt32)
  | teid (data : Option UInt32)
  | qci (data : Option UInt8)
deriving DecidableEq, Repr

/-- `field_id` -/
def S1apCallback.attribute : S1apCallback → S1apAttribute
  | .ueId _ => .ueId
  | .teid _ => .teid
  | .qci _ => .qci

/-- The callback has data. -/
def S1apCallback.delivers : S1apCallback → Bool
  | .ueId data => data.isSome
  | .teid data => data.isSome
  | .qci data => data.isSome

/-- The values of `lte_qos_report_t`, and those of a report. -/
structure LteQos where
  ueId : UInt32
  teid : UInt32
  qci : UInt8
deriving DecidableEq, Repr

/-- All elements have been fulfilled. -/
def LteQos.Complete (context : LteQos) : Prop :=
  context.qci ≠ 0 ∧ context.teid ≠ 0 ∧ context.ueId ≠ 0

instance (context : LteQos) : Decidable context.Complete :=
  inferInstanceAs (Decidable (_ ∧ _ ∧ _))

/-- The assignment to a field. -/
def LteQos.set (context : LteQos) : S1apCallback → LteQos
  | .ueId (some data) => { context with ueId := data }
  | .teid (some data) => { context with teid := data }
  | .qci (some data) => { context with qci := data }
  | _ => context

/-- `_got_data`: the state, and the values that are reported. -/
def gotData (context : LteQos) (callback : S1apCallback) : LteQos × Option LteQos :=
  if callback.delivers = false then (context, none)
  else
    let context := context.set callback
    if context.Complete then ({ context with qci := 0 }, some context) else (context, none)

/-- The elements of a report. -/
def LteQos.fields (report : LteQos) : List Field :=
  [.int report.ueId.toUInt64, .int report.teid.toUInt64, .int report.qci.toUInt64]

/-- The message of a report. -/
def LteQos.message (report : LteQos) (message : ReportArray) : Except Stop (Nat × List UInt8) :=
  stringBuilderWithSeparator 0 message.val maxLengthReportMessage (.ofText ",") report.fields

/-- An S1AP message: at most one callback for each attribute, in any order. -/
structure S1apMessage where
  callbacks : List S1apCallback
  distinct : (callbacks.map S1apCallback.attribute).Nodup

/-! ## Where values come from -/

/-- The numbers of the messages that delivered the values of a state. -/
structure Origins where
  ueId : Option Nat
  teid : Option Nat
  qci : Option Nat
deriving DecidableEq, Repr

/-- A callback of the message with a number. -/
def Origins.note (origins : Origins) (number : Nat) : S1apCallback → Origins
  | .ueId (some _) => { origins with ueId := some number }
  | .teid (some _) => { origins with teid := some number }
  | .qci (some _) => { origins with qci := some number }
  | _ => origins

/-- All values come from one message. -/
def Origins.OneMessage (origins : Origins) : Prop :=
  ∃ number, origins = ⟨some number, some number, some number⟩

/-- A state and where its values come from. -/
abbrev TracedQos := LteQos × Origins

/-- The callbacks of the message with a number: what they leave, and the reports. -/
def gotMessage (number : Nat) : List S1apCallback → TracedQos → TracedQos × List TracedQos
  | [], traced => (traced, [])
  | callback :: callbacks, (context, origins) =>
      let (context, report) := gotData context callback
      let origins := origins.note number callback
      let (traced, reports) := gotMessage number callbacks (context, origins)
      (traced, (report.map fun report => (report, origins)).toList ++ reports)

/-- The state behind some messages, which are numbered one after the other. -/
def followMessages : Nat → List S1apMessage → TracedQos → TracedQos
  | _, [], traced => traced
  | number, message :: messages, traced =>
      followMessages (number + 1) messages (gotMessage number message.callbacks traced).1

/-- The state that `lte_qos_report_register` allocates, and nothing was delivered yet. -/
def registered : TracedQos := (⟨0, 0, 0⟩, ⟨none, none, none⟩)

/-- The state behind the first messages of a run. -/
def behind (messages : List S1apMessage) : TracedQos := followMessages 0 messages registered

/-! ## What is wanted, and when it holds -/

/-- What some callbacks of a message delivered. -/
structure Delivered where
  ueId : Option UInt32
  teid : Option UInt32
  qci : Option UInt8
deriving DecidableEq, Repr

def Delivered.add (delivered : Delivered) : S1apCallback → Delivered
  | .ueId (some data) => { delivered with ueId := some data }
  | .teid (some data) => { delivered with teid := some data }
  | .qci (some data) => { delivered with qci := some data }
  | _ => delivered

def delivered (callbacks : List S1apCallback) : Delivered :=
  callbacks.foldl Delivered.add ⟨none, none, none⟩

/-- All three attributes were delivered. -/
def Delivered.All (delivered : Delivered) : Prop :=
  delivered.ueId.isSome = true ∧ delivered.teid.isSome = true ∧ delivered.qci.isSome = true

/-- All three attributes were delivered, and none of them is 0. -/
def Delivered.Nonzero (delivered : Delivered) : Prop :=
  ∃ ueId teid qci, delivered = ⟨some ueId, some teid, some qci⟩ ∧ ueId ≠ 0 ∧ teid ≠ 0 ∧ qci ≠ 0

/-- The values that were delivered, and for the others those that were held before. -/
def LteQos.fill (context : LteQos) (delivered : Delivered) : LteQos where
  ueId := delivered.ueId.getD context.ueId
  teid := delivered.teid.getD context.teid
  qci := delivered.qci.getD context.qci

/-- The reports of a message hold the values of one message, and there is exactly one if all
values of the message are different from 0. -/
structure Coherent (number : Nat) (traced : TracedQos) (message : S1apMessage) : Prop where
  oneMessage : ∀ report ∈ (gotMessage number message.callbacks traced).2, report.2.OneMessage
  once : (delivered message.callbacks).Nonzero →
    (gotMessage number message.callbacks traced).2.length = 1

/-- No value that was held before a message completes its values: when at a callback with data
all values are different from 0, the message has delivered all of them. -/
def Separate (context : LteQos) (message : S1apMessage) : Prop :=
  ∀ first callback rest, message.callbacks = first ++ callback :: rest →
    callback.delivers = true → (context.fill (delivered (first ++ [callback]))).Complete →
    (delivered (first ++ [callback])).All

/-! ## One callback -/

variable {context : LteQos} {origins : Origins} {number : Nat} {callback : S1apCallback}
  {first rest : List S1apCallback}

/-- The messages that delivered the values of a state came before a number. -/
def Origins.Before (origins : Origins) (number : Nat) : Prop :=
  ∀ earlier, origins.ueId = some earlier ∨ origins.teid = some earlier ∨
    origins.qci = some earlier → earlier < number

/-- Where the values come from that are filled up. -/
def Origins.fill (origins : Origins) (number : Nat) (delivered : Delivered) : Origins where
  ueId := if delivered.ueId.isSome then some number else origins.ueId
  teid := if delivered.teid.isSome then some number else origins.teid
  qci := if delivered.qci.isSome then some number else origins.qci

theorem delivered_concat (first : List S1apCallback) (callback : S1apCallback) :
    delivered (first ++ [callback]) = (delivered first).add callback := by
  rw [delivered, List.foldl_append]
  rfl

theorem set_fill (context : LteQos) (delivered : Delivered) (callback : S1apCallback) :
    (context.fill delivered).set callback = context.fill (delivered.add callback) := by
  rcases callback with (_ | data) | (_ | data) | (_ | data) <;> rfl

theorem note_fill (origins : Origins) (number : Nat) (delivered : Delivered)
    (callback : S1apCallback) :
    (origins.fill number delivered).note number callback =
      origins.fill number (delivered.add callback) := by
  rcases callback with (_ | data) | (_ | data) | (_ | data) <;> rfl

/-- A callback without data delivers nothing. -/
theorem add_of_not_delivers (nothing : callback.delivers = false) (delivered : Delivered) :
    delivered.add callback = delivered := by
  rcases callback with (_ | data) | (_ | data) | (_ | data)
  all_goals first
    | rfl
    | cases nothing

/-- Behind a callback with data all values come from one message if this message delivered
all of them. -/
theorem oneMessage_fill_iff (before : origins.Before number) (delivers : callback.delivers = true)
    (delivered : Delivered) :
    (origins.fill number (delivered.add callback)).OneMessage ↔ (delivered.add callback).All := by
  constructor
  · rintro ⟨source, hsource⟩
    have hnow : source = number := by
      rw [Origins.fill, Origins.mk.injEq] at hsource
      rcases callback with (_ | data) | (_ | data) | (_ | data)
      case ueId.some | teid.some | qci.some =>
        simp only [Delivered.add, Option.isSome_some, if_true, Option.some.injEq] at hsource
        omega
      case ueId.none | teid.none | qci.none => cases delivers
    rw [hnow, Origins.fill, Origins.mk.injEq] at hsource
    rcases hsource with ⟨hueId, hteid, hqci⟩
    refine ⟨?_, ?_, ?_⟩
    · by_contra hmissing
      rw [if_neg hmissing] at hueId
      exact Nat.lt_irrefl _ (before number (.inl hueId))
    · by_contra hmissing
      rw [if_neg hmissing] at hteid
      exact Nat.lt_irrefl _ (before number (.inr (.inl hteid)))
    · by_contra hmissing
      rw [if_neg hmissing] at hqci
      exact Nat.lt_irrefl _ (before number (.inr (.inr hqci)))
  · rintro ⟨hueId, hteid, hqci⟩
    refine ⟨number, ?_⟩
    rw [Origins.fill, if_pos hueId, if_pos hteid, if_pos hqci]

/-- An attribute is delivered by a callback for it. -/
theorem attributes_of_delivered (callbacks : List S1apCallback) :
    ((delivered callbacks).ueId.isSome = true → .ueId ∈ callbacks.map S1apCallback.attribute) ∧
      ((delivered callbacks).teid.isSome = true →
        .teid ∈ callbacks.map S1apCallback.attribute) ∧
      ((delivered callbacks).qci.isSome = true → .qci ∈ callbacks.map S1apCallback.attribute) := by
  induction callbacks using List.reverseRecOn with
  | nil => exact ⟨nofun, nofun, nofun⟩
  | append_singleton callbacks callback ih =>
      rw [delivered_concat, List.map_append]
      simp only [List.mem_append, List.map_cons, List.map_nil, List.mem_singleton]
      rcases callback with (_ | data) | (_ | data) | (_ | data)
      all_goals
        simp only [Delivered.add, S1apCallback.attribute]
        refine ⟨fun given => ?_, fun given => ?_, fun given => ?_⟩
        all_goals first
          | exact .inr trivial
          | exact .inl (ih.1 given)
          | exact .inl (ih.2.1 given)
          | exact .inl (ih.2.2 given)

/-- When all attributes were delivered, no callback is left. -/
theorem rest_eq_nil (distinct : ((first ++ rest).map S1apCallback.attribute).Nodup)
    (all : (delivered first).All) : rest = [] := by
  rw [List.map_append, List.nodup_append] at distinct
  rcases attributes_of_delivered first with ⟨hueId, hteid, hqci⟩
  cases rest with
  | nil => rfl
  | cons next rest =>
      have hlisted : next.attribute ∈ first.map S1apCallback.attribute := by
        cases next with
        | ueId data => exact hueId all.1
        | teid data => exact hteid all.2.1
        | qci data => exact hqci all.2.2
      exact absurd rfl (distinct.2.2 _ hlisted _ List.mem_cons_self)

theorem nonzero_complete {delivered : Delivered} (nonzero : delivered.Nonzero)
    (context : LteQos) : (context.fill delivered).Complete := by
  rcases nonzero with ⟨ueId, teid, qci, rfl, hueId, hteid, hqci⟩
  exact ⟨hqci, hteid, hueId⟩

/-! ## One message -/

/-- The handler at one callback, when there was no report yet for the message. -/
theorem gotMessage_cons (number : Nat) (callback : S1apCallback) (rest : List S1apCallback)
    (context : LteQos) (origins : Origins) (first : List S1apCallback) :
    (gotMessage number (callback :: rest)
      (context.fill (delivered first), origins.fill number (delivered first))).2 =
    if callback.delivers = true ∧
        (context.fill (delivered (first ++ [callback]))).Complete then
      (context.fill (delivered (first ++ [callback])),
          origins.fill number (delivered (first ++ [callback]))) ::
        (gotMessage number rest
          ({ context.fill (delivered (first ++ [callback])) with qci := 0 },
            origins.fill number (delivered (first ++ [callback])))).2
    else
      (gotMessage number rest (context.fill (delivered (first ++ [callback])),
        origins.fill number (delivered (first ++ [callback])))).2 := by
  by_cases hdelivers : callback.delivers = true
  · have hsome : ¬ callback.delivers = false := by
      rw [hdelivers]
      decide
    have hgot : gotData (context.fill (delivered first)) callback =
        if (context.fill (delivered (first ++ [callback]))).Complete then
          ({ context.fill (delivered (first ++ [callback])) with qci := 0 },
            some (context.fill (delivered (first ++ [callback]))))
        else (context.fill (delivered (first ++ [callback])), none) := by
      rw [gotData, if_neg hsome, set_fill, ← delivered_concat]
    simp only [gotMessage, hgot, note_fill, ← delivered_concat]
    by_cases hcomplete : (context.fill (delivered (first ++ [callback]))).Complete
    · rw [if_pos hcomplete, if_pos ⟨hdelivers, hcomplete⟩]
      rfl
    · rw [if_neg hcomplete, if_neg (not_and_of_not_right _ hcomplete)]
      rfl
  · have hnone : callback.delivers = false := Bool.eq_false_iff.mpr hdelivers
    have hneither : ¬ (callback.delivers = true ∧
        (context.fill (delivered (first ++ [callback]))).Complete) := fun h => hdelivers h.1
    rw [if_neg hneither, delivered_concat, add_of_not_delivers hnone]
    simp only [gotMessage, gotData, if_pos hnone, note_fill, add_of_not_delivers hnone]
    rfl

/-- From some callbacks of a message on, behind which there was no report. -/
theorem gotMessage_coherent_iff (before : origins.Before number)
    (distinct : ((first ++ rest).map S1apCallback.attribute).Nodup)
    (incomplete : ¬ (delivered first).Nonzero) :
    ((∀ report ∈ (gotMessage number rest (context.fill (delivered first),
          origins.fill number (delivered first))).2, report.2.OneMessage) ∧
      ((delivered (first ++ rest)).Nonzero →
        (gotMessage number rest (context.fill (delivered first),
          origins.fill number (delivered first))).2.length = 1)) ↔
    ∀ more callback behind, rest = more ++ callback :: behind → callback.delivers = true →
      (context.fill (delivered (first ++ more ++ [callback]))).Complete →
        (delivered (first ++ more ++ [callback])).All := by
  induction rest generalizing first with
  | nil =>
      rw [List.append_nil]
      refine iff_of_true ⟨fun _ listed => absurd listed List.not_mem_nil, ?_⟩ ?_
      · exact fun nonzero => absurd nonzero incomplete
      · intro more callback behind hsplit
        simp at hsplit
  | cons callback rest ih =>
      have hrest : first ++ callback :: rest = first ++ [callback] ++ rest := by simp
      rw [gotMessage_cons, hrest]
      rw [hrest] at distinct
      by_cases hreport : callback.delivers = true ∧
          (context.fill (delivered (first ++ [callback]))).Complete
      · rw [if_pos hreport]
        by_cases hall : (delivered (first ++ [callback])).All
        · -- the message is over
          rcases rest_eq_nil distinct hall with rfl
          refine iff_of_true ⟨?_, fun _ => rfl⟩ ?_
          · intro report listed
            rw [List.mem_singleton.mp listed, delivered_concat]
            rw [delivered_concat] at hall
            exact (oneMessage_fill_iff before hreport.1 _).mpr hall
          · intro more other behind hsplit hdelivers hcomplete
            rcases List.cons_eq_append_iff.mp hsplit with ⟨rfl, hsame⟩ | ⟨more', rfl, hbehind⟩
            · rw [(List.cons.inj hsame).1]
              simpa using hall
            · simp at hbehind
        · -- a value of the report was held before
          refine iff_of_false ?_ ?_
          · rintro ⟨hone, -⟩
            have hthis := hone _ List.mem_cons_self
            rw [delivered_concat] at hthis hall
            exact hall ((oneMessage_fill_iff before hreport.1 _).mp hthis)
          · intro hseparate
            have hthis := hseparate [] callback rest rfl hreport.1
            rw [List.append_nil] at hthis
            exact hall (hthis hreport.2)
      · have hwaits : ¬ (delivered (first ++ [callback])).Nonzero := by
          intro nonzero
          have hnone : callback.delivers = false :=
            Bool.eq_false_iff.mpr fun h => hreport ⟨h, nonzero_complete nonzero context⟩
          rw [delivered_concat, add_of_not_delivers hnone] at nonzero
          exact incomplete nonzero
        rw [if_neg hreport, ih distinct hwaits]
        constructor
        · intro hseparate more other behind hsplit hdelivers hcomplete
          rcases List.cons_eq_append_iff.mp hsplit with ⟨rfl, hsame⟩ | ⟨more', rfl, hbehind⟩
          · rw [(List.cons.inj hsame).1] at hdelivers hcomplete
            rw [List.append_nil] at hcomplete
            exact absurd ⟨hdelivers, hcomplete⟩ hreport
          · have hthis := hseparate more' other behind hbehind hdelivers
            simp only [List.append_assoc, List.cons_append] at hthis hcomplete ⊢
            exact hthis hcomplete
        · intro hseparate more other behind hsplit hdelivers hcomplete
          have hthis := hseparate (callback :: more) other behind (by rw [hsplit]; rfl) hdelivers
          simp only [List.append_assoc, List.cons_append] at hthis hcomplete ⊢
          exact hthis hcomplete

theorem coherent_iff (before : origins.Before number) (context : LteQos)
    (message : S1apMessage) :
    Coherent number (context, origins) message ↔ Separate context message := by
  have hiff := @gotMessage_coherent_iff context origins number [] message.callbacks before
    message.distinct (by rintro ⟨_, _, _, hnone, -⟩; cases hnone)
  have hfill : context.fill (delivered []) = context := rfl
  have hfillOrigins : origins.fill number (delivered []) = origins := rfl
  rw [hfill, hfillOrigins] at hiff
  constructor
  · intro coherent
    exact hiff.mp ⟨coherent.oneMessage, coherent.once⟩
  · intro separate
    rcases hiff.mpr separate with ⟨hone, honce⟩
    exact ⟨hone, honce⟩

/-! ## All messages -/

theorem note_before (before : origins.Before (number + 1)) (callback : S1apCallback) :
    (origins.note number callback).Before (number + 1) := by
  intro earlier hsource
  have hkept := before earlier
  rcases callback with (_ | data) | (_ | data) | (_ | data)
  all_goals
    simp only [Origins.note, Option.some.injEq] at hsource
    first
      | exact hkept hsource
      | rcases hsource with hueId | hteid | hqci
        all_goals first
          | omega
          | exact hkept (.inl hueId)
          | exact hkept (.inr (.inl hteid))
          | exact hkept (.inr (.inr hqci))

theorem gotMessage_before {traced : TracedQos} (before : traced.2.Before (number + 1))
    (callbacks : List S1apCallback) :
    (gotMessage number callbacks traced).1.2.Before (number + 1) := by
  induction callbacks generalizing traced with
  | nil => exact before
  | cons callback callbacks ih => exact ih (note_before before callback)

/-- A value comes from a message that was handled before. -/
theorem followMessages_before {traced : TracedQos} (before : traced.2.Before number)
    (messages : List S1apMessage) :
    (followMessages number messages traced).2.Before (number + messages.length) := by
  induction messages generalizing number traced with
  | nil => exact before
  | cons message messages ih =>
      rw [List.length_cons, Nat.add_comm messages.length 1, ← Nat.add_assoc]
      apply ih
      apply gotMessage_before
      exact fun earlier hsource => Nat.lt_succ_of_lt (before earlier hsource)

theorem behind_before (messages : List S1apMessage) :
    (behind messages).2.Before messages.length := by
  have hnone : registered.2.Before 0 := by
    rintro earlier (h | h | h) <;> cases h
  have hbefore := followMessages_before hnone messages
  rwa [Nat.zero_add] at hbefore

/-- The reports of all messages of a run hold the values of one message, and each message with
all values is reported once, exactly when no value that was held before a message completes
the values of the message. -/
theorem messages_coherent_iff (messages : List S1apMessage) :
    (∀ earlier message later, messages = earlier ++ message :: later →
        Coherent earlier.length (behind earlier) message) ↔
      ∀ earlier message later, messages = earlier ++ message :: later →
        Separate (behind earlier).1 message := by
  have hiff : ∀ (earlier : List S1apMessage) (message : S1apMessage),
      Coherent earlier.length (behind earlier) message ↔ Separate (behind earlier).1 message :=
    fun earlier message => coherent_iff (behind_before earlier) _ message
  constructor
  · intro coherent earlier message later hsplit
    exact (hiff earlier message).mp (coherent earlier message later hsplit)
  · intro separate earlier message later hsplit
    exact (hiff earlier message).mpr (separate earlier message later hsplit)

/-- A message with the identifier of a UE and a TEID. -/
def ueTeidMessage : S1apMessage where
  callbacks := [.ueId (some 1), .teid (some 2)]
  distinct := by decide

/-- A message with a QCI. -/
def qciMessage : S1apMessage where
  callbacks := [.qci (some 9)]
  distinct := by decide

/-- A QCI is reported with the values of the message before. -/
theorem not_messages_coherent :
    ¬ ∀ earlier message later, [ueTeidMessage, qciMessage] = earlier ++ message :: later →
      Coherent earlier.length (behind earlier) message := by
  intro coherent
  have hreport : (⟨1, 2, 9⟩, ⟨some 0, some 0, some 1⟩) ∈
      (gotMessage 1 qciMessage.callbacks (behind [ueTeidMessage])).2 := List.mem_singleton_self _
  have hone := (coherent [ueTeidMessage] qciMessage [] rfl).oneMessage _ hreport
  rcases hone with ⟨number, hnumber⟩
  have hueId : number = 0 := (Option.some.inj (congrArg Origins.ueId hnumber)).symm
  have hqci : number = 1 := (Option.some.inj (congrArg Origins.qci hnumber)).symm
  omega

/-! ## What a report holds -/

/-- The values of a state or of a report are those that the messages delivered which they are
said to come from. -/
structure FromMessages (messages : List S1apMessage) (traced : TracedQos) : Prop where
  ueId : ∀ number, traced.2.ueId = some number → ∃ message, messages[number]? = some message ∧
    .ueId (some traced.1.ueId) ∈ message.callbacks
  teid : ∀ number, traced.2.teid = some number → ∃ message, messages[number]? = some message ∧
    .teid (some traced.1.teid) ∈ message.callbacks
  qci : traced.1.qci ≠ 0 → ∀ number, traced.2.qci = some number → ∃ message,
    messages[number]? = some message ∧ .qci (some traced.1.qci) ∈ message.callbacks

variable {messages : List S1apMessage} {message : S1apMessage}

theorem set_fromMessages (current : messages[number]? = some message)
    (listed : callback ∈ message.callbacks) (held : FromMessages messages (context, origins)) :
    FromMessages messages (context.set callback, origins.note number callback) := by
  rcases callback with (_ | data) | (_ | data) | (_ | data)
  case ueId.none | teid.none | qci.none => exact held
  case ueId.some =>
    refine ⟨?_, held.teid, held.qci⟩
    rintro source hsource
    cases hsource
    exact ⟨message, current, listed⟩
  case teid.some =>
    refine ⟨held.ueId, ?_, held.qci⟩
    rintro source hsource
    cases hsource
    exact ⟨message, current, listed⟩
  case qci.some =>
    refine ⟨held.ueId, held.teid, ?_⟩
    rintro - source hsource
    cases hsource
    exact ⟨message, current, listed⟩

/-- The state and the report behind a callback. -/
theorem gotData_fromMessages (current : messages[number]? = some message)
    (listed : callback ∈ message.callbacks) (held : FromMessages messages (context, origins)) :
    FromMessages messages ((gotData context callback).1, origins.note number callback) ∧
      ∀ report, (gotData context callback).2 = some report →
        FromMessages messages (report, origins.note number callback) := by
  have hset := set_fromMessages current listed held
  by_cases hnone : callback.delivers = false
  · have hsame : context.set callback = context := by
      rcases callback with (_ | data) | (_ | data) | (_ | data)
      case ueId.none | teid.none | qci.none => rfl
      case ueId.some | teid.some | qci.some => cases hnone
    rw [hsame] at hset
    simp only [gotData, if_pos hnone]
    exact ⟨hset, nofun⟩
  · by_cases hcomplete : (context.set callback).Complete
    · simp only [gotData, if_neg hnone, if_pos hcomplete]
      refine ⟨⟨hset.ueId, hset.teid, fun nonzero => absurd rfl nonzero⟩, ?_⟩
      rintro report hreport
      cases hreport
      exact hset
    · simp only [gotData, if_neg hnone, if_neg hcomplete]
      exact ⟨hset, nofun⟩

/-- The callbacks of a message keep track of what they deliver, in the state and in the
reports. -/
theorem gotMessage_fromMessages {traced : TracedQos} {callbacks : List S1apCallback}
    (current : messages[number]? = some message)
    (listed : ∀ callback ∈ callbacks, callback ∈ message.callbacks)
    (held : FromMessages messages traced) :
    FromMessages messages (gotMessage number callbacks traced).1 ∧
      ∀ report ∈ (gotMessage number callbacks traced).2, FromMessages messages report := by
  induction callbacks generalizing traced with
  | nil => exact ⟨held, fun _ none => absurd none List.not_mem_nil⟩
  | cons callback callbacks ih =>
      rw [List.forall_mem_cons] at listed
      rcases gotData_fromMessages current listed.1 held with ⟨hstate, hreport⟩
      rcases ih listed.2 hstate with ⟨hlast, hothers⟩
      refine ⟨hlast, ?_⟩
      intro report hlisted
      rcases List.mem_append.mp hlisted with hfirst | hother
      · rw [Option.mem_toList, Option.map_eq_some_iff] at hfirst
        rcases hfirst with ⟨values, hvalues, rfl⟩
        exact hreport values hvalues
      · exact hothers report hother

theorem followMessages_fromMessages {traced : TracedQos} (rest later : List S1apMessage)
    {done : List S1apMessage} (split : messages = done ++ rest ++ later)
    (held : FromMessages messages traced) :
    FromMessages messages (followMessages done.length rest traced) := by
  induction rest generalizing done traced with
  | nil => exact held
  | cons message rest ih =>
      have hcurrent : messages[done.length]? = some message := by
        rw [split, List.append_assoc, List.getElem?_append_right (Nat.le_refl _), Nat.sub_self]
        rfl
      have hsplit : messages = done ++ [message] ++ rest ++ later := by
        rw [split]
        simp
      have hmessage := gotMessage_fromMessages hcurrent (fun _ listed => listed) held
      have hrest := ih hsplit hmessage.1
      rw [List.length_append, List.length_singleton] at hrest
      exact hrest

/-- A value of a report is one that was delivered by the message that is noted for it. -/
theorem reports_fromMessages {earlier later : List S1apMessage}
    (split : messages = earlier ++ message :: later) :
    ∀ report ∈ (gotMessage earlier.length message.callbacks (behind earlier)).2,
      FromMessages messages report := by
  have hstart : FromMessages messages registered := ⟨nofun, nofun, fun _ => nofun⟩
  have hsplit : messages = [] ++ earlier ++ message :: later := split
  have hbehind := followMessages_fromMessages earlier (message :: later) hsplit hstart
  have hcurrent : messages[earlier.length]? = some message := by
    rw [split, List.getElem?_append_right (Nat.le_refl _), Nat.sub_self]
    rfl
  exact (gotMessage_fromMessages hcurrent (fun _ listed => listed) hbehind).2

/-- The message of a report is the three values with commas between them. -/
theorem message_eq (report : LteQos) (message : ReportArray) :
    ∃ rest, report.message message = .ok ((decimals 44
      [report.ueId.toNat, report.teid.toNat, report.qci.toNat]).length, decimals 44
      [report.ueId.toNat, report.teid.toNat, report.qci.toNat] ++ 0 :: rest) := by
  have hsize : message.val.length = 3000 := message.property
  have hclean : ∀ field ∈ report.fields, field.Clean := by
    simp [LteQos.fields]
  have hwidth := length_joined_le [44] fun field listed => (hclean field listed).timely
  have htext : joined [44] report.fields =
      decimals 44 [report.ueId.toNat, report.teid.toNat, report.qci.toNat] := by
    rw [decimals_cons]
    simp [LteQos.fields, joined, Field.full]
  have hbuild := @comma_eq message.val report.fields hclean
    (by simp only [LteQos.fields, List.map_cons, List.map_nil, List.sum_cons, List.sum_nil,
          Field.width, List.length_cons, List.length_nil] at hwidth ⊢; omega) (by omega)
  rw [htext, hsize] at hbuild
  exact ⟨_, hbuild⟩

end MmtProbe.Dpi
