/-
# Every command gets its own reply

The replies on the connection come in the order of the commands, and the reader hands them
out in the order of the list, so a thread gets the answer to its own command only if the list
has the order of the connection.  The mutex sees to it: a command is written and its record
put on the list under one lock, and the reader takes a reply and the first record under one.

A signal must not come before the thread sleeps.  The thread locks the mutex of its record
while it still has the other one, and the reader signals under the former.  So the reader
gets to the signal only when the thread is in `pthread_cond_wait`, and its record lives until
the reader has given the mutex back.  How a call, its record and the reader fit together at
each moment is a relation with one case for each of them.

All this is about runs in which nobody wakes up without a signal: `thredis_command` does not
look whether there is a reply when it wakes up.
-/

import MmtProbe.Output.Thredis

namespace MmtProbe.Output

open MmtProbe.Math

variable {T C R : Type} {answer : List C → R}

/-! ## What is wanted -/

/-- The numbers of the commands whose calls have returned. -/
def Thredis.returnedNumbers (thredis : Thredis T C R) : List Nat :=
  thredis.returned.filterMap fun call => call.2.1

/-- What a call may return for a command: its answer, or NULL behind an error. -/
structure Good (answer : List C → R) (thredis : Thredis T C R) (number : Nat)
    (reply : Option R) : Prop where
  own : ∀ given, reply = some given → given = thredis.replyTo answer number
  failed : reply = none → thredis.reader.failed = true

/-- A command is on the connection at some place, sent by a thread. -/
def SentBy (thredis : Thredis T C R) (thread : T) (number : Nat) : Prop :=
  ∃ command, thredis.sent[number]? = some (thread, command)

/-- Each command that was sent has returned once or its thread is in the call, and the reply
that was returned is the answer to it. -/
structure Answered (answer : List C → R) (thredis : Thredis T C R) : Prop where
  own : ∀ thread number reply, (thread, some number, reply) ∈ thredis.returned →
    SentBy thredis thread number ∧ Good answer thredis number reply
  once : thredis.returnedNumbers.Nodup
  accounted : ∀ number < thredis.sent.length, number ∈ thredis.returnedNumbers ∨
    ∃ thread, (thredis.place thread).number = some number
  /-- What is in progress has not returned. -/
  pending : ∀ thread number, (thredis.place thread).number = some number →
    SentBy thredis thread number ∧ number ∉ thredis.returnedNumbers

/-- The record of a thread is in the hands of the reader. -/
def ReaderPlace.serves (reader : ReaderPlace T R) (thread : T) : Prop :=
  ∃ reply, reader = .storing thread reply ∨ reader = .locking thread reply ∨
    reader = .signalling thread reply

/-- A record is accessed only while its call lasts, and no signal is lost. -/
structure HandedOver (thredis : Thredis T C R) : Prop where
  noFault : thredis.faulted = false
  /-- The mutex has one owner. -/
  alone : ∀ thread, ((thredis.place thread).holds = true ↔
    thredis.owner = some (.caller thread))
  aloneReader : thredis.reader.holds = true ↔ thredis.owner = some .reader
  /-- Who is signalled sleeps. -/
  heard : ∀ thread reply, thredis.reader = .signalling thread reply →
    ∃ number, thredis.place thread = .sleeping number
  /-- Who sleeps is on the list, or the reader is about to signal. -/
  remembered : ∃ queue, thredis.waits.Represents queue ∧
    ∀ thread number, thredis.place thread = .sleeping number →
      thread ∈ queue ∨ thredis.reader.serves thread
  /-- When the reader has ended, nobody sleeps. -/
  ended : thredis.reader = .ended →
    thredis.connected = false ∧ ∀ thread number, thredis.place thread ≠ .sleeping number

/-- Nobody wakes up without a signal. -/
def NotSpurious {S : Type} (_ : S) : ThredisLabel T C → Prop
  | .caller _ .spurious => False
  | _ => True

instance {S : Type} (state : S) (label : ThredisLabel T C) :
    Decidable (NotSpurious state label) :=
  match label with
  | .caller _ .spurious => isFalse id
  | .caller _ (.call _) | .caller _ .go | .caller _ .fail | .reader _ => isTrue trivial

/-- A thread goes on by itself: no call begins, and `poll` does not return. -/
def ThredisLabel.IsOwn : ThredisLabel T C → Prop
  | .caller _ .go | .caller _ .fail | .reader .go | .reader .fail => True
  | .caller _ (.call _) | .caller _ .spurious | .reader (.poll _ _) | .reader .reply => False

/-! ## A call, its record and the reader -/

/-- What the reader is about to do with a record. -/
inductive Touch (R : Type)
  | nothing
  | storing (reply : Option R)
  | locking (reply : Option R)
  | signalling (reply : Option R)
  | unlocking (reply : Option R)

def ReaderPlace.touch [DecidableEq T] (reader : ReaderPlace T R) (thread : T) : Touch R :=
  match reader with
  | .storing other reply => if other = thread then .storing reply else .nothing
  | .locking other reply => if other = thread then .locking reply else .nothing
  | .signalling other reply => if other = thread then .signalling reply else .nothing
  | .unlocking other reply => if other = thread then .unlocking reply else .nothing
  | _ => .nothing

/-- The places in front of the record of a call. -/
def CommandPlace.bare : CommandPlace C → Bool
  | .outside | .entering _ | .checking _ | .appending _ | .flushing _ | .failing
  | .pushing _ => true
  | _ => false

/-- The place of a call, its record, whether it is on the list, and the reader. -/
inductive Bond (good : Nat → Option R → Prop) (thread : T) (queued : Prop) :
    CommandPlace C → RedisWait T R → Touch R → Prop
  | bare {place : CommandPlace C} {record : RedisWait T R} (isBare : place.bare = true)
      (gone : record.alive = false) (apart : ¬ queued) :
      Bond good thread queued place record .nothing
  | locking {number : Nat} (isQueued : queued) :
      Bond good thread queued (.locking number) ⟨true, none, none⟩ .nothing
  | releasing {number : Nat} (isQueued : queued) :
      Bond good thread queued (.releasing number) ⟨true, none, some (.caller thread)⟩ .nothing
  | waiting {number : Nat} (isQueued : queued) :
      Bond good thread queued (.waiting number) ⟨true, none, some (.caller thread)⟩ .nothing
  | waitingStoring {number : Nat} {reply : Option R} (apart : ¬ queued)
      (isGood : good number reply) :
      Bond good thread queued (.waiting number) ⟨true, none, some (.caller thread)⟩
        (.storing reply)
  | waitingLocking {number : Nat} {reply : Option R} (apart : ¬ queued)
      (isGood : good number reply) :
      Bond good thread queued (.waiting number) ⟨true, reply, some (.caller thread)⟩
        (.locking reply)
  | sleeping {number : Nat} (isQueued : queued) :
      Bond good thread queued (.sleeping number) ⟨true, none, none⟩ .nothing
  | sleepingStoring {number : Nat} {reply : Option R} (apart : ¬ queued)
      (isGood : good number reply) :
      Bond good thread queued (.sleeping number) ⟨true, none, none⟩ (.storing reply)
  | sleepingLocking {number : Nat} {reply : Option R} (apart : ¬ queued)
      (isGood : good number reply) :
      Bond good thread queued (.sleeping number) ⟨true, reply, none⟩ (.locking reply)
  | sleepingSignalling {number : Nat} {reply : Option R} (apart : ¬ queued)
      (isGood : good number reply) :
      Bond good thread queued (.sleeping number) ⟨true, reply, some .reader⟩
        (.signalling reply)
  | wokenUnlocking {number : Nat} {reply : Option R} (apart : ¬ queued)
      (isGood : good number reply) :
      Bond good thread queued (.woken number) ⟨true, reply, some .reader⟩ (.unlocking reply)
  | woken {number : Nat} {reply : Option R} (apart : ¬ queued) (isGood : good number reply) :
      Bond good thread queued (.woken number) ⟨true, reply, none⟩ .nothing
  | unlocking {number : Nat} {reply : Option R} (apart : ¬ queued)
      (isGood : good number reply) :
      Bond good thread queued (.unlocking number) ⟨true, reply, some (.caller thread)⟩ .nothing
  | destroying {number : Nat} {reply : Option R} (apart : ¬ queued)
      (isGood : good number reply) :
      Bond good thread queued (.destroying number) ⟨true, reply, none⟩ .nothing

variable {before after : Nat → Option R → Prop} {thread : T} {queued queued' : Prop}
  {place : CommandPlace C} {record : RedisWait T R} {touch : Touch R}

/-- A bond lasts as long as the replies that were good stay so. -/
theorem Bond.mono (bond : Bond before thread queued place record touch)
    (same : queued' ↔ queued)
    (lasts : ∀ number reply, place.number = some number → before number reply →
      after number reply) : Bond after thread queued' place record touch := by
  cases bond with
  | bare isBare gone apart => exact .bare isBare gone (same.not.mpr apart)
  | locking isQueued => exact .locking (same.mpr isQueued)
  | releasing isQueued => exact .releasing (same.mpr isQueued)
  | waiting isQueued => exact .waiting (same.mpr isQueued)
  | waitingStoring apart isGood =>
      exact .waitingStoring (same.not.mpr apart) (lasts _ _ rfl isGood)
  | waitingLocking apart isGood =>
      exact .waitingLocking (same.not.mpr apart) (lasts _ _ rfl isGood)
  | sleeping isQueued => exact .sleeping (same.mpr isQueued)
  | sleepingStoring apart isGood =>
      exact .sleepingStoring (same.not.mpr apart) (lasts _ _ rfl isGood)
  | sleepingLocking apart isGood =>
      exact .sleepingLocking (same.not.mpr apart) (lasts _ _ rfl isGood)
  | sleepingSignalling apart isGood =>
      exact .sleepingSignalling (same.not.mpr apart) (lasts _ _ rfl isGood)
  | wokenUnlocking apart isGood =>
      exact .wokenUnlocking (same.not.mpr apart) (lasts _ _ rfl isGood)
  | woken apart isGood => exact .woken (same.not.mpr apart) (lasts _ _ rfl isGood)
  | unlocking apart isGood => exact .unlocking (same.not.mpr apart) (lasts _ _ rfl isGood)
  | destroying apart isGood => exact .destroying (same.not.mpr apart) (lasts _ _ rfl isGood)

/-- The records on the list belong to calls that last. -/
theorem Bond.alive_of_queued (bond : Bond before thread queued place record touch)
    (isQueued : queued) : record.alive = true := by
  cases bond <;> first | rfl | contradiction

/-- The reader does not touch a record that is gone. -/
theorem Bond.alive_of_touched (bond : Bond before thread queued place record touch)
    (touched : touch ≠ .nothing) : record.alive = true := by
  cases bond <;> first | rfl | exact absurd rfl touched

/-! ## The invariant -/

/-- Exactly the party that has locked the mutex is between a lock and its unlock. -/
structure Locked (thredis : Thredis T C R) : Prop where
  caller : ∀ thread, (thredis.place thread).holds = true ↔
    thredis.owner = some (.caller thread)
  reader : thredis.reader.holds = true ↔ thredis.owner = some .reader

/-- The commands of the records on the list are those that were not answered, in order. -/
structure InOrder (thredis : Thredis T C R) (queue : List T) : Prop where
  numbers : ∀ index thread, queue[index]? = some thread →
    (thredis.place thread).number = some (thredis.answered + index)
  all : (∀ thread number, thredis.place thread ≠ .pushing number) →
    thredis.sent.length = thredis.answered + queue.length
  /-- A command was flushed and its record is not on the list. -/
  pushing : ∀ thread number, thredis.place thread = .pushing number →
    number = thredis.answered + queue.length ∧ thredis.sent.length = number + 1

/-- A place behind the look at `thredis->redis` and in front of the unlock. -/
def CommandPlace.writes : CommandPlace C → Bool
  | .appending _ | .flushing _ | .pushing _ | .locking _ | .releasing _ => true
  | _ => false

/-- What the reader and the list know of each other. -/
structure Flow (answer : List C → R) (thredis : Thredis T C R) (queue : List T) : Prop where
  connected : thredis.connected = false ↔ thredis.reader = .ended
  ended : thredis.reader = .ended → queue = []
  writing : ∀ thread, (thredis.place thread).writes = true → thredis.reader ≠ .ended
  inOrder : thredis.reader.failed = false → InOrder thredis queue
  delivering : ∀ reply, thredis.reader = .delivering (some reply) →
    thredis.answered < thredis.sent.length ∧ reply = thredis.replyTo answer thredis.answered
  draining : thredis.reader = .delivering none → queue ≠ []

structure ThredisKept [DecidableEq T] (answer : List C → R) (thredis : Thredis T C R)
    (queue : List T) : Prop where
  noFault : thredis.faulted = false
  waits : thredis.waits.Represents queue
  bond : ∀ thread, Bond (Good answer thredis) thread (thread ∈ queue) (thredis.place thread)
    (thredis.record thread) (thredis.reader.touch thread)
  locked : Locked thredis
  answered : Answered answer thredis
  flow : Flow answer thredis queue

/-! ## What lasts -/

/-- One state comes behind another: no command is gone, and an error is not forgotten. -/
structure Later (thredis target : Thredis T C R) : Prop where
  sent : thredis.sent <+: target.sent
  failed : thredis.reader.failed = true → target.reader.failed = true

variable {thredis target : Thredis T C R} {number : Nat} {reply : Option R} {queue : List T}

theorem SentBy.lt (sentBy : SentBy thredis thread number) : number < thredis.sent.length := by
  rcases sentBy with ⟨command, hcommand⟩
  exact (List.getElem?_eq_some_iff.mp hcommand).1

theorem Later.sentBy (later : Later thredis target) (sentBy : SentBy thredis thread number) :
    SentBy target thread number := by
  rcases sentBy with ⟨command, hcommand⟩
  rcases later.sent with ⟨more, hmore⟩
  refine ⟨command, ?_⟩
  rw [← hmore, List.getElem?_append_left (List.getElem?_eq_some_iff.mp hcommand).1]
  exact hcommand

/-- The answer to a command does not depend on those behind it. -/
theorem Later.replyTo (later : Later thredis target) (inside : number < thredis.sent.length) :
    target.replyTo answer number = thredis.replyTo answer number := by
  rcases later.sent with ⟨more, hmore⟩
  rw [Thredis.replyTo, ← hmore, List.take_append_of_le_length inside]
  rfl

theorem Later.good (later : Later thredis target) (inside : number < thredis.sent.length)
    (isGood : Good answer thredis number reply) : Good answer target number reply := by
  refine ⟨fun given hgiven => ?_, fun hnull => later.failed (isGood.failed hnull)⟩
  rw [later.replyTo inside]
  exact isGood.own given hgiven

/-- Nothing was sent and nothing has returned. -/
theorem Answered.keep (answered : Answered answer thredis) (later : Later thredis target)
    (sent : target.sent = thredis.sent) (returned : target.returned = thredis.returned)
    (numbers : ∀ thread, (target.place thread).number = (thredis.place thread).number) :
    Answered answer target := by
  have hnumbers : target.returnedNumbers = thredis.returnedNumbers := by
    rw [Thredis.returnedNumbers, returned]
    rfl
  refine ⟨?_, hnumbers ▸ answered.once, ?_, ?_⟩
  · intro thread number reply hreturned
    rw [returned] at hreturned
    rcases answered.own thread number reply hreturned with ⟨hsent, hgood⟩
    exact ⟨later.sentBy hsent, later.good hsent.lt hgood⟩
  · intro number hnumber
    rw [sent] at hnumber
    simp only [hnumbers, numbers]
    exact answered.accounted number hnumber
  · intro thread number hnumber
    rw [numbers] at hnumber
    rcases answered.pending thread number hnumber with ⟨hsent, hpending⟩
    exact ⟨later.sentBy hsent, hnumbers ▸ hpending⟩

/-! ## Steps of a call -/

theorem Locked.unique (locked : Locked thredis) {other : T}
    (holds : (thredis.place thread).holds = true)
    (otherHolds : (thredis.place other).holds = true) : other = thread := by
  have howner := (locked.caller thread).mp holds
  rw [(locked.caller other).mp otherHolds] at howner
  cases howner
  rfl

/-- While a call has the mutex, the reader has not. -/
theorem Locked.reader_free (locked : Locked thredis)
    (holds : (thredis.place thread).holds = true) : thredis.reader.holds = false := by
  by_contra hreader
  have howner := locked.reader.mp (by simpa using hreader)
  rw [(locked.caller thread).mp holds] at howner
  cases howner

theorem Answered.returned_lt (answered : Answered answer thredis)
    (returned : number ∈ thredis.returnedNumbers) : number < thredis.sent.length := by
  rcases List.mem_filterMap.mp returned with ⟨⟨other, given, reply⟩, hmem, hnumber⟩
  have hgiven : given = some number := hnumber
  rw [hgiven] at hmem
  exact (answered.own other number reply hmem).1.lt

section Calls

variable [DecidableEq T]

/-- One thread goes to another place and has another record; the reader stands still. -/
structure Moved (thredis target : Thredis T C R) (thread : T) (place : CommandPlace C)
    (record : RedisWait T R) : Prop where
  place : target.place = Function.update thredis.place thread place
  record : target.record = Function.update thredis.record thread record
  reader : target.reader = thredis.reader
  faulted : target.faulted = thredis.faulted
  connected : target.connected = thredis.connected
  answered : target.answered = thredis.answered

theorem Moved.place_self (moved : Moved thredis target thread place record) :
    target.place thread = place := by
  rw [moved.place, Function.update_self]

theorem Moved.place_other (moved : Moved thredis target thread place record) {other : T}
    (apart : other ≠ thread) : target.place other = thredis.place other := by
  rw [moved.place, Function.update_of_ne apart]

theorem Moved.later (moved : Moved thredis target thread place record)
    (sent : thredis.sent <+: target.sent) : Later thredis target :=
  ⟨sent, fun hfailed => moved.reader ▸ hfailed⟩

/-- The bonds of the other threads last. -/
theorem Moved.bonds (moved : Moved thredis target thread place record)
    (kept : ThredisKept answer thredis queue) (sent : thredis.sent <+: target.sent)
    {longer : List T} (others : ∀ other, other ≠ thread → (other ∈ longer ↔ other ∈ queue))
    (bond : Bond (Good answer target) thread (thread ∈ longer) place record
      (thredis.reader.touch thread)) (other : T) :
    Bond (Good answer target) other (other ∈ longer) (target.place other) (target.record other)
      (target.reader.touch other) := by
  rw [moved.place, moved.record, moved.reader]
  by_cases hsame : other = thread
  · rw [hsame, Function.update_self, Function.update_self]
    exact bond
  · rw [Function.update_of_ne hsame, Function.update_of_ne hsame]
    refine (kept.bond other).mono (others other hsame) fun number reply hnumber isGood => ?_
    exact (moved.later sent).good (kept.answered.pending other number hnumber).1.lt isGood

/-- The mutex has the owner that the new place asks for. -/
theorem Moved.locked (moved : Moved thredis target thread place record)
    (locked : Locked thredis)
    (own : place.holds = true ↔ target.owner = some (.caller thread))
    (others : ∀ party, party ≠ .caller thread →
      (target.owner = some party ↔ thredis.owner = some party)) : Locked target := by
  refine ⟨fun other => ?_, ?_⟩
  · by_cases hsame : other = thread
    · rw [hsame, moved.place_self]
      exact own
    · rw [moved.place_other hsame, others (.caller other) fun hparty => ?_]
      · exact locked.caller other
      · cases hparty
        exact hsame rfl
  · rw [moved.reader, others .reader nofun]
    exact locked.reader

theorem Moved.numbers (moved : Moved thredis target thread place record)
    (number : place.number = (thredis.place thread).number) (other : T) :
    (target.place other).number = (thredis.place other).number := by
  by_cases hsame : other = thread
  · rw [hsame, moved.place_self]
    exact number
  · rw [moved.place_other hsame]

/-- Nothing is pushed, and the thread neither was nor is in front of a push. -/
theorem Moved.flow (moved : Moved thredis target thread place record)
    (flow : Flow answer thredis queue) (sent : target.sent = thredis.sent)
    (number : thread ∈ queue → place.number = (thredis.place thread).number)
    (pushed : ∀ number, thredis.place thread ≠ .pushing number)
    (pushing : ∀ number, place ≠ .pushing number)
    (writes : place.writes = true → thredis.reader ≠ .ended) : Flow answer target queue := by
  refine ⟨?_, ?_, ?_, ?_, ?_, ?_⟩
  · rw [moved.connected, moved.reader]
    exact flow.connected
  · rw [moved.reader]
    exact flow.ended
  · intro other hwrites
    rw [moved.reader]
    by_cases hsame : other = thread
    · rw [hsame, moved.place_self] at hwrites
      exact writes hwrites
    · rw [moved.place_other hsame] at hwrites
      exact flow.writing other hwrites
  · intro hfailed
    rw [moved.reader] at hfailed
    have hinOrder := flow.inOrder hfailed
    refine ⟨fun index other hindex => ?_, fun hnobody => ?_, fun other number hother => ?_⟩
    · rw [moved.answered, ← hinOrder.numbers index other hindex]
      by_cases hsame : other = thread
      · rw [hsame] at hindex ⊢
        rw [moved.place_self]
        exact number (List.mem_of_getElem? hindex)
      · rw [moved.place_other hsame]
    · rw [sent, moved.answered]
      refine hinOrder.all fun other number hother => ?_
      by_cases hsame : other = thread
      · rw [hsame] at hother
        exact pushed number hother
      · rw [← moved.place_other hsame] at hother
        exact hnobody other number hother
    · rw [sent, moved.answered]
      by_cases hsame : other = thread
      · rw [hsame, moved.place_self] at hother
        exact absurd hother (pushing number)
      · rw [moved.place_other hsame] at hother
        exact hinOrder.pushing other number hother
  · intro reply hreader
    rw [moved.reader] at hreader
    have hreply := flow.delivering reply hreader
    have hsame : target.replyTo answer thredis.answered =
        thredis.replyTo answer thredis.answered := by rw [Thredis.replyTo, sent]; rfl
    rw [sent, moved.answered, hsame]
    exact hreply
  · rw [moved.reader]
    exact flow.draining

/-- A step of a call that neither sends, nor pushes, nor returns. -/
theorem ThredisKept.move (kept : ThredisKept answer thredis queue) (record : RedisWait T R)
    (moved : Moved thredis target thread place record)
    (waits : target.waits = thredis.waits) (sent : target.sent = thredis.sent)
    (returned : target.returned = thredis.returned)
    (number : place.number = (thredis.place thread).number)
    (own : place.holds = true ↔ target.owner = some (.caller thread))
    (others : ∀ party, party ≠ .caller thread →
      (target.owner = some party ↔ thredis.owner = some party))
    (pushed : ∀ number, thredis.place thread ≠ .pushing number)
    (pushing : ∀ number, place ≠ .pushing number)
    (writes : place.writes = true → thredis.reader ≠ .ended)
    (bond : Bond (Good answer thredis) thread (thread ∈ queue) place record
      (thredis.reader.touch thread)) : ThredisKept answer target queue := by
  have hprefix : thredis.sent <+: target.sent := sent ▸ List.prefix_refl _
  have hlater := moved.later hprefix
  refine ⟨moved.faulted ▸ kept.noFault, waits ▸ kept.waits, ?_, moved.locked kept.locked own others,
    kept.answered.keep hlater sent returned (moved.numbers number),
    moved.flow kept.flow sent (fun _ => number) pushed pushing writes⟩
  refine moved.bonds kept hprefix (fun _ _ => Iff.rfl) ?_
  refine bond.mono Iff.rfl fun given reply hgiven isGood => ?_
  rw [number] at hgiven
  exact hlater.good (kept.answered.pending thread given hgiven).1.lt isGood

/-- A step of a call that leaves the mutex alone. -/
theorem ThredisKept.stay (kept : ThredisKept answer thredis queue)
    (moved : Moved thredis target thread place record)
    (waits : target.waits = thredis.waits) (sent : target.sent = thredis.sent)
    (returned : target.returned = thredis.returned) (owner : target.owner = thredis.owner)
    (number : place.number = (thredis.place thread).number)
    (holds : place.holds = (thredis.place thread).holds)
    (pushed : ∀ number, thredis.place thread ≠ .pushing number)
    (pushing : ∀ number, place ≠ .pushing number)
    (writes : place.writes = true → thredis.reader ≠ .ended)
    (bond : Bond (Good answer thredis) thread (thread ∈ queue) place record
      (thredis.reader.touch thread)) : ThredisKept answer target queue := by
  refine kept.move record moved waits sent returned number ?_ (fun _ _ => ?_) pushed pushing
    writes bond
  · rw [owner, holds]
    exact kept.locked.caller thread
  · rw [owner]

/-- While a call writes to the connection, the reader has met no error. -/
theorem ThredisKept.not_failed (kept : ThredisKept answer thredis queue)
    (writes : (thredis.place thread).writes = true)
    (holds : (thredis.place thread).holds = true) : thredis.reader.failed = false := by
  have hfree := kept.locked.reader_free holds
  have hgoing := kept.flow.writing thread writes
  cases hreader : thredis.reader with
  | ended => exact absurd hreader hgoing
  | polling | erred | readable => rfl
  | reading | taking | draining | delivering | storing | locking | signalling | unlocking =>
      rw [hreader] at hfree
      cases hfree

theorem ThredisKept.not_mem (kept : ThredisKept answer thredis queue)
    (bare : (thredis.place thread).bare = true) : thread ∉ queue := by
  have hbond := kept.bond thread
  generalize hplace : thredis.place thread = place at hbond bare
  generalize thredis.record thread = record at hbond
  generalize thredis.reader.touch thread = touch at hbond
  cases hbond with
  | bare _ _ apart => exact apart
  | _ => cases bare

theorem ThredisKept.bare_bond (kept : ThredisKept answer thredis queue)
    (bare : (thredis.place thread).bare = true) (isBare : place.bare = true) :
    Bond after thread (thread ∈ queue) place (thredis.record thread)
      (thredis.reader.touch thread) := by
  have hbond := kept.bond thread
  generalize hplace : thredis.place thread = old at hbond bare
  generalize thredis.record thread = record at hbond ⊢
  generalize thredis.reader.touch thread = touch at hbond ⊢
  cases hbond with
  | bare _ gone apart => exact .bare isBare gone apart
  | _ => cases bare

/-- A command is on the connection. -/
theorem ThredisKept.flush (kept : ThredisKept answer thredis queue) {command : C}
    (placed : thredis.place thread = .flushing command) :
    ThredisKept answer { thredis.moveTo thread (.pushing thredis.sent.length) with
      sent := thredis.sent ++ [(thread, command)] } queue := by
  have hmoved : Moved thredis { thredis.moveTo thread (.pushing thredis.sent.length) with
      sent := thredis.sent ++ [(thread, command)] } thread (.pushing thredis.sent.length)
      (thredis.record thread) :=
    ⟨rfl, (Function.update_eq_self thread thredis.record).symm, rfl, rfl, rfl, rfl⟩
  have hprefix : thredis.sent <+: thredis.sent ++ [(thread, command)] :=
    List.prefix_append _ _
  have hlater := hmoved.later hprefix
  have hholds : (thredis.place thread).holds = true := by rw [placed]; rfl
  have hbare : (thredis.place thread).bare = true := by rw [placed]; rfl
  have hgoing : thredis.reader.failed = false :=
    kept.not_failed (by rw [placed]; rfl) hholds
  have hapart := kept.not_mem hbare
  have hself : SentBy { thredis.moveTo thread (.pushing thredis.sent.length) with
      sent := thredis.sent ++ [(thread, command)] } thread thredis.sent.length :=
    ⟨command, List.getElem?_concat_length⟩
  -- nobody else is in front of a push
  have hnobody : ∀ other number, thredis.place other ≠ .pushing number := by
    intro other number hother
    have hsame : other = thread := kept.locked.unique hholds (by rw [hother]; rfl)
    rw [hsame, placed] at hother
    cases hother
  refine ⟨kept.noFault, kept.waits, ?_, ?_, ⟨?_, kept.answered.once, ?_, ?_⟩,
    ⟨kept.flow.connected, kept.flow.ended, ?_, fun _ => ⟨?_, ?_, ?_⟩, ?_, kept.flow.draining⟩⟩
  · refine hmoved.bonds kept hprefix (fun _ _ => Iff.rfl) ?_
    exact kept.bare_bond hbare rfl
  · refine hmoved.locked kept.locked ?_ (fun _ _ => Iff.rfl)
    exact iff_of_true rfl ((kept.locked.caller thread).mp hholds)
  · intro other number reply hreturned
    rcases kept.answered.own other number reply hreturned with ⟨hsent, hgood⟩
    exact ⟨hlater.sentBy hsent, hlater.good hsent.lt hgood⟩
  · intro number hnumber
    rw [List.length_append, List.length_singleton] at hnumber
    rcases Nat.lt_succ_iff_lt_or_eq.mp hnumber with hbefore | hlast
    · rcases kept.answered.accounted number hbefore with hreturned | ⟨other, hother⟩
      · exact .inl hreturned
      · refine .inr ⟨other, ?_⟩
        rw [hmoved.place_other fun hsame => ?_]
        · exact hother
        · rw [hsame, placed] at hother
          cases hother
    · exact .inr ⟨thread, by rw [hmoved.place_self, hlast]; rfl⟩
  · intro other number hnumber
    by_cases hsame : other = thread
    · rw [hsame, hmoved.place_self] at hnumber
      cases hnumber
      rw [hsame]
      exact ⟨hself, fun hreturned => Nat.lt_irrefl _ (kept.answered.returned_lt hreturned)⟩
    · rw [hmoved.place_other hsame] at hnumber
      rcases kept.answered.pending other number hnumber with ⟨hsent, hpending⟩
      exact ⟨hlater.sentBy hsent, hpending⟩
  · intro other hwrites
    by_cases hsame : other = thread
    · exact kept.flow.writing thread (by rw [placed]; rfl)
    · rw [hmoved.place_other hsame] at hwrites
      exact kept.flow.writing other hwrites
  · intro index other hindex
    rw [hmoved.place_other (ne_of_mem_of_not_mem (List.mem_of_getElem? hindex) hapart)]
    exact (kept.flow.inOrder hgoing).numbers index other hindex
  · intro hpushing
    exact absurd hmoved.place_self (hpushing thread _)
  · intro other number hother
    by_cases hsame : other = thread
    · rw [hsame, hmoved.place_self] at hother
      cases hother
      exact ⟨(kept.flow.inOrder hgoing).all hnobody, List.length_append⟩
    · rw [hmoved.place_other hsame] at hother
      exact absurd hother (hnobody other number)
  · intro reply hreader
    rcases kept.flow.delivering reply hreader with ⟨hless, hreply⟩
    refine ⟨?_, hreply.trans (hlater.replyTo hless).symm⟩
    rw [List.length_append]
    exact Nat.lt_add_right _ hless

/-- `pushWaiter` meets a list whose last record is there. -/
theorem ThredisKept.pushWaiter_eq (kept : ThredisKept answer thredis queue) (thread : T) :
    (thredis.initWait thread).pushWaiter thread =
      { thredis.setRecord thread ⟨true, none, none⟩ with
        waits := (thredis.waits.clear thread).push thread } := by
  rw [Thredis.pushWaiter]
  split
  · rfl
  · next last hlast =>
      have halive : ((thredis.initWait thread).record last).alive = true := by
        by_cases hsame : last = thread
        · rw [hsame]
          exact congrArg RedisWait.alive (Function.update_self thread _ thredis.record)
        · have hqueued : last ∈ queue := kept.waits.mem_of_tail hlast
          have hrecord : (thredis.initWait thread).record last = thredis.record last :=
            Function.update_of_ne hsame _ _
          rw [hrecord]
          exact (kept.bond last).alive_of_queued hqueued
      rw [if_pos halive]
      rfl

/-- The record of a call is put at the end of the list. -/
theorem ThredisKept.push (kept : ThredisKept answer thredis queue) {number : Nat}
    (placed : thredis.place thread = .pushing number) :
    ThredisKept answer (((thredis.initWait thread).pushWaiter thread).moveTo thread
      (.locking number)) (queue ++ [thread]) := by
  rw [kept.pushWaiter_eq]
  have hmoved : Moved thredis (Thredis.moveTo { thredis.setRecord thread ⟨true, none, none⟩ with
      waits := (thredis.waits.clear thread).push thread } thread (.locking number)) thread
      (.locking number) ⟨true, none, none⟩ := ⟨rfl, rfl, rfl, rfl, rfl, rfl⟩
  have hholds : (thredis.place thread).holds = true := by rw [placed]; rfl
  have hgoing : thredis.reader.failed = false := kept.not_failed (by rw [placed]; rfl) hholds
  have hapart := kept.not_mem (by rw [placed]; rfl)
  have hinOrder := kept.flow.inOrder hgoing
  rcases hinOrder.pushing thread number placed with ⟨hnumber, hlength⟩
  refine ⟨kept.noFault, ?_, ?_, ?_, ?_, ?_⟩
  · exact (kept.waits.clear hapart).push hapart (TailList.clear_next_self _ thread)
  · refine hmoved.bonds kept (List.prefix_refl _) (fun other hother => ?_) ?_
    · rw [List.mem_append, List.mem_singleton, or_iff_left hother]
    · have htouch : thredis.reader.touch thread = .nothing := by
        cases hreader : thredis.reader with
        | polling | erred | readable | reading | taking | draining | ended | delivering => rfl
        | storing | locking | signalling | unlocking =>
            have hfree := kept.locked.reader_free hholds
            rw [hreader] at hfree
            cases hfree
      rw [htouch]
      exact .locking (List.mem_append_right _ (List.mem_singleton_self thread))
  · refine hmoved.locked kept.locked ?_ (fun _ _ => Iff.rfl)
    exact iff_of_true rfl ((kept.locked.caller thread).mp hholds)
  · exact kept.answered.keep (hmoved.later (List.prefix_refl _)) rfl rfl
      (hmoved.numbers (by rw [placed]; rfl))
  · have hwriting : ∀ other, (Function.update thredis.place thread (.locking number)
        other).writes = true → thredis.reader ≠ .ended := by
      intro other hwrites
      by_cases hsame : other = thread
      · exact kept.flow.writing thread (by rw [placed]; rfl)
      · rw [Function.update_of_ne hsame] at hwrites
        exact kept.flow.writing other hwrites
    have hgo : thredis.reader ≠ .ended := kept.flow.writing thread (by rw [placed]; rfl)
    refine ⟨kept.flow.connected, fun hended => absurd hended hgo, hwriting,
      fun _ => ⟨?_, fun _ => ?_, ?_⟩, kept.flow.delivering, fun _ => ?_⟩
    · intro index other hindex
      rcases Nat.lt_or_ge index queue.length with hinside | hbehind
      · rw [List.getElem?_append_left hinside] at hindex
        rw [hmoved.place_other (ne_of_mem_of_not_mem (List.mem_of_getElem? hindex) hapart)]
        exact hinOrder.numbers index other hindex
      · rw [List.getElem?_append_right hbehind, List.getElem?_singleton] at hindex
        split_ifs at hindex with hlast
        cases hindex
        rw [hmoved.place_self, show index = queue.length by omega]
        exact congrArg some hnumber
    · have hsent : thredis.sent.length = thredis.answered + (queue ++ [thread]).length := by
        rw [List.length_append, List.length_singleton]
        omega
      exact hsent
    · intro other pushed hother
      by_cases hsame : other = thread
      · rw [hsame, hmoved.place_self] at hother
        cases hother
      · rw [hmoved.place_other hsame] at hother
        exact absurd (kept.locked.unique hholds (by rw [hother]; rfl)) hsame
    · exact List.append_ne_nil_of_right_ne_nil _ (List.cons_ne_nil _ _)

/-- A call is over. -/
theorem Answered.leave (answered : Answered answer thredis)
    (moved : Moved thredis target thread .outside record) (sent : target.sent = thredis.sent)
    (returned : target.returned =
      thredis.returned ++ [(thread, (thredis.place thread).number, reply)])
    (isGood : ∀ number, (thredis.place thread).number = some number →
      Good answer thredis number reply) : Answered answer target := by
  have hlater := moved.later (sent ▸ List.prefix_refl _)
  have hnumbers : target.returnedNumbers =
      thredis.returnedNumbers ++ (thredis.place thread).number.toList := by
    rw [Thredis.returnedNumbers, returned, List.filterMap_append]
    cases (thredis.place thread).number <;> rfl
  refine ⟨?_, ?_, ?_, ?_⟩
  · intro other number given hreturned
    rw [returned] at hreturned
    rcases List.mem_append.mp hreturned with hbefore | hlast
    · rcases answered.own other number given hbefore with ⟨hsent, hgood⟩
      exact ⟨hlater.sentBy hsent, hlater.good hsent.lt hgood⟩
    · rw [List.mem_singleton, Prod.mk.injEq, Prod.mk.injEq] at hlast
      rcases hlast with ⟨hother, hnumber, hgiven⟩
      have hsent := (answered.pending thread number hnumber.symm).1
      rw [hother, hgiven]
      exact ⟨hlater.sentBy hsent, hlater.good hsent.lt (isGood number hnumber.symm)⟩
  · rw [hnumbers]
    refine List.nodup_append.mpr ⟨answered.once, ?_, ?_⟩
    · cases (thredis.place thread).number <;> simp
    · rintro number hnumber _ hlast rfl
      exact (answered.pending thread number (Option.mem_toList.mp hlast)).2 hnumber
  · intro number hnumber
    rw [sent] at hnumber
    rw [hnumbers]
    rcases answered.accounted number hnumber with hbefore | ⟨other, hother⟩
    · exact .inl (List.mem_append_left _ hbefore)
    · by_cases hsame : other = thread
      · rw [hsame] at hother
        exact .inl (List.mem_append_right _ (Option.mem_toList.mpr hother))
      · refine .inr ⟨other, ?_⟩
        rw [moved.place_other hsame]
        exact hother
  · intro other number hother
    by_cases hsame : other = thread
    · rw [hsame, moved.place_self] at hother
      cases hother
    · rw [moved.place_other hsame] at hother
      rcases answered.pending other number hother with ⟨hsent, hpending⟩
      refine ⟨hlater.sentBy hsent, fun hreturned => ?_⟩
      rw [hnumbers] at hreturned
      rcases List.mem_append.mp hreturned with hbefore | hlast
      · exact hpending hbefore
      · -- a command has one sender
        rcases (answered.pending thread number (Option.mem_toList.mp hlast)).1 with ⟨_, hthis⟩
        rcases hsent with ⟨_, hthat⟩
        rw [hthis] at hthat
        cases hthat
        exact hsame rfl

theorem ThredisKept.leave (kept : ThredisKept answer thredis queue) (record : RedisWait T R)
    (moved : Moved thredis target thread .outside record)
    (waits : target.waits = thredis.waits) (sent : target.sent = thredis.sent)
    (returned : target.returned =
      thredis.returned ++ [(thread, (thredis.place thread).number, reply)])
    (free : target.owner ≠ some (.caller thread))
    (others : ∀ party, party ≠ .caller thread →
      (target.owner = some party ↔ thredis.owner = some party))
    (pushed : ∀ number, thredis.place thread ≠ .pushing number)
    (apart : thread ∉ queue) (untouched : thredis.reader.touch thread = .nothing)
    (gone : record.alive = false)
    (isGood : ∀ number, (thredis.place thread).number = some number →
      Good answer thredis number reply) : ThredisKept answer target queue := by
  refine ⟨moved.faulted ▸ kept.noFault, waits ▸ kept.waits, ?_, ?_,
    kept.answered.leave moved sent returned isGood, ?_⟩
  · refine moved.bonds kept (sent ▸ List.prefix_refl _) (fun _ _ => Iff.rfl) ?_
    rw [untouched]
    exact .bare rfl gone apart
  · exact moved.locked kept.locked (iff_of_false nofun free) others
  · exact moved.flow kept.flow sent (fun hqueued => absurd hqueued apart) pushed nofun nofun

/-- The mutex is taken by a call when nobody has it. -/
theorem ThredisKept.lock (kept : ThredisKept answer thredis queue) {command : C}
    (placed : thredis.place thread = .entering command)
    (enabled : ((thredis.lock (.caller thread)).map fun locked =>
      locked.moveTo thread (.checking command)) = some target) :
    ThredisKept answer target queue := by
  rcases Option.map_eq_some_iff.mp enabled with ⟨locked, hlocked, rfl⟩
  rw [Thredis.lock] at hlocked
  split_ifs at hlocked with hnobody
  cases hlocked
  refine kept.move (thredis.record thread)
    ⟨rfl, (Function.update_eq_self thread thredis.record).symm, rfl, rfl, rfl, rfl⟩ rfl rfl rfl
    (by rw [placed]; rfl) (iff_of_true rfl rfl) (fun party hparty => ?_) (by rw [placed]; nofun)
    nofun nofun (kept.bare_bond (by rw [placed]; rfl) rfl)
  rw [hnobody]
  refine iff_of_false (fun hsame => ?_) nofun
  exact hparty (Option.some.inj hsame).symm

/-- A step of a call in which its record is not on the list and there is nothing to answer. -/
theorem ThredisKept.bare_step (kept : ThredisKept answer thredis queue)
    (moved : Moved thredis target thread place (thredis.record thread))
    (waits : target.waits = thredis.waits) (sent : target.sent = thredis.sent)
    (returned : target.returned = thredis.returned) (owner : target.owner = thredis.owner)
    (bare : (thredis.place thread).bare = true) (isBare : place.bare = true)
    (number : (thredis.place thread).number = none) (noNumber : place.number = none)
    (holds : place.holds = (thredis.place thread).holds)
    (writes : place.writes = true → thredis.reader ≠ .ended) :
    ThredisKept answer target queue := by
  refine kept.stay moved waits sent returned owner (noNumber.trans number.symm) holds ?_ ?_
    writes (kept.bare_bond bare isBare)
  · intro given hgiven
    rw [hgiven] at number
    cases number
  · rintro given rfl
    cases noNumber

/-- The call is about to fail. -/
theorem ThredisKept.fail (kept : ThredisKept answer thredis queue) (broken : Bool)
    (bare : (thredis.place thread).bare = true)
    (number : (thredis.place thread).number = none)
    (holds : (thredis.place thread).holds = true) :
    ThredisKept answer { thredis.moveTo thread .failing with broken } queue :=
  kept.bare_step
    ⟨rfl, (Function.update_eq_self thread thredis.record).symm, rfl, rfl, rfl, rfl⟩ rfl rfl rfl
    rfl bare rfl number rfl holds.symm nofun

theorem ThredisKept.bond_at (kept : ThredisKept answer thredis queue)
    (placed : thredis.place thread = place) :
    Bond (Good answer thredis) thread (thread ∈ queue) place (thredis.record thread)
      (thredis.reader.touch thread) :=
  placed ▸ kept.bond thread

/-- A mutex of a record is locked or unlocked by its own call. -/
theorem ThredisKept.mutex (kept : ThredisKept answer thredis queue) (holder : Option (Party T))
    (number : place.number = (thredis.place thread).number)
    (holds : place.holds = (thredis.place thread).holds)
    (pushed : ∀ number, thredis.place thread ≠ .pushing number)
    (pushing : ∀ number, place ≠ .pushing number)
    (writes : place.writes = true → thredis.reader ≠ .ended)
    (bond : Bond (Good answer thredis) thread (thread ∈ queue) place
      { thredis.record thread with mutex := holder } (thredis.reader.touch thread)) :
    ThredisKept answer ((thredis.setMutex thread holder).moveTo thread place) queue :=
  kept.stay ⟨rfl, rfl, rfl, rfl, rfl, rfl⟩ rfl rfl rfl rfl number holds pushed pushing writes bond

/-- A step of a thread in `thredis_command`. -/
theorem commandStep_kept (kept : ThredisKept answer thredis queue) {move : CommandMove C}
    (signalled : move ≠ .spurious)
    (enabled : thredis.commandStep thread (thredis.place thread) move = some target) :
    ∃ longer, ThredisKept answer target longer := by
  have hself := (Function.update_eq_self thread thredis.record).symm
  -- a thread has one kind of move in each place, but for the failures of the client library
  cases hplace : thredis.place thread <;> cases move
  all_goals simp only [hplace, Thredis.commandStep, Option.some.injEq, reduceCtorEq] at enabled
  case outside.call command =>
      cases enabled
      exact ⟨queue, kept.bare_step ⟨rfl, hself, rfl, rfl, rfl, rfl⟩ rfl rfl rfl rfl
        (by rw [hplace]; rfl) rfl (by rw [hplace]; rfl) rfl (by rw [hplace]; rfl) nofun⟩
  case entering.go command => exact ⟨queue, kept.lock hplace enabled⟩
  case checking.go command =>
      split_ifs at enabled with hconnected
      · cases enabled
        refine ⟨queue, kept.bare_step ⟨rfl, hself, rfl, rfl, rfl, rfl⟩ rfl rfl rfl rfl
          (by rw [hplace]; rfl) rfl (by rw [hplace]; rfl) rfl (by rw [hplace]; rfl)
          fun _ hended => ?_⟩
        rw [kept.flow.connected.mpr hended] at hconnected
        cases hconnected
      · cases enabled
        exact ⟨queue, kept.fail _ (by rw [hplace]; rfl) (by rw [hplace]; rfl)
          (by rw [hplace]; rfl)⟩
  case appending.go command =>
      cases enabled
      exact ⟨queue, kept.bare_step ⟨rfl, hself, rfl, rfl, rfl, rfl⟩ rfl rfl rfl rfl
        (by rw [hplace]; rfl) rfl (by rw [hplace]; rfl) rfl (by rw [hplace]; rfl)
        fun _ => kept.flow.writing thread (by rw [hplace]; rfl)⟩
  case appending.fail command =>
      cases enabled
      exact ⟨queue, kept.fail true (by rw [hplace]; rfl) (by rw [hplace]; rfl)
        (by rw [hplace]; rfl)⟩
  case flushing.go command =>
      split_ifs at enabled
      cases enabled
      exact ⟨queue, kept.flush hplace⟩
  case flushing.fail command =>
      cases enabled
      exact ⟨queue, kept.fail true (by rw [hplace]; rfl) (by rw [hplace]; rfl)
        (by rw [hplace]; rfl)⟩
  case failing.go =>
      cases enabled
      have hbond := kept.bond_at hplace
      generalize hrecord : thredis.record thread = record at hbond
      generalize htouch : thredis.reader.touch thread = touch at hbond
      cases hbond with
      | bare _ gone apart =>
          have howner := (kept.locked.caller thread).mp (by rw [hplace]; rfl)
          refine ⟨queue, kept.leave record ⟨rfl, hrecord ▸ hself, rfl, rfl, rfl, rfl⟩
            rfl rfl (by rw [hplace]; rfl) nofun (fun party hparty => ?_) (by rw [hplace]; nofun)
            apart htouch gone (by rw [hplace]; nofun)⟩
          rw [howner]
          exact iff_of_false nofun fun hsame => hparty (Option.some.inj hsame).symm
  case pushing.go number =>
      cases enabled
      exact ⟨queue ++ [thread], kept.push hplace⟩
  case locking.go number =>
      split_ifs at enabled
      cases enabled
      have hbond := kept.bond_at hplace
      refine ⟨queue, kept.mutex _ (by rw [hplace]; rfl) (by rw [hplace]; rfl)
        (by rw [hplace]; nofun) nofun
        (fun _ => kept.flow.writing thread (by rw [hplace]; rfl)) ?_⟩
      generalize thredis.record thread = record at hbond ⊢
      generalize thredis.reader.touch thread = touch at hbond ⊢
      cases hbond with
      | bare isBare => cases isBare
      | locking isQueued => exact .releasing isQueued
  case releasing.go number =>
      cases enabled
      have hbond := kept.bond_at hplace
      have howner := (kept.locked.caller thread).mp (by rw [hplace]; rfl)
      refine ⟨queue, kept.move (thredis.record thread) ⟨rfl, hself, rfl, rfl, rfl, rfl⟩
        rfl rfl rfl (by rw [hplace]; rfl) (iff_of_false nofun nofun) (fun party hparty => ?_)
        (by rw [hplace]; nofun) nofun nofun ?_⟩
      · rw [howner]
        exact iff_of_false nofun fun hsame => hparty (Option.some.inj hsame).symm
      · generalize thredis.record thread = record at hbond ⊢
        generalize thredis.reader.touch thread = touch at hbond ⊢
        cases hbond with
        | bare isBare => cases isBare
        | releasing isQueued => exact .waiting isQueued
  case waiting.go number =>
      cases enabled
      have hbond := kept.bond_at hplace
      refine ⟨queue, kept.mutex _ (by rw [hplace]; rfl) (by rw [hplace]; rfl)
        (by rw [hplace]; nofun) nofun nofun ?_⟩
      generalize thredis.record thread = record at hbond ⊢
      generalize thredis.reader.touch thread = touch at hbond ⊢
      cases hbond with
      | bare isBare => cases isBare
      | waiting isQueued => exact .sleeping isQueued
      | waitingStoring apart isGood => exact .sleepingStoring apart isGood
      | waitingLocking apart isGood => exact .sleepingLocking apart isGood
  case sleeping.spurious => exact absurd rfl signalled
  case woken.go number =>
      split_ifs at enabled with hfree
      cases enabled
      have hbond := kept.bond_at hplace
      refine ⟨queue, kept.mutex _ (by rw [hplace]; rfl) (by rw [hplace]; rfl)
        (by rw [hplace]; nofun) nofun nofun ?_⟩
      generalize thredis.record thread = record at hbond hfree ⊢
      generalize thredis.reader.touch thread = touch at hbond ⊢
      cases hbond with
      | bare isBare => cases isBare
      | wokenUnlocking => cases hfree
      | woken apart isGood => exact .unlocking apart isGood
  case unlocking.go number =>
      cases enabled
      have hbond := kept.bond_at hplace
      refine ⟨queue, kept.mutex _ (by rw [hplace]; rfl) (by rw [hplace]; rfl)
        (by rw [hplace]; nofun) nofun nofun ?_⟩
      generalize thredis.record thread = record at hbond ⊢
      generalize thredis.reader.touch thread = touch at hbond ⊢
      cases hbond with
      | bare isBare => cases isBare
      | unlocking apart isGood => exact .destroying apart isGood
  case destroying.go number =>
      cases enabled
      have hbond := kept.bond_at hplace
      generalize hrecord : thredis.record thread = record at hbond
      generalize htouch : thredis.reader.touch thread = touch at hbond
      cases hbond with
      | bare isBare => cases isBare
      | destroying apart isGood =>
          refine ⟨queue, kept.leave _ ⟨rfl, rfl, rfl, rfl, rfl, rfl⟩ rfl rfl (by rw [hplace]; rfl)
            ?_ (fun _ _ => Iff.rfl) (by rw [hplace]; nofun) apart htouch rfl ?_⟩
          · intro howner
            have hholds := (kept.locked.caller thread).mpr howner
            rw [hplace] at hholds
            cases hholds
          · intro given hgiven
            rw [hplace] at hgiven
            cases hgiven
            exact isGood

end Calls

end MmtProbe.Output
