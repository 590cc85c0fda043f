/-
# The reader hands out the replies

The reader takes the first record of the list for each reply, and every record when the
connection has failed.  With what the calls do, which is in the module before, this gives
what holds in every run: a reply is the answer to the command of the thread that gets it, no
signal is lost and no record is touched behind its call, and nobody waits for nothing.
-/

import MmtProbe.Output.ThredisReplies

namespace MmtProbe.Output

open MmtProbe.Math

variable {T C R : Type} {answer : List C → R} {thread : T} {thredis target : Thredis T C R}
  {number : Nat} {reply : Option R} {queue : List T}

/-! ## Steps that touch no record -/

theorem Locked.read (locked : Locked thredis)
    (holds : ∀ thread, (target.place thread).holds = (thredis.place thread).holds)
    (own : target.reader.holds = true ↔ target.owner = some .reader)
    (others : ∀ thread, target.owner = some (.caller thread) ↔
      thredis.owner = some (.caller thread)) : Locked target := by
  refine ⟨fun thread => ?_, own⟩
  rw [holds, others]
  exact locked.caller thread

/-- The reader goes to a place in which it has nothing to deliver. -/
theorem Flow.read (flow : Flow answer thredis queue) (sent : target.sent = thredis.sent)
    (answered : target.answered = thredis.answered)
    (connected : target.connected = thredis.connected)
    (numbers : ∀ thread, (target.place thread).number = (thredis.place thread).number)
    (pushing : ∀ thread number, target.place thread = .pushing number ↔
      thredis.place thread = .pushing number)
    (failed : target.reader.failed = false → thredis.reader.failed = false)
    (going : thredis.reader ≠ .ended) (goes : target.reader ≠ .ended)
    (delivers : ∀ reply, target.reader ≠ .delivering reply) : Flow answer target queue := by
  refine ⟨?_, fun hended => absurd hended goes, fun _ _ => goes, fun hfine => ?_,
    fun reply hreader => absurd hreader (delivers _), fun hreader => absurd hreader (delivers _)⟩
  · rw [connected, flow.connected]
    exact iff_of_false going goes
  · have hinOrder := flow.inOrder (failed hfine)
    refine ⟨fun index thread hindex => ?_, fun hnobody => ?_, fun thread number hpushing => ?_⟩
    · rw [numbers, answered]
      exact hinOrder.numbers index thread hindex
    · rw [sent, answered]
      exact hinOrder.all fun thread number => (pushing thread number).not.mp (hnobody thread number)
    · rw [sent, answered]
      exact hinOrder.pushing thread number ((pushing thread number).mp hpushing)

section Reading

variable [DecidableEq T]

/-- The reader goes on and touches no record. -/
theorem ThredisKept.read (kept : ThredisKept answer thredis queue)
    (place : target.place = thredis.place) (record : target.record = thredis.record)
    (waits : target.waits = thredis.waits) (sent : target.sent = thredis.sent)
    (returned : target.returned = thredis.returned) (faulted : target.faulted = false)
    (touches : ∀ thread, target.reader.touch thread = thredis.reader.touch thread)
    (failed : thredis.reader.failed = true → target.reader.failed = true)
    (own : target.reader.holds = true ↔ target.owner = some .reader)
    (others : ∀ thread, target.owner = some (.caller thread) ↔
      thredis.owner = some (.caller thread))
    (flow : Flow answer target queue) : ThredisKept answer target queue := by
  have hlater : Later thredis target := ⟨sent ▸ List.prefix_refl _, failed⟩
  refine ⟨faulted, waits ▸ kept.waits, fun thread => ?_,
    kept.locked.read (fun _ => place ▸ rfl) own others,
    kept.answered.keep hlater sent returned fun _ => place ▸ rfl, flow⟩
  rw [place, record, touches]
  exact (kept.bond thread).mono Iff.rfl fun number reply hnumber =>
    hlater.good (kept.answered.pending thread number hnumber).1.lt

/-- While the reader has the mutex, no call is in front of a push. -/
theorem ThredisKept.nobody_pushes (kept : ThredisKept answer thredis queue)
    (holds : thredis.reader.holds = true) (thread : T) (number : Nat) :
    thredis.place thread ≠ .pushing number := by
  intro hpushing
  have hholds : (thredis.place thread).holds = true := by rw [hpushing]; rfl
  have hfree := kept.locked.reader_free hholds
  rw [holds] at hfree
  cases hfree

/-- The reader goes on in its hold of the mutex, to a place where it delivers nothing. -/
theorem ThredisKept.goOn (kept : ThredisKept answer thredis queue) (reader : ReaderPlace T R)
    (owner : Option (Party T)) (broken : Bool)
    (touches : ∀ thread, reader.touch thread = thredis.reader.touch thread)
    (failed : reader.failed = thredis.reader.failed ∨ reader = .draining)
    (own : reader.holds = true ↔ owner = some .reader)
    (others : ∀ thread, owner = some (.caller thread) ↔ thredis.owner = some (.caller thread))
    (going : thredis.reader ≠ .ended) (goes : reader ≠ .ended)
    (delivers : ∀ reply, reader ≠ .delivering reply) :
    ThredisKept answer { thredis with reader, owner, broken } queue := by
  have hlater : thredis.reader.failed = true → reader.failed = true := by
    rcases failed with hsame | hdrains
    · exact fun hfailed => hsame.trans hfailed
    · exact fun _ => by rw [hdrains]; rfl
  refine kept.read rfl rfl rfl rfl rfl kept.noFault touches hlater own others ?_
  refine kept.flow.read rfl rfl rfl (fun _ => rfl) (fun _ _ => Iff.rfl) (fun hfine => ?_) going
    goes delivers
  rcases failed with hsame | hdrains
  · exact hsame.symm.trans hfine
  · have hnot : reader.failed = false := hfine
    rw [hdrains] at hnot
    cases hnot

/-- A reply is there: it is the next one. -/
theorem ThredisKept.takeReply (kept : ThredisKept answer thredis queue)
    (reads : thredis.reader = .taking) (inside : thredis.answered < thredis.sent.length) :
    ThredisKept answer { thredis with
      reader := .delivering (some (thredis.replyTo answer thredis.answered)) } queue := by
  have howner := kept.locked.reader.mp (by rw [reads]; rfl)
  have hgoing : thredis.reader ≠ .ended := by rw [reads]; nofun
  refine kept.read rfl rfl rfl rfl rfl kept.noFault (fun _ => by rw [reads]; rfl)
    (by rw [reads]; nofun) (iff_of_true rfl howner) (fun _ => Iff.rfl) ?_
  refine ⟨iff_of_false (fun hnone => hgoing (kept.flow.connected.mp hnone)) nofun, nofun,
    fun _ _ => nofun, fun _ => ?_, ?_, nofun⟩
  · have hinOrder := kept.flow.inOrder (by rw [reads]; rfl)
    exact ⟨hinOrder.numbers, hinOrder.all, hinOrder.pushing⟩
  · intro given hgiven
    cases hgiven
    exact ⟨inside, rfl⟩

/-- Somebody waits, and is to get NULL. -/
theorem ThredisKept.drain (kept : ThredisKept answer thredis queue)
    (drains : thredis.reader = .draining) (waiting : queue ≠ []) :
    ThredisKept answer { thredis with reader := .delivering none } queue := by
  have howner := kept.locked.reader.mp (by rw [drains]; rfl)
  have hgoing : thredis.reader ≠ .ended := by rw [drains]; nofun
  refine kept.read rfl rfl rfl rfl rfl kept.noFault (fun _ => by rw [drains]; rfl)
    (fun _ => rfl) (iff_of_true rfl howner) (fun _ => Iff.rfl) ?_
  exact ⟨iff_of_false (fun hnone => hgoing (kept.flow.connected.mp hnone)) nofun, nofun,
    fun _ _ => nofun, nofun, nofun, fun _ => waiting⟩

/-- Nobody waits any more, and the reader ends. -/
theorem ThredisKept.finish (kept : ThredisKept answer thredis [])
    (drains : thredis.reader = .draining) :
    ThredisKept answer { thredis.unlock with connected := false, reader := .ended } [] := by
  have howner := kept.locked.reader.mp (by rw [drains]; rfl)
  refine kept.read rfl rfl rfl rfl rfl kept.noFault (fun _ => by rw [drains]; rfl)
    (fun _ => rfl) (iff_of_false nofun nofun) (fun thread => ?_) ?_
  · rw [howner]
    exact iff_of_false nofun nofun
  · refine ⟨iff_of_true rfl rfl, fun _ => rfl, fun thread hwrites => ?_, nofun, nofun, nofun⟩
    -- who writes to the connection has the mutex, which the reader has
    have hholds : (thredis.place thread).holds = true := by
      have hplace : (thredis.place thread).writes = true := hwrites
      revert hplace
      cases thredis.place thread <;> first | exact fun _ => rfl | nofun
    have hcaller := (kept.locked.caller thread).mp hholds
    rw [howner] at hcaller
    cases hcaller

end Reading

/-! ## The delivery of a reply -/

/-- A record that is taken from the list belongs to a call that waits or sleeps. -/
theorem Bond.pop {before after : Nat → Option R → Prop} {queued queued' : Prop}
    {place : CommandPlace C} {record : RedisWait T R}
    (bond : Bond before thread queued place record .nothing) (isQueued : queued)
    (apart : ¬ queued') (free : place.holds = false)
    (isGood : ∀ number, place.number = some number → after number reply) :
    Bond after thread queued' place record (.storing reply) := by
  cases bond with
  | bare _ _ notQueued => exact absurd isQueued notQueued
  | locking => cases free
  | releasing => cases free
  | waiting => exact .waitingStoring apart (isGood _ rfl)
  | sleeping => exact .sleepingStoring apart (isGood _ rfl)
  | woken notQueued => exact absurd isQueued notQueued
  | unlocking notQueued => exact absurd isQueued notQueued
  | destroying notQueued => exact absurd isQueued notQueued

section Delivery

variable [DecidableEq T]

theorem touch_of_ne {other : T} (apart : other ≠ thread) (reply : Option R) :
    (ReaderPlace.storing thread reply).touch other = .nothing ∧
      (ReaderPlace.locking thread reply).touch other = .nothing ∧
      (ReaderPlace.signalling thread reply).touch other = .nothing ∧
      (ReaderPlace.unlocking thread reply).touch other = .nothing := by
  simp only [ReaderPlace.touch, if_neg apart.symm, and_self]

/-- While the reader delivers, the list has a first record. -/
theorem ThredisKept.waiting (kept : ThredisKept answer thredis queue)
    (delivers : thredis.reader = .delivering reply) : queue ≠ [] := by
  cases reply with
  | none => exact kept.flow.draining delivers
  | some given =>
      have hinside := (kept.flow.delivering given delivers).1
      have hinOrder := kept.flow.inOrder (by rw [delivers]; rfl)
      have hlength := hinOrder.all (kept.nobody_pushes (by rw [delivers]; rfl))
      rintro rfl
      rw [List.length_nil] at hlength
      omega

/-- What the reader delivers is good for the first record of the list. -/
theorem ThredisKept.first_good (kept : ThredisKept answer thredis (thread :: queue))
    (delivers : thredis.reader = .delivering reply)
    (numbered : (thredis.place thread).number = some number)
    (later : Later thredis target) (failed : target.reader.failed = reply.isNone) :
    Good answer target number reply := by
  refine ⟨fun given hgiven => ?_, fun hnull => by rw [failed, hnull]; rfl⟩
  rw [hgiven] at delivers
  rcases kept.flow.delivering given delivers with ⟨hinside, hreply⟩
  have hinOrder := kept.flow.inOrder (by rw [delivers]; rfl)
  have hfirst := hinOrder.numbers 0 thread rfl
  rw [numbered, Nat.add_zero, Option.some.injEq] at hfirst
  rw [hfirst, later.replyTo hinside]
  exact hreply

/-- The list is one command behind, when a reply was handed out. -/
theorem ThredisKept.pop_flow (kept : ThredisKept answer thredis (thread :: queue))
    (delivers : thredis.reader = .delivering reply) (waits : TailList T) :
    Flow answer { thredis with
      waits, reader := .storing thread reply
      answered := if reply.isSome then thredis.answered + 1 else thredis.answered } queue := by
  have hnobody := kept.nobody_pushes (by rw [delivers]; rfl)
  have hgoing : thredis.reader ≠ .ended := by rw [delivers]; nofun
  refine ⟨iff_of_false (fun hnone => hgoing (kept.flow.connected.mp hnone)) nofun, nofun,
    fun _ _ => nofun, fun hfine => ?_, nofun, nofun⟩
  cases reply with
  | none => cases hfine
  | some given =>
      have hinOrder := kept.flow.inOrder (by rw [delivers]; rfl)
      refine ⟨fun index other hindex => ?_, fun _ => ?_,
        fun other number hother => absurd hother (hnobody other number)⟩
      · rw [hinOrder.numbers (index + 1) other hindex]
        have hshift : thredis.answered + (index + 1) = thredis.answered + 1 + index := by omega
        exact congrArg some hshift
      · have hlength := hinOrder.all hnobody
        rw [List.length_cons] at hlength
        have hsent : thredis.sent.length = thredis.answered + 1 + queue.length := by omega
        exact hsent

/-- `pop_waiter`: the first record is in the hands of the reader. -/
theorem ThredisKept.pop (kept : ThredisKept answer thredis (thread :: queue))
    (delivers : thredis.reader = .delivering reply) :
    ThredisKept answer (thredis.popWaiter reply) queue := by
  rcases kept.waits.pop_cons with ⟨rest, hpop, hrest, -⟩
  have halive : (thredis.record thread).alive = true :=
    (kept.bond thread).alive_of_queued List.mem_cons_self
  have hapart : thread ∉ queue := (List.nodup_cons.mp kept.waits.nodup).1
  have howner := kept.locked.reader.mp (by rw [delivers]; rfl)
  have htouch : ∀ other, thredis.reader.touch other = .nothing := fun _ => by rw [delivers]; rfl
  simp only [Thredis.popWaiter, hpop, if_pos halive]
  have hlater : Later thredis { thredis with
      waits := rest, reader := .storing thread reply
      answered := if reply.isSome then thredis.answered + 1 else thredis.answered } :=
    ⟨List.prefix_refl _, fun hfailed => by rw [delivers] at hfailed; exact hfailed⟩
  refine ⟨kept.noFault, hrest, fun other => ?_,
    kept.locked.read (fun _ => rfl) (iff_of_true rfl howner) (fun _ => Iff.rfl),
    kept.answered.keep hlater rfl rfl fun _ => rfl, kept.pop_flow delivers rest⟩
  by_cases hsame : other = thread
  · subst hsame
    have hbond := kept.bond other
    rw [htouch] at hbond
    have hfree : (thredis.place other).holds = false := by
      by_contra hholds
      have hcaller := (kept.locked.caller other).mp (by simpa using hholds)
      rw [howner] at hcaller
      cases hcaller
    have hstoring : (ReaderPlace.storing other reply).touch other = .storing reply := if_pos rfl
    rw [hstoring]
    exact hbond.pop List.mem_cons_self hapart hfree fun number hnumber =>
      kept.first_good delivers hnumber hlater rfl
  · have hbond := kept.bond other
    rw [htouch] at hbond
    rw [(touch_of_ne hsame reply).1]
    refine hbond.mono ?_ fun number given hnumber =>
      hlater.good (kept.answered.pending other number hnumber).1.lt
    rw [List.mem_cons, or_iff_right hsame]

/-- The reader does something with the record of a thread. -/
theorem ThredisKept.serve (kept : ThredisKept answer thredis queue) {place : CommandPlace C}
    (record : RedisWait T R)
    (moves : target.place = Function.update thredis.place thread place)
    (records : target.record = Function.update thredis.record thread record)
    (waits : target.waits = thredis.waits) (owner : target.owner = thredis.owner)
    (connected : target.connected = thredis.connected) (sent : target.sent = thredis.sent)
    (returned : target.returned = thredis.returned)
    (answered : target.answered = thredis.answered) (faulted : target.faulted = false)
    (number : place.number = (thredis.place thread).number)
    (holds : place.holds = (thredis.place thread).holds)
    (pushing : ∀ number, place ≠ .pushing number)
    (held : thredis.reader.holds = true) (holding : target.reader.holds = true)
    (failed : target.reader.failed = thredis.reader.failed)
    (delivers : ∀ reply, target.reader ≠ .delivering reply)
    (touches : ∀ other, other ≠ thread → target.reader.touch other = thredis.reader.touch other)
    (bond : Bond (Good answer thredis) thread (thread ∈ queue) place record
      (target.reader.touch thread)) : ThredisKept answer target queue := by
  have hlater : Later thredis target :=
    ⟨sent ▸ List.prefix_refl _, fun hfailed => failed.trans hfailed⟩
  have hself : target.place thread = place := by rw [moves, Function.update_self]
  have hother : ∀ other, other ≠ thread → target.place other = thredis.place other :=
    fun other hapart => by rw [moves, Function.update_of_ne hapart]
  have hnumbers : ∀ other, (target.place other).number = (thredis.place other).number := by
    intro other
    by_cases hsame : other = thread
    · rw [hsame, hself, number]
    · rw [hother other hsame]
  have hnobody := kept.nobody_pushes held
  have hnot_ended : ∀ reader : ReaderPlace T R, reader.holds = true → reader ≠ .ended := by
    rintro reader hholds rfl
    cases hholds
  refine ⟨faulted, waits ▸ kept.waits, fun other => ?_, kept.locked.read (fun other => ?_)
    (iff_of_true holding (owner.trans (kept.locked.reader.mp held))) (fun _ => by rw [owner]),
    kept.answered.keep hlater sent returned hnumbers, kept.flow.read sent answered connected
      hnumbers (fun other number => ?_) (fun hfine => failed.symm.trans hfine)
      (hnot_ended _ held) (hnot_ended _ holding) delivers⟩
  · by_cases hsame : other = thread
    · rw [hsame, moves, records, Function.update_self, Function.update_self]
      refine bond.mono Iff.rfl fun given reply hgiven => ?_
      rw [number] at hgiven
      exact hlater.good (kept.answered.pending thread given hgiven).1.lt
    · rw [moves, records, Function.update_of_ne hsame, Function.update_of_ne hsame,
        touches other hsame]
      exact (kept.bond other).mono Iff.rfl fun given reply hgiven =>
        hlater.good (kept.answered.pending other given hgiven).1.lt
  · by_cases hsame : other = thread
    · rw [hsame, hself, holds]
    · rw [hother other hsame]
  · refine iff_of_false ?_ (hnobody other number)
    by_cases hsame : other = thread
    · rw [hsame, hself]
      exact pushing number
    · rw [hother other hsame]
      exact hnobody other number

/-- The bond of the record that the reader holds. -/
theorem ThredisKept.bond_touched (kept : ThredisKept answer thredis queue) {touch : Touch R}
    (touches : thredis.reader.touch thread = touch) :
    Bond (Good answer thredis) thread (thread ∈ queue) (thredis.place thread)
      (thredis.record thread) touch :=
  touches ▸ kept.bond thread

theorem ThredisKept.alive (kept : ThredisKept answer thredis queue) {touch : Touch R}
    (touches : thredis.reader.touch thread = touch) (touched : touch ≠ .nothing) :
    (thredis.record thread).alive = true :=
  (kept.bond_touched touches).alive_of_touched touched

/-- The reader serves a record whose call stays where it is. -/
theorem ThredisKept.serve_record (kept : ThredisKept answer thredis queue)
    (record : RedisWait T R) (reader : ReaderPlace T R)
    (pushing : ∀ number, thredis.place thread ≠ .pushing number)
    (held : thredis.reader.holds = true) (holding : reader.holds = true)
    (failed : reader.failed = thredis.reader.failed)
    (delivers : ∀ reply, reader ≠ .delivering reply)
    (touches : ∀ other, other ≠ thread → reader.touch other = thredis.reader.touch other)
    (bond : Bond (Good answer thredis) thread (thread ∈ queue) (thredis.place thread) record
      (reader.touch thread)) :
    ThredisKept answer { thredis.setRecord thread record with reader } queue :=
  kept.serve record (Function.update_eq_self thread thredis.place).symm rfl rfl rfl rfl rfl rfl rfl
    kept.noFault rfl rfl pushing held holding failed delivers touches bond

/-- `wait->reply = reply` -/
theorem ThredisKept.store (kept : ThredisKept answer thredis queue)
    (stores : thredis.reader = .storing thread reply) :
    ThredisKept answer (thredis.store thread reply) queue := by
  have htouch : thredis.reader.touch thread = .storing reply := by rw [stores]; exact if_pos rfl
  have hbond := kept.bond_touched htouch
  have hpushing := kept.nobody_pushes (by rw [stores]; rfl) thread
  refine kept.serve_record _ _ hpushing (by rw [stores]; rfl) rfl (by rw [stores]; rfl) nofun
    (fun other hother => ?_) ?_
  · rw [stores, (touch_of_ne hother reply).1, (touch_of_ne hother reply).2.1]
  · rw [show (ReaderPlace.locking thread reply).touch thread = .locking reply from if_pos rfl]
    generalize thredis.place thread = place at hbond ⊢
    generalize thredis.record thread = record at hbond ⊢
    cases hbond with
    | waitingStoring apart isGood => exact .waitingLocking apart isGood
    | sleepingStoring apart isGood => exact .sleepingLocking apart isGood

/-- The reader locks the mutex of a record: its thread sleeps. -/
theorem ThredisKept.lockWait (kept : ThredisKept answer thredis queue)
    (locks : thredis.reader = .locking thread reply)
    (free : (thredis.record thread).mutex = none) :
    ThredisKept answer
      { thredis.setMutex thread (some .reader) with reader := .signalling thread reply }
      queue := by
  have htouch : thredis.reader.touch thread = .locking reply := by rw [locks]; exact if_pos rfl
  have hbond := kept.bond_touched htouch
  have hpushing := kept.nobody_pushes (by rw [locks]; rfl) thread
  refine kept.serve_record _ _ hpushing (by rw [locks]; rfl) rfl (by rw [locks]; rfl) nofun
    (fun other hother => ?_) ?_
  · rw [locks, (touch_of_ne hother reply).2.1, (touch_of_ne hother reply).2.2.1]
  · rw [show (ReaderPlace.signalling thread reply).touch thread = .signalling reply from
      if_pos rfl]
    generalize thredis.place thread = place at hbond ⊢
    generalize thredis.record thread = record at hbond free ⊢
    cases hbond with
    | waitingLocking => cases free
    | sleepingLocking apart isGood => exact .sleepingSignalling apart isGood

/-- The reader signals a thread that sleeps. -/
theorem ThredisKept.signals (kept : ThredisKept answer thredis queue)
    (signals : thredis.reader = .signalling thread reply) :
    ∃ number, thredis.place thread = .sleeping number := by
  have htouch : thredis.reader.touch thread = .signalling reply := by
    rw [signals]
    exact if_pos rfl
  have hbond := kept.bond_touched htouch
  generalize thredis.place thread = place at hbond ⊢
  generalize thredis.record thread = record at hbond
  cases hbond with
  | @sleepingSignalling number => exact ⟨number, rfl⟩

theorem ThredisKept.signal (kept : ThredisKept answer thredis queue)
    (signals : thredis.reader = .signalling thread reply) :
    ThredisKept answer (thredis.signal thread reply) queue := by
  have htouch : thredis.reader.touch thread = .signalling reply := by
    rw [signals]
    exact if_pos rfl
  rcases kept.signals signals with ⟨number, hplace⟩
  have hbond := kept.bond_touched htouch
  rw [hplace] at hbond
  rw [Thredis.signal, hplace]
  refine kept.serve (thredis.record thread) rfl
    (Function.update_eq_self thread thredis.record).symm rfl rfl rfl rfl rfl rfl kept.noFault
    (by rw [hplace]; rfl) (by rw [hplace]; rfl) nofun (by rw [signals]; rfl) rfl
    (by rw [signals]; rfl) nofun (fun other hother => ?_) ?_
  · rw [signals, (touch_of_ne hother reply).2.2.1, (touch_of_ne hother reply).2.2.2]
  · rw [show (ReaderPlace.unlocking thread reply).touch thread = .unlocking reply from
      if_pos rfl]
    generalize thredis.record thread = record at hbond ⊢
    cases hbond with
    | sleepingSignalling apart isGood => exact .wokenUnlocking apart isGood

/-- The reader gives the mutex of a record back. -/
theorem ThredisKept.release (kept : ThredisKept answer thredis queue)
    (unlocks : thredis.reader = .unlocking thread reply) :
    ThredisKept answer (thredis.release thread reply) queue := by
  have htouch : thredis.reader.touch thread = .unlocking reply := by
    rw [unlocks]
    exact if_pos rfl
  have hbond := kept.bond_touched htouch
  have hpushing := kept.nobody_pushes (by rw [unlocks]; rfl) thread
  -- both loops go on with the mutex, and touch no record
  have hnext : ∀ other, (if reply.isNone then ReaderPlace.draining else
      (.taking : ReaderPlace T R)).touch other = .nothing := by
    intro other
    split_ifs <;> rfl
  refine kept.serve_record _ _ hpushing (by rw [unlocks]; rfl) (by split_ifs <;> rfl) ?_
    (fun given => by split_ifs <;> nofun) (fun other hother => ?_) ?_
  · rw [unlocks]
    cases reply <;> rfl
  · rw [unlocks, hnext, (touch_of_ne hother reply).2.2.2]
  · rw [hnext]
    generalize thredis.place thread = place at hbond ⊢
    generalize thredis.record thread = record at hbond ⊢
    cases hbond with
    | wokenUnlocking apart isGood => exact .woken apart isGood

/-- An access to the record that the reader holds is no fault. -/
theorem ThredisKept.touch_eq (kept : ThredisKept answer thredis queue) {touch : Touch R}
    (touches : thredis.reader.touch thread = touch) (touched : touch ≠ .nothing)
    (access : Thredis T C R) : thredis.touch thread access = access :=
  if_pos (kept.alive touches touched)

/-- The mutex is taken by the reader when nobody has it. -/
theorem ThredisKept.lockReader (kept : ThredisKept answer thredis queue)
    (reader : ReaderPlace T R) (waits : thredis.reader = .erred ∨ thredis.reader = .readable)
    (touches : ∀ thread, reader.touch thread = .nothing)
    (failed : reader.failed = thredis.reader.failed ∨ reader = .draining)
    (holds : reader.holds = true) (goes : reader ≠ .ended)
    (delivers : ∀ reply, reader ≠ .delivering reply)
    (enabled : ((thredis.lock .reader).map fun locked => { locked with reader }) = some target) :
    ThredisKept answer target queue := by
  rcases Option.map_eq_some_iff.mp enabled with ⟨locked, hlocked, rfl⟩
  rw [Thredis.lock] at hlocked
  split_ifs at hlocked with hnobody
  cases hlocked
  have hnothing : ∀ thread, thredis.reader.touch thread = .nothing := by
    rcases waits with hwaits | hwaits <;> exact fun _ => by rw [hwaits]; rfl
  refine kept.goOn reader (some .reader) thredis.broken
    (fun thread => (touches thread).trans (hnothing thread).symm) failed (iff_of_true holds rfl)
    (fun thread => ?_) ?_ goes delivers
  · simp [hnobody]
  · rcases waits with hwaits | hwaits <;> simp [hwaits]

/-- A step of the reader. -/
theorem readerStep_kept (kept : ThredisKept answer thredis queue) {move : ReaderMove}
    (enabled : thredis.readerStep answer thredis.reader move = some target) :
    ∃ rest, ThredisKept answer target rest := by
  cases hreader : thredis.reader <;> cases move
  all_goals simp only [hreader, Thredis.readerStep, Option.some.injEq, reduceCtorEq] at enabled
  case polling.poll error input =>
      have hfree : thredis.owner ≠ some .reader := by
        intro howner
        have hholds := kept.locked.reader.mpr howner
        rw [hreader] at hholds
        cases hholds
      split_ifs at enabled
      · cases enabled
        exact ⟨queue, kept.goOn .erred thredis.owner thredis.broken (fun _ => by rw [hreader]; rfl)
          (.inl (by rw [hreader]; rfl)) (iff_of_false nofun hfree) (fun _ => Iff.rfl)
          (by rw [hreader]; nofun) nofun nofun⟩
      · cases enabled
        exact ⟨queue, kept.goOn .readable thredis.owner thredis.broken
          (fun _ => by rw [hreader]; rfl) (.inl (by rw [hreader]; rfl))
          (iff_of_false nofun hfree) (fun _ => Iff.rfl) (by rw [hreader]; nofun) nofun nofun⟩
      · cases enabled
        exact ⟨queue, kept⟩
  case erred.go =>
      exact ⟨queue, kept.lockReader .draining (.inl hreader) (fun _ => rfl) (.inr rfl) rfl nofun
        nofun enabled⟩
  case readable.go =>
      exact ⟨queue, kept.lockReader .reading (.inr hreader) (fun _ => rfl)
        (.inl (by rw [hreader]; rfl)) rfl nofun nofun enabled⟩
  case reading.go =>
      split_ifs at enabled
      cases enabled
      have howner := kept.locked.reader.mp (by rw [hreader]; rfl)
      exact ⟨queue, kept.goOn .taking thredis.owner thredis.broken (fun _ => by rw [hreader]; rfl)
        (.inl (by rw [hreader]; rfl)) (iff_of_true rfl howner) (fun _ => Iff.rfl)
        (by rw [hreader]; nofun) nofun nofun⟩
  case reading.fail =>
      cases enabled
      have howner := kept.locked.reader.mp (by rw [hreader]; rfl)
      exact ⟨queue, kept.goOn .draining thredis.owner true (fun _ => by rw [hreader]; rfl)
        (.inr rfl) (iff_of_true rfl howner) (fun _ => Iff.rfl) (by rw [hreader]; nofun) nofun
        nofun⟩
  case taking.go =>
      cases enabled
      have howner := kept.locked.reader.mp (by rw [hreader]; rfl)
      refine ⟨queue, kept.goOn .polling none thredis.broken (fun _ => by rw [hreader]; rfl)
        (.inl (by rw [hreader]; rfl)) (iff_of_false nofun nofun) (fun _ => ?_)
        (by rw [hreader]; nofun) nofun nofun⟩
      rw [howner]
      exact iff_of_false nofun nofun
  case taking.reply =>
      split_ifs at enabled with hinside
      cases enabled
      exact ⟨queue, kept.takeReply hreader hinside⟩
  case taking.fail =>
      cases enabled
      have howner := kept.locked.reader.mp (by rw [hreader]; rfl)
      exact ⟨queue, kept.goOn .draining thredis.owner true (fun _ => by rw [hreader]; rfl)
        (.inr rfl) (iff_of_true rfl howner) (fun _ => Iff.rfl) (by rw [hreader]; nofun) nofun
        nofun⟩
  case draining.go =>
      rw [kept.waits.head_eq] at enabled
      cases queue with
      | nil =>
          rw [if_pos List.head?_nil] at enabled
          cases enabled
          exact ⟨[], kept.finish hreader⟩
      | cons first rest =>
          rw [if_neg (by rw [List.head?_cons]; nofun)] at enabled
          cases enabled
          exact ⟨first :: rest, kept.drain hreader (List.cons_ne_nil first rest)⟩
  case delivering.go reply =>
      cases enabled
      cases queue with
      | nil => exact absurd rfl (kept.waiting hreader)
      | cons first rest => exact ⟨rest, kept.pop hreader⟩
  case storing.go thread reply =>
      have htouch : thredis.reader.touch thread = .storing reply := by
        rw [hreader]
        exact if_pos rfl
      rw [kept.touch_eq htouch nofun] at enabled
      cases enabled
      exact ⟨queue, kept.store hreader⟩
  case locking.go thread reply =>
      have htouch : thredis.reader.touch thread = .locking reply := by
        rw [hreader]
        exact if_pos rfl
      rw [if_pos (kept.alive htouch nofun)] at enabled
      split_ifs at enabled with hfree
      cases enabled
      exact ⟨queue, kept.lockWait hreader hfree⟩
  case signalling.go thread reply =>
      have htouch : thredis.reader.touch thread = .signalling reply := by
        rw [hreader]
        exact if_pos rfl
      rw [kept.touch_eq htouch nofun] at enabled
      cases enabled
      exact ⟨queue, kept.signal hreader⟩
  case unlocking.go thread reply =>
      have htouch : thredis.reader.touch thread = .unlocking reply := by
        rw [hreader]
        exact if_pos rfl
      rw [kept.touch_eq htouch nofun] at enabled
      cases enabled
      exact ⟨queue, kept.release hreader⟩

end Delivery

/-! ## What every run keeps -/

section Runs

variable [DecidableEq T]

theorem thredisNew_kept : ThredisKept answer (thredisNew T C R) [] := by
  refine ⟨rfl, TailList.empty_represents _, fun _ => .bare rfl rfl List.not_mem_nil,
    ⟨fun _ => iff_of_false nofun nofun, iff_of_false nofun nofun⟩,
    ⟨nofun, List.nodup_nil, fun number hnumber => absurd hnumber (Nat.not_lt_zero number), nofun⟩,
    ⟨iff_of_false nofun nofun, nofun, nofun, fun _ => ⟨nofun, fun _ => rfl, nofun⟩, nofun, nofun⟩⟩

theorem thredisStep_kept {label : ThredisLabel T C} (kept : ThredisKept answer thredis queue)
    (signalled : NotSpurious thredis label)
    (enabled : thredis.step answer label = some target) :
    ∃ longer, ThredisKept answer target longer := by
  simp only [Thredis.step, kept.noFault, Bool.false_eq_true, if_false] at enabled
  cases label with
  | caller thread move =>
      refine commandStep_kept kept ?_ enabled
      rintro rfl
      exact signalled
  | reader move => exact readerStep_kept kept enabled

theorem reached_kept
    (reached : (thredisMachine T answer).ReachableWhen NotSpurious thredis) :
    ∃ queue, ThredisKept answer thredis queue := by
  refine reached.invariant (fun thredis => ∃ queue, ThredisKept answer thredis queue) ?_ ?_
  · rintro thredis rfl
    exact ⟨[], thredisNew_kept⟩
  · rintro thredis label target ⟨queue, kept⟩ signalled enabled
    exact thredisStep_kept kept signalled enabled

/-- Every command that was sent returns once, with the answer of the server to it, or with
NULL behind an error of the connection. -/
theorem commands_answered
    (reached : (thredisMachine T answer).ReachableWhen NotSpurious thredis) :
    Answered answer thredis := by
  rcases reached_kept reached with ⟨queue, kept⟩
  exact kept.answered

theorem ReaderPlace.serves_of_touch {reader : ReaderPlace T R}
    (touches : reader.touch thread = .storing reply ∨ reader.touch thread = .locking reply ∨
      reader.touch thread = .signalling reply) : reader.serves thread := by
  refine ⟨reply, ?_⟩
  cases reader <;> grind [ReaderPlace.touch]

/-! A server that doubles its commands, and two threads. -/

def doubled (commands : List Nat) : Nat := 2 * commands.getLastD 0

/-- A call up to the point where its thread sleeps. -/
def asks (thread : Bool) (command : Nat) : List (ThredisLabel Bool Nat) :=
  .caller thread (.call command) :: List.replicate 8 (.caller thread .go)

/-- A reply is taken and handed out. -/
def handsOut : List (ThredisLabel Bool Nat) :=
  .reader .reply :: List.replicate 5 (.reader .go)

/-- Both threads sleep; their replies come together, and the second thread returns first. -/
def twoCommands : List (ThredisLabel Bool Nat) :=
  asks false 7 ++ asks true 8 ++ [.reader (.poll false true), .reader .go, .reader .go] ++
    handsOut ++ handsOut ++ [.reader .go] ++ List.replicate 3 (.caller true .go) ++
    List.replicate 3 (.caller false .go)

/-- The state behind some labels. -/
def thredisAfter (labels : List (ThredisLabel Bool Nat)) : Thredis Bool Nat Nat :=
  ((thredisMachine Bool doubled).restrict NotSpurious).after labels
    (thredisNew Bool Nat Nat)

theorem commands_answered_twoCommands :
    (thredisMachine Bool doubled).ReachableWhen NotSpurious (thredisAfter twoCommands) ∧
      (thredisAfter twoCommands).returned = [(true, some 1, some 16), (false, some 0, some 14)] ∧
      Answered doubled (thredisAfter twoCommands) := by
  have hreached : (thredisMachine Bool doubled).ReachableWhen NotSpurious
      (thredisAfter twoCommands) :=
    Machine.reachableWhen_after rfl (by decide +kernel)
  exact ⟨hreached, by decide +kernel, commands_answered hreached⟩

/-- A sleeping thread is on the list or in the hands of the reader. -/
theorem ThredisKept.remembered (kept : ThredisKept answer thredis queue)
    (sleeps : thredis.place thread = .sleeping number) :
    thread ∈ queue ∨ thredis.reader.serves thread := by
  have hbond := kept.bond_at sleeps
  generalize thredis.record thread = record at hbond
  generalize htouch : thredis.reader.touch thread = touch at hbond
  cases hbond with
  | bare isBare => cases isBare
  | sleeping isQueued => exact .inl isQueued
  | sleepingStoring => exact .inr (ReaderPlace.serves_of_touch (.inl htouch))
  | sleepingLocking => exact .inr (ReaderPlace.serves_of_touch (.inr (.inl htouch)))
  | sleepingSignalling => exact .inr (ReaderPlace.serves_of_touch (.inr (.inr htouch)))

/-- No record is touched behind its call, the mutex has one owner, no signal is lost, and
nobody sleeps whom the reader does not know of. -/
theorem replies_handed_over
    (reached : (thredisMachine T answer).ReachableWhen NotSpurious thredis) :
    HandedOver thredis := by
  rcases reached_kept reached with ⟨queue, kept⟩
  refine ⟨kept.noFault, kept.locked.caller, kept.locked.reader,
    fun thread reply hsignals => kept.signals hsignals,
    ⟨queue, kept.waits, fun thread number hsleeps => kept.remembered hsleeps⟩, fun hended => ?_⟩
  refine ⟨kept.flow.connected.mpr hended, fun thread number hsleeps => ?_⟩
  rcases kept.remembered hsleeps with hqueued | ⟨reply, hserves⟩
  · rw [kept.flow.ended hended] at hqueued
    cases hqueued
  · rw [hended] at hserves
    rcases hserves with hstoring | hlocking | hsignalling
    · cases hstoring
    · cases hlocking
    · cases hsignalling

theorem replies_handed_over_twoCommands :
    (thredisMachine Bool doubled).ReachableWhen NotSpurious (thredisAfter twoCommands) ∧
      HandedOver (thredisAfter twoCommands) := by
  have hreached : (thredisMachine Bool doubled).ReachableWhen NotSpurious
      (thredisAfter twoCommands) :=
    Machine.reachableWhen_after rfl (by decide +kernel)
  exact ⟨hreached, replies_handed_over hreached⟩

/-- A thread goes on by itself. -/
def Thredis.Moves (answer : List C → R) (thredis : Thredis T C R) : Prop :=
  ∃ label : ThredisLabel T C, label.IsOwn ∧ (thredis.step answer label).isSome = true

theorem ThredisKept.caller_moves (kept : ThredisKept answer thredis queue) (thread : T)
    (move : CommandMove C) (own : (ThredisLabel.caller thread move).IsOwn)
    (enabled : (thredis.commandStep thread (thredis.place thread) move).isSome = true) :
    thredis.Moves answer := by
  refine ⟨.caller thread move, own, ?_⟩
  simp only [Thredis.step, kept.noFault, Bool.false_eq_true, if_false]
  exact enabled

theorem ThredisKept.reader_moves (kept : ThredisKept answer thredis queue)
    (move : ReaderMove) (own : (ThredisLabel.reader (T := T) (C := C) move).IsOwn)
    (enabled : (thredis.readerStep answer thredis.reader move).isSome = true) :
    thredis.Moves answer := by
  refine ⟨.reader move, own, ?_⟩
  simp only [Thredis.step, kept.noFault, Bool.false_eq_true, if_false]
  exact enabled

/-- The call that has the mutex goes on. -/
theorem ThredisKept.holder_moves (kept : ThredisKept answer thredis queue) (thread : T)
    (holds : (thredis.place thread).holds = true) : thredis.Moves answer := by
  cases hplace : thredis.place thread with
  | outside | entering | waiting | sleeping | woken | unlocking | destroying =>
      rw [hplace] at holds
      cases holds
  | checking command =>
      refine kept.caller_moves thread .go trivial ?_
      rw [hplace, Thredis.commandStep]
      split_ifs <;> rfl
  | appending | failing | pushing | releasing =>
      refine kept.caller_moves thread .go trivial ?_
      rw [hplace]
      rfl
  | flushing command =>
      refine kept.caller_moves thread .fail trivial ?_
      rw [hplace]
      rfl
  | locking number =>
      have hbond := kept.bond_at hplace
      have hfree : (thredis.record thread).mutex = none := by
        generalize thredis.record thread = record at hbond ⊢
        generalize thredis.reader.touch thread = touch at hbond
        cases hbond with
        | bare isBare => cases isBare
        | locking => rfl
      refine kept.caller_moves thread .go trivial ?_
      rw [hplace, Thredis.commandStep, if_pos hfree]
      rfl

/-- The reader goes on while it has the mutex, or waits for a thread that goes on. -/
theorem ThredisKept.reader_holder_moves (kept : ThredisKept answer thredis queue)
    (holds : thredis.reader.holds = true) : thredis.Moves answer := by
  cases hreader : thredis.reader with
  | polling | erred | readable | ended =>
      rw [hreader] at holds
      cases holds
  | reading =>
      refine kept.reader_moves .fail trivial ?_
      rw [hreader]
      rfl
  | taking | delivering | storing | signalling | unlocking =>
      refine kept.reader_moves .go trivial ?_
      rw [hreader]
      rfl
  | draining =>
      refine kept.reader_moves .go trivial ?_
      rw [hreader, Thredis.readerStep]
      split_ifs <;> rfl
  | locking thread reply =>
      have htouch : thredis.reader.touch thread = .locking reply := by
        rw [hreader]
        exact if_pos rfl
      have hbond := kept.bond_touched htouch
      generalize hplace : thredis.place thread = place at hbond
      generalize hrecord : thredis.record thread = record at hbond
      cases hbond with
      | waitingLocking =>
          refine kept.caller_moves thread .go trivial ?_
          rw [hplace]
          rfl
      | sleepingLocking =>
          refine kept.reader_moves .go trivial ?_
          simp only [hreader, Thredis.readerStep, hrecord, if_true]
          rfl

/-- As long as a call lasts, some thread goes on by itself, or everyone sleeps and the reader
waits in `poll` for the answers to their commands. -/
theorem nobody_waits_for_nothing
    (reached : (thredisMachine T answer).ReachableWhen NotSpurious thredis) :
    (∀ thread, thredis.place thread = .outside) ∨ thredis.Moves answer ∨
      thredis.reader = .polling ∧ ∀ thread, thredis.place thread = .outside ∨
        ∃ number, thredis.place thread = .sleeping number ∧ thredis.answered ≤ number := by
  rcases reached_kept reached with ⟨queue, kept⟩
  by_cases hmoves : thredis.Moves answer
  · exact .inr (.inl hmoves)
  have hfree : thredis.owner = none := by
    cases howner : thredis.owner with
    | none => rfl
    | some party =>
        cases party with
        | reader => exact absurd (kept.reader_holder_moves (kept.locked.reader.mpr howner)) hmoves
        | caller thread =>
            exact absurd (kept.holder_moves thread ((kept.locked.caller thread).mpr howner)) hmoves
  have hlock : ∀ party, (thredis.lock party).isSome = true := by
    intro party
    rw [Thredis.lock, if_pos hfree]
    rfl
  have hheld : thredis.reader.holds = false := by
    by_contra hholds
    have howner := kept.locked.reader.mp (by simpa using hholds)
    rw [hfree] at howner
    cases howner
  -- the reader is in `poll` or has ended
  have hrest : ∀ thread, thredis.reader.touch thread = .nothing := by
    intro thread
    cases hreader : thredis.reader with
    | polling | ended | erred | readable => rfl
    | reading | taking | draining | delivering | storing | locking | signalling | unlocking =>
        rw [hreader] at hheld
        cases hheld
  have hquiet : ∀ thread, thredis.place thread = .outside ∨
      ∃ number, thredis.place thread = .sleeping number ∧ thread ∈ queue := by
    intro thread
    have hbond := kept.bond thread
    rw [hrest thread] at hbond
    cases hplace : thredis.place thread with
    | outside => exact .inl rfl
    | sleeping number =>
        refine .inr ⟨number, rfl, ?_⟩
        rcases kept.remembered hplace with hqueued | ⟨reply, hserves⟩
        · exact hqueued
        · exfalso
          have hnothing := hrest thread
          rcases hserves with hreader | hreader | hreader
          all_goals
            rw [hreader, ReaderPlace.touch, if_pos rfl] at hnothing
            cases hnothing
    | entering command =>
        refine absurd (kept.caller_moves thread .go trivial ?_) hmoves
        rw [hplace, Thredis.commandStep, Option.isSome_map]
        exact hlock _
    | checking | appending | flushing | failing | pushing | locking | releasing =>
        exact absurd (kept.holder_moves thread (by rw [hplace]; rfl)) hmoves
    | waiting | unlocking | destroying =>
        refine absurd (kept.caller_moves thread .go trivial ?_) hmoves
        rw [hplace]
        rfl
    | woken number =>
        have hmutex : (thredis.record thread).mutex = none := by
          rw [hplace] at hbond
          generalize thredis.record thread = record at hbond ⊢
          cases hbond with
          | bare isBare => cases isBare
          | woken => rfl
        refine absurd (kept.caller_moves thread .go trivial ?_) hmoves
        rw [hplace, Thredis.commandStep, if_pos hmutex]
        rfl
  cases hreader : thredis.reader with
  | polling =>
      refine .inr (.inr ⟨rfl, fun thread => ?_⟩)
      rcases hquiet thread with houtside | ⟨number, hsleeps, hqueued⟩
      · exact .inl houtside
      · refine .inr ⟨number, hsleeps, ?_⟩
        have hinOrder := kept.flow.inOrder (by rw [hreader]; rfl)
        rcases List.mem_iff_getElem?.mp hqueued with ⟨index, hindex⟩
        have hnumber := hinOrder.numbers index thread hindex
        rw [hsleeps] at hnumber
        cases hnumber
        exact Nat.le_add_right _ _
  | ended =>
      refine .inl fun thread => ?_
      rcases hquiet thread with houtside | ⟨number, -, hqueued⟩
      · exact houtside
      · rw [kept.flow.ended hreader] at hqueued
        cases hqueued
  | erred =>
      refine absurd (kept.reader_moves .go trivial ?_) hmoves
      rw [hreader, Thredis.readerStep, Option.isSome_map]
      exact hlock _
  | readable =>
      refine absurd (kept.reader_moves .go trivial ?_) hmoves
      rw [hreader, Thredis.readerStep, Option.isSome_map]
      exact hlock _
  | reading | taking | draining | delivering | storing | locking | signalling | unlocking =>
      rw [hreader] at hheld
      cases hheld

theorem nobody_waits_for_nothing_bothAsk :
    let thredis := thredisAfter (asks false 7 ++ asks true 8)
    thredis.place false = .sleeping 0 ∧ thredis.place true = .sleeping 1 ∧
      ((∀ thread, thredis.place thread = .outside) ∨ thredis.Moves doubled ∨
        thredis.reader = .polling ∧ ∀ thread, thredis.place thread = .outside ∨
          ∃ number, thredis.place thread = .sleeping number ∧ thredis.answered ≤ number) := by
  refine ⟨by decide +kernel, by decide +kernel, nobody_waits_for_nothing ?_⟩
  exact Machine.reachableWhen_after rfl (by decide +kernel)

end Runs

end MmtProbe.Output
