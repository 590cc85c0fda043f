/-
# Replies on the message bus

A publisher that waits is handed the content of the one reply cell of the bus.
The cell is reused for every message, so a reply reaches the wrong publisher when
a message is accepted while a callback still works on an older one, or while an
earlier publisher has not fetched its reply yet; and the `int` of a callback is
cut to 16 bits on its way.  Without these three situations every reply belongs
to its message.
-/

import MmtProbe.DynamicConf.Bus

namespace MmtProbe.DynamicConf

open MmtProbe.Math

/-- The first effective value that was returned for a message, with the callback
that returned it. -/
def BusState.firstAnswer (s : BusState) (serial : Nat) : Option (Call × Int) :=
  s.answers.find? fun answer => answer.1.serial == serial && answer.2 != replyDoNothing

/-- Every publisher that was given a reply got the first effective value of a
callback invoked on its own message. -/
def RepliesAttributed (s : BusState) : Prop :=
  ∀ publisher serial code, (publisher, serial, code) ∈ s.returned →
    ∃ call, s.firstAnswer serial = some (call, (code : Int)) ∧
      s.accepted[serial]? = some call.bytes ∧ (code : Int) ≠ replyDoNothing

/-- A message is only accepted when no callback is running and no publisher waits
for its reply, and callbacks return 16-bit values. -/
def AttentiveBus (s : BusState) : BusAct → Prop
  | .publish _ message _ => (s.bus.publish message).isSome →
      (∀ thread, s.inCallback thread = none) ∧ ∀ publisher, s.waiting publisher = none
  | .checkEnd _ ret => 0 ≤ ret ∧ ret < 2 ^ 16
  | _ => True

/-- What holds of the reply cell and of the history along attentive runs. -/
structure ReplyInv (s : BusState) : Prop where
  current : ∀ bytes, s.accepted.getLast? = some bytes → bytes = s.bus.message
  unconsumed : ∀ i, (s.bus.subLst i).pid ≠ 0 → (s.bus.subLst i).isConsumed = false →
    s.accepted ≠ []
  /-- Callbacks work on the current message. -/
  calling : ∀ thread call, s.inCallback thread = some call →
    call.serial + 1 = s.accepted.length ∧ call.msg = s.bus.message
  /-- Publishers wait for the reply to the current message. -/
  waiting : ∀ publisher serial, s.waiting publisher = some serial →
    serial + 1 = s.accepted.length
  /-- The cell is free, or holds the first effective value for the current message. -/
  cell : ∀ serial, serial + 1 = s.accepted.length →
    if s.bus.replyCode = replyDoNothing then s.firstAnswer serial = none
    else ∃ call, s.firstAnswer serial = some (call, s.bus.replyCode)
  range : 0 ≤ s.bus.replyCode ∧ s.bus.replyCode < 2 ^ 16
  answered : ∀ answer ∈ s.answers, s.accepted[answer.1.serial]? = some answer.1.bytes
  attributed : RepliesAttributed s

namespace ReplyInv

variable {s : BusState}

theorem fresh : ReplyInv .fresh where
  current bytes h := by cases h
  unconsumed i hpid := absurd rfl hpid
  calling thread call h := by cases h
  waiting publisher serial h := by cases h
  cell serial h := by cases h
  range := by decide
  answered answer h := by cases h
  attributed publisher serial code h := by cases h

theorem accept (inv : ReplyInv s) {publisher : Nat} {message : List UInt8} {wait : Bool} {bus : Bus}
    (stored : s.bus.publish message = some bus) (quiet : ∀ thread, s.inCallback thread = none)
    (fetched : ∀ publisher, s.waiting publisher = none) :
    ReplyInv (s.accept publisher message wait bus) := by
  obtain ⟨-, rfl⟩ := Bus.publish_eq_some stored
  exact {
    current := fun bytes h => by
      simpa [BusState.accept, Bus.store] using h.symm
    unconsumed := fun i _ _ => by
      simp [BusState.accept]
    calling := fun thread call h => by
      rw [BusState.accept, quiet thread] at h
      cases h
    waiting := fun publisher' serial h => by
      simp only [BusState.accept, List.length_append, List.length_singleton] at h ⊢
      split_ifs at h
      · rw [Function.update_apply] at h
        split_ifs at h
        · rw [Option.some.inj h]
        · rw [fetched] at h
          cases h
      · rw [fetched] at h
        cases h
    cell := fun serial hserial => by
      simp only [BusState.accept, Bus.store, List.length_append, List.length_singleton,
        if_true] at hserial ⊢
      apply List.find?_eq_none.mpr
      intro answer hanswer hfound
      simp only [Bool.and_eq_true, beq_iff_eq] at hfound
      have hlt := (List.getElem?_eq_some_iff.mp (inv.answered answer hanswer)).1
      omega
    range := by
      simp [BusState.accept, Bus.store, replyDoNothing]
    answered := fun answer hanswer => by
      have hanswered := inv.answered answer hanswer
      have hlt := (List.getElem?_eq_some_iff.mp hanswered).1
      simp only [BusState.accept]
      rw [List.getElem?_append_left hlt, hanswered]
    attributed := fun publisher' serial code hreturned => by
      obtain ⟨call, hfirst, hbytes, heffective⟩ :=
        inv.attributed publisher' serial code hreturned
      have hlt := (List.getElem?_eq_some_iff.mp hbytes).1
      refine ⟨call, hfirst, ?_, heffective⟩
      simp only [BusState.accept]
      rw [List.getElem?_append_left hlt, hbytes] }

theorem poll (inv : ReplyInv s) {publisher serial : Nat}
    (waits : s.waiting publisher = some serial) : ReplyInv (s.poll publisher serial) := by
  unfold BusState.poll
  split_ifs with hreply
  · exact inv
  have hserial := inv.waiting publisher serial waits
  have hcell := inv.cell serial hserial
  rw [if_neg hreply] at hcell
  obtain ⟨call, hfirst⟩ := hcell
  have hcode : ((s.bus.replyCode % 2 ^ 16).toNat : Int) = s.bus.replyCode := by
    have := inv.range
    omega
  exact { inv with
    waiting := fun publisher' serial' h => by
      simp only [Function.update_apply] at h
      split_ifs at h
      exact inv.waiting publisher' serial' h
    attributed := fun publisher' serial' code hreturned => by
      simp only [List.mem_append, List.mem_singleton, Prod.mk.injEq] at hreturned
      rcases hreturned with hreturned | ⟨-, rfl, rfl⟩
      · exact inv.attributed publisher' serial' code hreturned
      · rw [hcode]
        have hanswer := List.mem_of_find?_eq_some hfirst
        have hfound := List.find?_some hfirst
        simp only [Bool.and_eq_true, beq_iff_eq] at hfound
        have hbytes := inv.answered _ hanswer
        rw [hfound.1] at hbytes
        exact ⟨call, hfirst, hbytes, hreply⟩ }

theorem checkBegin (inv : ReplyInv s) {thread : Nat} (hthread : thread ≠ 0) :
    ReplyInv (s.checkBegin thread) := by
  rcases s.checkBegin_cases thread with hsame | ⟨slot, hpid, hflag, htarget⟩
  · rw [hsame]
    exact inv
  rw [htarget]
  have hfilled := inv.unconsumed slot (by rw [hpid]; exact hthread) hflag
  have hlength := List.length_pos_iff.mpr hfilled
  exact { inv with
    calling := fun thread' call h => by
      simp only [BusState.start, Function.update_apply] at h ⊢
      split_ifs at h
      · cases h
        refine ⟨?_, rfl⟩
        simp only [BusState.serial]
        omega
      · exact inv.calling thread' call h }

theorem checkEnd (inv : ReplyInv s) {thread : Nat} {call : InCallback} {ret : Int}
    (calls : s.inCallback thread = some call) (small : 0 ≤ ret ∧ ret < 2 ^ 16) :
    ReplyInv (s.checkEnd thread call ret) := by
  obtain ⟨hserial, hmsg⟩ := inv.calling thread call calls
  have hfirst : ∀ serial, (s.checkEnd thread call ret).firstAnswer serial =
      (s.firstAnswer serial).or
        (if call.serial = serial ∧ ret ≠ replyDoNothing
          then some (⟨thread, call.serial, call.msg⟩, ret) else none) := by
    intro serial
    simp only [BusState.firstAnswer, BusState.checkEnd, List.find?_append, List.find?_singleton,
      Bool.and_eq_true, beq_iff_eq, bne_iff_ne]
  have hbytes : s.accepted[call.serial]? = some call.msg := by
    obtain ⟨bytes, hlast⟩ := Option.isSome_iff_exists.mp
      (List.getLast?_isSome.mpr (List.ne_nil_of_length_pos (by omega : 0 < s.accepted.length)))
    rw [hmsg, ← inv.current bytes hlast, ← hlast, List.getLast?_eq_getElem?]
    congr 1
    omega
  exact { inv with
    unconsumed := fun i hi hfalse => by
      simp only [BusState.checkEnd, Bus.reply, Function.update_apply] at hi hfalse ⊢
      split_ifs at hi hfalse
      exact inv.unconsumed i hi hfalse
    calling := fun thread' call' h => by
      simp only [BusState.checkEnd, Function.update_apply] at h ⊢
      split_ifs at h
      exact inv.calling thread' call' h
    cell := fun serial h => by
      have hcell := inv.cell serial h
      have hsame : call.serial = serial := by
        simp only [BusState.checkEnd] at h
        omega
      rw [hfirst]
      simp only [BusState.checkEnd, Bus.reply]
      by_cases hfree : s.bus.replyCode = replyDoNothing
      · rw [if_pos hfree] at hcell
        by_cases hret : ret = replyDoNothing
        · simp [hfree, hret, hcell]
        · simp [hfree, hret, hcell, hsame]
      · rw [if_neg hfree] at hcell
        obtain ⟨first, hcell⟩ := hcell
        simp [hfree, hcell]
    range := by
      simp only [BusState.checkEnd, Bus.reply]
      split_ifs
      · exact small
      · exact inv.range
    answered := fun answer hanswer => by
      simp only [BusState.checkEnd, List.mem_append, List.mem_singleton] at hanswer ⊢
      rcases hanswer with hanswer | rfl
      · exact inv.answered answer hanswer
      · exact hbytes
    attributed := fun publisher serial code hreturned => by
      obtain ⟨first, hanswer, hrest⟩ := inv.attributed publisher serial code hreturned
      exact ⟨first, by rw [hfirst, hanswer]; rfl, hrest⟩ }

theorem subscribe (inv : ReplyInv s) (thread : Nat) (callback : Bool) :
    ReplyInv (s.subscribe thread callback) := by
  obtain ⟨hfull, -⟩ | ⟨hmistake, -⟩ | ⟨slot, -, -, hregistered⟩ :=
    s.bus.subscribe_cases thread callback
  · rw [BusState.subscribe, hfull]
    exact inv
  · rw [BusState.subscribe, hmistake]
    exact { inv with }
  · rw [BusState.subscribe, hregistered]
    exact { inv with
      unconsumed := fun i hi hfalse => by
        simp only [Bus.register, Function.update_apply] at hi hfalse
        split_ifs at hi hfalse
        exact inv.unconsumed i hi hfalse }

theorem unsubscribe (inv : ReplyInv s) (thread : Nat) : ReplyInv (s.unsubscribe thread) := by
  rcases s.unsubscribe_cases thread with hsame | ⟨slot, -, htarget⟩
  · rw [hsame]
    exact inv
  · rw [htarget]
    exact { inv with
      unconsumed := fun i hi hfalse => by
        simp only [Bus.release, Function.update_apply] at hi hfalse
        split_ifs at hi hfalse
        · exact absurd rfl hi
        · exact inv.unconsumed i hi hfalse }

/-- One section of an attentive run keeps the invariant. -/
theorem step (inv : ReplyInv s) {act : BusAct} {target : BusState}
    (attentive : AttentiveBus s act) (enabled : busStep s act = some target) :
    ReplyInv target := by
  obtain ⟨-, hstep⟩ := busStep_eq_some enabled
  cases act with
  | publish publisher message wait =>
      obtain ⟨-, rfl⟩ := hstep
      rcases s.publish_cases publisher message wait with hsame | ⟨bus, hstored, -, haccept⟩
      · rw [hsame]
        exact inv
      · rw [haccept]
        obtain ⟨hquiet, hfetched⟩ := attentive (by rw [hstored]; rfl)
        exact inv.accept hstored hquiet hfetched
  | poll publisher =>
      obtain ⟨serial, hwaits, rfl⟩ := hstep
      exact inv.poll hwaits
  | checkBegin thread =>
      obtain ⟨-, hthread, rfl⟩ := hstep
      exact inv.checkBegin hthread
  | checkEnd thread ret =>
      obtain ⟨call, hcall, rfl⟩ := hstep
      exact inv.checkEnd hcall attentive
  | subscribe thread callback =>
      obtain ⟨-, -, rfl⟩ := hstep
      exact inv.subscribe thread callback
  | unsubscribe thread =>
      obtain ⟨-, -, rfl⟩ := hstep
      exact inv.unsubscribe thread

end ReplyInv

/-- Replies are attributed in every state that an attentive run reaches. -/
theorem repliesAttributed_of_attentive {s : BusState}
    (reached : busMachine.ReachableWhen AttentiveBus s) : RepliesAttributed s := by
  have inv : ReplyInv s := by
    apply Machine.ReachableWhen.invariant ReplyInv _ _ reached
    · rintro _ rfl
      exact ReplyInv.fresh
    · intro s act target inv attentive enabled
      exact inv.step attentive enabled
  exact inv.attributed

/-- A run of two subscribers, and of two publishers that wait for their replies: the first
message is answered by both subscribers, and the second one by one of them. -/
theorem repliesAttributed_of_attentive_two_replies :
    ∃ s : BusState, busMachine.ReachableWhen AttentiveBus s ∧
      s.accepted = [[2, 0, 0, 0], [3, 0, 0, 0]] ∧ s.returned = [(7, 0, 1), (8, 1, 4)] ∧
      RepliesAttributed s := by
  have start : busMachine.ReachableWhen AttentiveBus .fresh := .start rfl
  have one := start.follow (.subscribe 1 true) trivial rfl
  have two := one.follow (.subscribe 2 true) trivial rfl
  have published := two.follow (.publish 7 [2, 0, 0, 0] true)
    (fun _ => ⟨fun _ => rfl, fun _ => rfl⟩) rfl
  have called := published.follow (.checkBegin 1) trivial rfl
  have both := called.follow (.checkBegin 2) trivial rfl
  have replied := both.follow (.checkEnd 2 1) ⟨by decide, by decide⟩ rfl
  have late := replied.follow (.checkEnd 1 0) ⟨by decide, by decide⟩ rfl
  have fetched := late.follow (.poll 7) trivial rfl
  -- both callbacks have returned, and the first publisher has its reply
  have again := fetched.follow (.publish 8 [3, 0, 0, 0] true) (fun _ => ⟨fun thread => by
      change Function.update (Function.update (Function.update (Function.update
        (fun _ => none) 1 _) 2 _) 2 none) 1 none thread = none
      simp only [Function.update_apply]
      split_ifs <;> rfl, fun publisher => by
      change Function.update (Function.update (fun _ => none) 7 _) 7 none publisher = none
      simp only [Function.update_apply]
      split_ifs <;> rfl⟩) rfl
  have recalled := again.follow (.checkBegin 1) trivial rfl
  have answered := recalled.follow (.checkEnd 1 4) ⟨by decide, by decide⟩ rfl
  have given := answered.follow (.poll 8) trivial rfl
  exact ⟨_, given, rfl, rfl, repliesAttributed_of_attentive given⟩

/-- A run in which the reply to the first message is still on its way when the
second one is accepted. -/
def lateReply : List BusAct :=
  [.subscribe 1 true, .subscribe 2 true, .publish 7 [1, 0, 0, 0] false,
    .checkBegin 1, .checkBegin 2, .checkEnd 1 0, .publish 8 [2, 0, 0, 0] true,
    .checkEnd 2 1, .poll 8]

/-- A publisher is given a reply although no callback has seen its message. -/
theorem not_repliesAttributed_late_reply :
    ∃ s, busMachine.Reachable s ∧ ¬ RepliesAttributed s := by
  refine ⟨busRun lateReply, reachable_busRun (by decide), fun hattributed => ?_⟩
  obtain ⟨call, hfirst, -⟩ := hattributed 8 1 1 (by decide)
  have hnone : (busRun lateReply).firstAnswer 1 = none := by decide
  rw [hnone] at hfirst
  cases hfirst

end MmtProbe.DynamicConf
