/-
# The monitor and the message slot of the bus

The bus takes the next message when the present one has a reply.  The commands
come from the control server, and of all subscribers only the monitor looks at
them, so its callback has to give the reply.  It does so for every command,
except for an update that arrives while the processing child is to be created.
-/

import MmtProbe.DynamicConf.Supervisor

namespace MmtProbe.DynamicConf

open MmtProbe.Math

/-- When the monitor is done with the current message, the next one is accepted. -/
def Released (monitor : Nat) (s : Supervisor) : Prop :=
  ∀ call ∈ s.bus.finished, call.thread = monitor → call.serial = s.bus.serial →
    s.bus.bus.replyCode ≠ replyDoNothing

/-- The processing child is not about to be created when the callback handles an
update command. -/
def UpdateTimely (monitor : Nat) (s : Supervisor) : SupAct → Prop
  | .receive => ∀ call ∈ s.bus.inCallback monitor, load16 call.msg 0 = .ok 3 →
      s.childrenPids .processing ≠ pidNeedToCreate
  | _ => True

instance (monitor : Nat) : ∀ (s : Supervisor) (act : SupAct), Decidable (UpdateTimely monitor s act)
  | s, .receive => inferInstanceAs (Decidable (∀ call ∈ s.bus.inCallback monitor,
      load16 call.msg 0 = .ok 3 → s.childrenPids .processing ≠ pidNeedToCreate))
  | _, .create _ | _, .createControl _ | _, .wait _ | _, .check | _, .reply | _, .exit _ _
  | _, .agencyStart _ | _, .command _ _ => .isTrue trivial

/-- Bytes that the control server puts on the bus. -/
def IsCommandMessage (build : Build) (message : List UInt8) : Prop :=
  ∃ command, IsServerCommand build command ∧ message = command.message

/-! ## The bus under commands of the server -/

/-- What holds of a bus on which only the control server publishes and whose
monitor gives effective replies. -/
structure CommandInv (build : Build) (monitor : Nat) (s : BusState) : Prop where
  finished_lt : ∀ call ∈ s.finished, call.serial < s.accepted.length
  called_lt : ∀ thread, ∀ call ∈ s.inCallback thread, call.serial < s.accepted.length
  /-- A subscriber that has something to consume was sent a message. -/
  sent : ∀ slot, (s.bus.subLst slot).pid ≠ 0 → (s.bus.subLst slot).isConsumed = false →
    s.accepted ≠ []
  message : s.accepted ≠ [] → IsCommandMessage build s.bus.message
  copied : ∀ thread, ∀ call ∈ s.inCallback thread, IsCommandMessage build call.msg
  released : ∀ call ∈ s.finished, call.thread = monitor → call.serial = s.serial →
    s.bus.replyCode ≠ replyDoNothing

namespace CommandInv

variable {build : Build} {monitor thread : Nat} {s : BusState}

theorem fresh (build : Build) (monitor : Nat) : CommandInv build monitor .fresh where
  finished_lt call h := by cases h
  called_lt thread call h := by cases h
  sent slot h := absurd rfl h
  message h := absurd rfl h
  copied thread call h := by cases h
  released call h := by cases h

theorem subscribe (inv : CommandInv build monitor s) (thread : Nat) (callback : Bool) :
    CommandInv build monitor (s.subscribe thread callback) := by
  unfold BusState.subscribe
  obtain ⟨hfull, -⟩ | ⟨hmistake, -⟩ | ⟨slot, -, -, hregistered⟩ :=
    s.bus.subscribe_cases thread callback
  · rw [hfull]
    exact inv
  · rw [hmistake]
    exact { inv with }
  · rw [hregistered]
    exact { inv with
      sent := fun other hpid hconsumed => by
        simp only [Bus.register, Function.update_apply] at hpid hconsumed
        split_ifs at hpid hconsumed with hother
        exact inv.sent other hpid hconsumed }

theorem publish (inv : CommandInv build monitor s) {message : List UInt8}
    (command : IsCommandMessage build message) (publisher : Nat) (wait : Bool) :
    CommandInv build monitor (s.publish publisher message wait) := by
  rcases s.publish_cases publisher message wait with hsame | ⟨bus, hbus, -, haccept⟩
  · rw [hsame]
    exact inv
  obtain ⟨-, rfl⟩ := Bus.publish_eq_some hbus
  rw [haccept]
  have hlength : (s.accept publisher message wait (s.bus.store message)).accepted.length
      = s.accepted.length + 1 := by simp [BusState.accept]
  exact {
    finished_lt := fun call hcall => by
      rw [hlength]
      exact Nat.lt_succ_of_lt (inv.finished_lt call hcall)
    called_lt := fun thread call hcall => by
      rw [hlength]
      exact Nat.lt_succ_of_lt (inv.called_lt thread call hcall)
    sent := fun _ _ _ => by simp [BusState.accept]
    message := fun _ => command
    copied := inv.copied
    released := fun call hcall _ hserial => by
      rw [BusState.serial_accept] at hserial
      have := inv.finished_lt call hcall
      omega }

theorem checkBegin (inv : CommandInv build monitor s) (positive : thread ≠ 0) :
    CommandInv build monitor (s.checkBegin thread) := by
  rcases s.checkBegin_cases thread with hsame | ⟨slot, hpid, hconsumed, hstart⟩
  · rw [hsame]
    exact inv
  rw [hstart]
  have hsent := inv.sent slot (hpid ▸ positive) hconsumed
  -- the callback that is started is the only new one
  have hcalls : ∀ other, ∀ call ∈ (s.start thread slot).inCallback other,
      call ∈ s.inCallback other ∨ call = ⟨slot, s.bus.message, s.serial⟩ := by
    intro other call hcall
    simp only [BusState.start, Function.update_apply] at hcall
    split_ifs at hcall
    · exact .inr (Option.some.inj hcall).symm
    · exact .inl hcall
  exact { inv with
    called_lt := fun other call hcall => by
      rcases hcalls other call hcall with hold | rfl
      · exact inv.called_lt other call hold
      · exact Nat.sub_lt (List.length_pos_iff.mpr hsent) Nat.one_pos
    copied := fun other call hcall => by
      rcases hcalls other call hcall with hold | rfl
      · exact inv.copied other call hold
      · exact inv.message hsent }

theorem checkEnd (inv : CommandInv build monitor s) {call : InCallback} {ret : Int}
    (called : s.inCallback thread = some call)
    (effective : ret ≠ replyDoNothing) :
    CommandInv build monitor (s.checkEnd thread call ret) := by
  have hcalls : ∀ other, ∀ old ∈ (s.checkEnd thread call ret).inCallback other,
      old ∈ s.inCallback other := by
    intro other old hold
    simp only [BusState.checkEnd, Function.update_apply] at hold
    split_ifs at hold
    · cases hold
    · exact hold
  exact {
    finished_lt := fun done hdone => by
      rcases List.mem_append.mp hdone with hold | hnew
      · exact inv.finished_lt done hold
      · rw [List.mem_singleton.mp hnew]
        exact inv.called_lt thread call called
    called_lt := fun other old hold => inv.called_lt other old (hcalls other old hold)
    sent := fun slot hpid hconsumed => by
      simp only [BusState.checkEnd, Bus.reply, Function.update_apply] at hpid hconsumed
      split_ifs at hpid hconsumed with hslot
      exact inv.sent slot hpid hconsumed
    message := inv.message
    copied := fun other old hold => inv.copied other old (hcalls other old hold)
    released := fun _ _ _ _ => by
      simp only [BusState.checkEnd, Bus.reply]
      split_ifs with hreply
      · exact effective
      · exact hreply }

end CommandInv

/-! ## The monitor -/

variable {build : Build} {monitor : Nat} {enabled : Bool} {s target : Supervisor} {act : SupAct}

/-- The callback gives an effective reply to a command of the server. -/
theorem receiveMessage_ret_ne {message : List UInt8} {pid : Int} {enable : Bool} {answer : Received}
    (command : IsCommandMessage build message)
    (timely : load16 message 0 = .ok 3 → pid ≠ pidNeedToCreate)
    (handled : receiveMessage build message pid enable = .ok answer) :
    answer.ret ≠ replyDoNothing := by
  obtain ⟨command, hserver, rfl⟩ := command
  cases command with
  | start =>
      rw [receiveMessage_start] at handled
      cases handled
      split_ifs <;> simp [replyDoNothing]
  | stop =>
      rw [receiveMessage_stop] at handled
      cases handled
      split_ifs <;> simp [replyDoNothing]
  | update parameter =>
      obtain ⟨enable', hanswer⟩ := receiveMessage_update hserver pid enable
      rw [hanswer] at handled
      cases handled
      have hpid : pid ≠ 0 := timely (load16_append (by decide) [] _)
      simp only [if_neg hpid]
      decide

/-- The bus is used for commands, and the reply that is about to be given is an
effective one. -/
structure MonitorInv (build : Build) (monitor : Nat) (s : Supervisor) : Prop where
  commands : CommandInv build monitor s.bus
  effective : ∀ ret, s.pc = .reply ret → ret ≠ replyDoNothing

namespace MonitorInv

theorem initial (build : Build) (monitor : Nat) (enabled : Bool) :
    MonitorInv build monitor (.initial monitor enabled) where
  commands := by
    cases enabled with
    | false => exact .fresh build monitor
    | true => exact (CommandInv.fresh build monitor).subscribe monitor true
  effective ret h := by cases h

theorem step (inv : MonitorInv build monitor s) (timely : UpdateTimely monitor s act)
    (effect : Effect build monitor s act target) : MonitorInv build monitor target := by
  cases effect with
  | create place need available => exact ⟨inv.commands, nofun⟩
  | keep place kept => exact ⟨inv.commands, nofun⟩
  | createControl place enable need available => exact ⟨inv.commands, nofun⟩
  | keepControl place kept => exact ⟨inv.commands, nofun⟩
  | abort place nobody => exact ⟨inv.commands, nofun⟩
  | goOn place => exact ⟨inv.commands, nofun⟩
  | @reap child proc place listed =>
      refine ⟨inv.commands, fun ret hret => ?_⟩
      rcases s.reap_pc proc with hleft | hcheck
      · rw [hleft] at hret
        cases hret
      · rw [hcheck] at hret
        cases hret
  | check place enable begun =>
      obtain ⟨-, -, hpositive, rfl⟩ := busStep_eq_some begun
      refine ⟨inv.commands.checkBegin hpositive, fun ret hret => ?_⟩
      dsimp only at hret
      split_ifs at hret
  | skip place disabled => exact ⟨inv.commands, nofun⟩
  | receive place called handled =>
      refine ⟨inv.commands, fun ret hret => ?_⟩
      cases hret
      exact receiveMessage_ret_ne (inv.commands.copied monitor _ called) (timely _ called) handled
  | reply place ended =>
      obtain ⟨-, call, hcall, rfl⟩ := busStep_eq_some ended
      exact ⟨inv.commands.checkEnd hcall (inv.effective _ place), nofun⟩
  | exit => exact ⟨inv.commands, inv.effective⟩
  | agencyStart listed processing running enable first called =>
      obtain ⟨-, -, -, rfl⟩ := busStep_eq_some called
      exact ⟨inv.commands.subscribe _ true, inv.effective⟩
  | publish listed control server called =>
      obtain ⟨-, -, rfl⟩ := busStep_eq_some called
      exact ⟨inv.commands.publish ⟨_, server, rfl⟩ _ false, inv.effective⟩
  | refuse => exact inv

end MonitorInv

/-- As long as no update is handled while the processing child is to be created,
the slot is released once the monitor is done with a message. -/
theorem released_of_updateTimely
    (reached : (supervisorMachine build monitor enabled).ReachableWhen (UpdateTimely monitor) s) :
    Released monitor s := by
  have inv : MonitorInv build monitor s := by
    refine Machine.ReachableWhen.invariant (MonitorInv build monitor) ?_ ?_ reached
    · rintro _ rfl
      exact .initial build monitor enabled
    · intro s act target inv timely step
      exact inv.step timely (effect_of_step step)
  exact inv.commands.released

/-! ## A message without a reply stays -/

/-- The monitor is done with the current message and has not replied to it. -/
structure Wedged (monitor : Nat) (s : Supervisor) : Prop where
  waiting : s.bus.bus.replyCode = replyDoNothing
  consumed : ∀ slot, (s.bus.bus.subLst slot).pid = monitor →
    (s.bus.bus.subLst slot).isConsumed = true
  idle : s.bus.inCallback monitor = none
  outside : ¬ (s.pc = .receive ∨ ∃ ret, s.pc = .reply ret)

namespace Wedged

/-- The monitor does not start its callback again. -/
theorem checkBegin_eq (wedged : Wedged monitor s) : s.bus.checkBegin monitor = s.bus := by
  rcases s.bus.checkBegin_cases monitor with hsame | ⟨slot, hpid, hconsumed, -⟩
  · exact hsame
  · rw [wedged.consumed slot hpid] at hconsumed
    cases hconsumed

/-- No other message is accepted. -/
theorem publish_eq (wedged : Wedged monitor s) (publisher : Nat) (message : List UInt8)
    (wait : Bool) : s.bus.publish publisher message wait = s.bus := by
  rcases s.bus.publish_cases publisher message wait with hsame | ⟨bus, hbus, -, -⟩
  · exact hsame
  · exact absurd wedged.waiting (Bus.publish_eq_some hbus).1

/-- A new subscriber is taken to have consumed the message. -/
theorem subscribe (wedged : Wedged monitor s) (thread : Nat) (callback : Bool) :
    (s.bus.subscribe thread callback).accepted = s.bus.accepted ∧
      (s.bus.subscribe thread callback).bus.replyCode = replyDoNothing ∧
      ∀ slot, ((s.bus.subscribe thread callback).bus.subLst slot).pid = monitor →
        ((s.bus.subscribe thread callback).bus.subLst slot).isConsumed = true := by
  unfold BusState.subscribe
  rcases s.bus.bus.subscribe_cases thread callback with
    ⟨hfull, -⟩ | ⟨hmistake, -⟩ | ⟨slot, -, -, hregistered⟩
  · rw [hfull]
    exact ⟨rfl, wedged.waiting, wedged.consumed⟩
  · rw [hmistake]
    exact ⟨rfl, wedged.waiting, wedged.consumed⟩
  · rw [hregistered]
    refine ⟨rfl, wedged.waiting, fun other hpid => ?_⟩
    simp only [Bus.register, Function.update_apply] at hpid ⊢
    split_ifs at hpid ⊢
    · rfl
    · exact wedged.consumed other hpid

/-- A step keeps the message where it is. -/
theorem step (wedged : Wedged monitor s) (effect : Effect build monitor s act target) :
    Wedged monitor target ∧ target.bus.accepted = s.bus.accepted := by
  -- the monitor moves inside its loop and the bus stays as it is
  have hmove : ∀ {next : Supervisor}, next.bus = s.bus →
      ¬ (next.pc = .receive ∨ ∃ ret, next.pc = .reply ret) →
      Wedged monitor next ∧ next.bus.accepted = s.bus.accepted := by
    intro next hbus hplace
    refine ⟨⟨?_, ?_, ?_, hplace⟩, by rw [hbus]⟩
    · rw [hbus]
      exact wedged.waiting
    · rw [hbus]
      exact wedged.consumed
    · rw [hbus]
      exact wedged.idle
  cases effect with
  | create place need available => exact hmove rfl (by simp)
  | keep place kept => exact hmove rfl (by simp)
  | createControl place enable need available => exact hmove rfl (by simp)
  | keepControl place kept => exact hmove rfl (by simp)
  | abort place nobody => exact hmove rfl (by simp)
  | goOn place => exact hmove rfl (by simp)
  | @reap child proc place listed =>
      refine hmove rfl ?_
      rcases s.reap_pc proc with hleft | hcheck
      · simp [hleft]
      · simp [hcheck]
  | check place enable begun =>
      obtain ⟨-, -, -, rfl⟩ := busStep_eq_some begun
      apply hmove wedged.checkBegin_eq
      simp [wedged.checkBegin_eq, wedged.idle]
  | skip place disabled => exact hmove rfl (by simp)
  | receive place called handled => exact absurd (.inl place) wedged.outside
  | reply place ended => exact absurd (.inr ⟨_, place⟩) wedged.outside
  | exit => exact hmove rfl wedged.outside
  | @agencyStart proc bus listed processing running enable first called =>
      obtain ⟨-, -, -, rfl⟩ := busStep_eq_some called
      obtain ⟨haccepted, hreply, hconsumed⟩ := wedged.subscribe proc.pid true
      have hcalls : (s.bus.subscribe proc.pid true).inCallback = s.bus.inCallback := by
        unfold BusState.subscribe
        split <;> rfl
      refine ⟨⟨hreply, hconsumed, ?_, wedged.outside⟩, haccepted⟩
      change (s.bus.subscribe proc.pid true).inCallback monitor = none
      rw [hcalls]
      exact wedged.idle
  | publish listed control server called =>
      obtain ⟨-, -, rfl⟩ := busStep_eq_some called
      exact hmove (wedged.publish_eq _ _ _) wedged.outside
  | refuse => exact hmove rfl wedged.outside

/-- In no run from here is another message accepted. -/
theorem accepted_eq (wedged : Wedged monitor s) {acts : List SupAct}
    (ran : (supervisorMachine build monitor enabled).run acts s = some target) :
    target.bus.accepted = s.bus.accepted := by
  induction acts generalizing s with
  | nil =>
      cases ran
      rfl
  | cons act acts ih =>
      rw [Machine.run_cons, Option.bind_eq_some_iff] at ran
      obtain ⟨next, hstep, ran⟩ := ran
      obtain ⟨hwedged, haccepted⟩ := wedged.step (effect_of_step hstep)
      rw [ih hwedged ran, haccepted]

end Wedged

/-- A run in which an update is handled while the processing child runs. -/
def updateRunning : List SupAct :=
  [.create 2, .createControl 3, .command 3 (bytesOf "update\x7b\nprobe-id=1\n\x7d\x00"), .wait 0,
    .check, .receive, .reply]

theorem released_of_updateTimely_updateRunning :
    ∃ s, (supervisorMachine (fun _ => true) 1 true).ReachableWhen (UpdateTimely 1) s ∧
      (∃ call ∈ s.bus.finished, call.thread = 1 ∧ call.serial = s.bus.serial) ∧ Released 1 s := by
  have reached : (supervisorMachine (fun _ => true) 1 true).ReachableWhen (UpdateTimely 1)
      (((supervisorMachine (fun _ => true) 1 true).restrict (UpdateTimely 1)).after updateRunning
        (.initial 1 true)) :=
    Machine.reachableWhen_after rfl (by decide +kernel)
  exact ⟨_, reached, by decide +kernel, released_of_updateTimely reached⟩

/-- A run in which the processing child crashes and an update is handled before it
is created again. -/
def updateCrashed : List SupAct :=
  [.create 2, .createControl 3, .command 3 (bytesOf "update\x7b\nprobe-id=1\n\x7d\x00"),
    .exit 2 false, .wait 2, .check, .receive, .reply]

/-- The monitor is done with the update, and no other command is accepted. -/
theorem not_released_updateCrashed :
    ∃ s, (supervisorMachine (fun _ => true) 1 true).Reachable s ∧ ¬ Released 1 s := by
  refine ⟨(supervisorMachine (fun _ => true) 1 true).after updateCrashed (.initial 1 true),
    Machine.reachable_after rfl (by decide +kernel), fun hreleased => ?_⟩
  have hfinished : ∃ call ∈ ((supervisorMachine (fun _ => true) 1 true).after updateCrashed
      (.initial 1 true)).bus.finished, call.thread = 1 ∧
      call.serial = ((supervisorMachine (fun _ => true) 1 true).after updateCrashed
        (.initial 1 true)).bus.serial := by
    decide +kernel
  obtain ⟨call, hcall, hthread, hserial⟩ := hfinished
  exact hreleased call hcall hthread hserial (by decide +kernel)

/-- Whatever happens after that run, its message stays the last one accepted. -/
theorem length_accepted_updateCrashed {acts : List SupAct}
    (ran : (supervisorMachine (fun _ => true) 1 true).run acts
      ((supervisorMachine (fun _ => true) 1 true).after updateCrashed (.initial 1 true))
      = some target) : target.bus.accepted.length = 1 := by
  have wedged : Wedged 1 ((supervisorMachine (fun _ => true) 1 true).after updateCrashed
      (.initial 1 true)) := by
    refine ⟨by decide +kernel, by decide +kernel, ?_, ?_⟩
    · rw [← Option.isNone_iff_eq_none]
      decide +kernel
    · have hpc : ((supervisorMachine (fun _ => true) 1 true).after updateCrashed
          (.initial 1 true)).pc = .create := by decide +kernel
      simp [hpc]
  rw [wedged.accepted_eq ran]
  decide +kernel

end MmtProbe.DynamicConf
