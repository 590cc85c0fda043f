/-
# The configuration of the monitor and of its children

The monitor applies the commands to its own configuration, and a processing child gets a copy
of it from `fork`.  Children come and go, and commands arrive at any moment in between.  In
every run the configuration of the monitor is what the accepted commands, one after the other,
make of the first one, except for the last command while the monitor has not yet handled it.
No command is lost and none is applied twice, although the bus has place for one message only.

A processing child that runs with another configuration than that of the monitor has been told
to start again.
-/

import MmtProbe.DynamicConf.SupervisorLoop
import MmtProbe.DynamicConf.SupervisorReply
import MmtProbe.DynamicConf.SupervisorSlots
import MmtProbe.DynamicConf.UpdateValidity

namespace MmtProbe.DynamicConf

open MmtProbe.Math
open MmtProbe.Configure (Conf Confuse)

/-! ## The monitor with its configuration -/

/-- The monitor, its configuration, and the copy that the latest processing child was given. -/
structure Configured where
  sup : Supervisor
  conf : Conf
  copied : Conf

/-- One step of the monitor or of a child, and what it does to the configurations. -/
def configuredStep (build : Build) (confuse : Confuse) (monitor : Nat) (s : Configured)
    (act : SupAct) : Option Configured :=
  (supervisorStep build monitor s.sup act).bind fun sup =>
    match act with
    | .create _ =>
        if s.sup.childrenPids .processing = pidNeedToCreate then some ⟨sup, s.conf, s.conf⟩
        else some { s with sup := sup }
    | .receive =>
        (s.sup.bus.inCallback monitor).bind fun call =>
          (receiveMessageConf build confuse call.msg s.conf).map fun conf =>
            { s with sup := sup, conf := conf }
    | _ => some { s with sup := sup }

/-- The monitor with a first configuration that has dynamic configuration switched on. -/
def configuredMachine (build : Build) (confuse : Confuse) (monitor : Nat) (first : Conf) :
    Machine Configured SupAct where
  init s := s = ⟨.initial monitor true, first, first⟩
  step := configuredStep build confuse monitor

/-- The callback has returned, and the message is not yet marked. -/
def Pc.isReply : Pc → Bool
  | .reply _ => true
  | _ => false

/-- The monitor has not yet applied the current message. -/
def Supervisor.pending (s : Supervisor) (monitor : Nat) : Bool :=
  ((s.bus.bus.slotOf monitor).any fun slot => !(s.bus.bus.subLst slot).isConsumed) &&
    !s.pc.isReply

/-- The accepted messages that the monitor has applied. -/
def Supervisor.applied (s : Supervisor) (monitor : Nat) : List (List UInt8) :=
  if s.pending monitor then s.bus.accepted.dropLast else s.bus.accepted

/-- The messages are applied one after the other. -/
def applyMessages (build : Build) (confuse : Confuse) (messages : List (List UInt8))
    (conf : Conf) : Option Conf :=
  messages.foldlM (fun conf message => receiveMessageConf build confuse message conf) conf

variable {build : Build} {confuse : Confuse} {monitor : Nat} {s target : Supervisor}
  {act : SupAct}

/-! ## The monitor is the only one who replies -/

/-- What holds of the bus when the monitor is its only subscriber that looks at messages. -/
structure CallInv (build : Build) (monitor : Nat) (s : Supervisor) : Prop where
  positive : monitor ≠ 0
  own : ∀ slot, (s.bus.bus.subLst slot).pid = monitor ↔ slot = 0
  strangers : ∀ proc ∈ s.procs, proc.pid ≠ monitor
  /-- A message that the monitor has not consumed waits for a reply. -/
  waits : (s.bus.bus.subLst 0).isConsumed = false →
    s.bus.bus.replyCode = replyDoNothing ∧ s.bus.accepted.getLast? = some s.bus.bus.message
  calls : ∀ call, s.bus.inCallback monitor = some call →
    call.slot = 0 ∧ (s.bus.bus.subLst 0).isConsumed = false ∧ call.msg = s.bus.bus.message
  inside : (s.bus.inCallback monitor).isSome ↔ s.pc = .receive ∨ ∃ ret, s.pc = .reply ret
  server : ∀ message ∈ s.bus.accepted, IsCommandMessage build message

/-- The first subscriber gets the first slot. -/
theorem subscribe_fresh (positive : monitor ≠ 0) : BusState.fresh.subscribe monitor true =
    { BusState.fresh with
      bus := Bus.create.register 0 monitor true
      since := Function.update BusState.fresh.since 0 0 } := by
  have hfind : BusState.fresh.bus.subscribe monitor true =
      .registered 0 (Bus.create.register 0 monitor true) := by
    simp [Bus.subscribe, slots, BusState.fresh, Bus.create, positive.symm]
  rw [BusState.subscribe, hfind]
  rfl

namespace CallInv

theorem initial (positive : monitor ≠ 0) : CallInv build monitor (.initial monitor true) := by
  have hbus : (Supervisor.initial monitor true).bus = BusState.fresh.subscribe monitor true := rfl
  rw [subscribe_fresh positive] at hbus
  exact {
    positive := positive
    own := fun slot => by
      rw [hbus]
      simp only [Bus.register, Function.update_apply]
      split_ifs with hslot
      · exact iff_of_true rfl hslot
      · exact iff_of_false (fun h => positive h.symm) hslot
    strangers := fun proc h => by cases h
    waits := fun h => by
      rw [hbus] at h
      simp [Bus.register] at h
    calls := fun call h => by
      rw [hbus] at h
      cases h
    inside := by
      rw [hbus]
      simp [BusState.fresh, Supervisor.initial]
    server := fun message h => by
      rw [hbus] at h
      cases h }

/-- A step that leaves the bus as it is and does not enter or leave the callback. -/
theorem move (inv : CallInv build monitor s) (bus : target.bus = s.bus)
    (procs : ∀ proc ∈ target.procs, proc.pid ≠ monitor)
    (inside : (target.pc = .receive ∨ ∃ ret, target.pc = .reply ret) ↔
      (s.pc = .receive ∨ ∃ ret, s.pc = .reply ret)) : CallInv build monitor target where
  positive := inv.positive
  own := by
    rw [bus]
    exact inv.own
  strangers := procs
  waits := by
    rw [bus]
    exact inv.waits
  calls := by
    rw [bus]
    exact inv.calls
  inside := by
    rw [bus, inside]
    exact inv.inside
  server := by
    rw [bus]
    exact inv.server

/-- Outside the callback. -/
theorem inCallback_eq_none (inv : CallInv build monitor s)
    (outside : ¬ (s.pc = .receive ∨ ∃ ret, s.pc = .reply ret)) :
    s.bus.inCallback monitor = none := by
  rw [← inv.inside, Bool.not_eq_true, Option.isSome_eq_false_iff] at outside
  exact Option.isNone_iff_eq_none.mp outside

theorem slotOf_eq (inv : CallInv build monitor s) : s.bus.bus.slotOf monitor = some 0 := by
  have hzero : (s.bus.bus.subLst 0).pid = monitor := (inv.own 0).mpr rfl
  simp [Bus.slotOf, slots, hzero]

/-- The monitor looks at the bus. -/
theorem checkBegin (inv : CallInv build monitor s) (place : s.pc = .check) :
    CallInv build monitor { s with
      bus := s.bus.checkBegin monitor
      pc := if ((s.bus.checkBegin monitor).inCallback monitor).isSome then .receive
        else .create } := by
  have hnone : s.bus.inCallback monitor = none := inv.inCallback_eq_none (by simp [place])
  rcases s.bus.checkBegin_cases monitor with hsame | ⟨slot, hpid, hconsumed, hstart⟩
  · rw [hsame, hnone]
    exact inv.move rfl inv.strangers (by simp [place])
  · rw [hstart]
    obtain rfl := (inv.own slot).mp hpid
    exact {
      positive := inv.positive
      own := inv.own
      strangers := inv.strangers
      waits := inv.waits
      calls := fun call hcall => by
        simp only [BusState.start, Function.update_self, Option.some.injEq] at hcall
        rw [← hcall]
        exact ⟨rfl, hconsumed, rfl⟩
      inside := by simp [BusState.start]
      server := inv.server }

/-- The monitor marks the message as consumed. -/
theorem checkEnd (inv : CallInv build monitor s) {call : InCallback} {ret : Int}
    (called : s.bus.inCallback monitor = some call) :
    CallInv build monitor { s with
      bus := s.bus.checkEnd monitor call ret
      pc := .create } := by
  obtain ⟨hslot, -, -⟩ := inv.calls call called
  exact {
    positive := inv.positive
    own := fun slot => by
      rw [(s.bus.pid_checkEnd monitor call ret).1 slot]
      exact inv.own slot
    strangers := inv.strangers
    waits := fun h => by
      simp [BusState.checkEnd, Bus.reply, hslot] at h
    calls := fun call h => by
      simp [BusState.checkEnd] at h
    inside := by simp [BusState.checkEnd]
    server := inv.server }

/-- A child subscribes. -/
theorem subscribe (inv : CallInv build monitor s) {pid : Nat} (other : pid ≠ monitor) :
    CallInv build monitor (s.subscribed pid (s.bus.subscribe pid true)) := by
  have hprocs : ∀ proc ∈ (s.subscribed pid (s.bus.subscribe pid true)).procs,
      proc.pid ≠ monitor := by
    intro proc hproc
    rcases List.mem_map.mp hproc with ⟨old, hold, rfl⟩
    split_ifs <;> exact inv.strangers old hold
  unfold BusState.subscribe at hprocs ⊢
  rcases s.bus.bus.subscribe_cases pid true with
    ⟨hfull, -⟩ | ⟨hmistake, -⟩ | ⟨slot, hfree, -, hregistered⟩
  · rw [hfull] at hprocs ⊢
    exact inv.move rfl hprocs Iff.rfl
  · rw [hmistake] at hprocs ⊢
    exact { inv with strangers := hprocs }
  · rw [hregistered] at hprocs ⊢
    have hslot : slot ≠ 0 := by
      rintro rfl
      exact inv.positive (((inv.own 0).mpr rfl).symm.trans hfree)
    have hzero : (s.bus.bus.register slot pid true).subLst 0 = s.bus.bus.subLst 0 :=
      Function.update_of_ne hslot.symm _ _
    exact {
      positive := inv.positive
      own := fun place => by
        simp only [Supervisor.subscribed, Bus.register, Function.update_apply]
        split_ifs with hplace
        · exact iff_of_false other (hplace ▸ hslot)
        · exact inv.own place
      strangers := hprocs
      waits := fun h => by
        simp only [Supervisor.subscribed, hzero] at h
        exact inv.waits h
      calls := fun call h => by
        simp only [Supervisor.subscribed, hzero]
        exact inv.calls call h
      inside := inv.inside
      server := inv.server }

/-- The control server publishes a command. -/
theorem publish (inv : CallInv build monitor s) {message : List UInt8}
    (command : IsCommandMessage build message) (publisher : Nat) (wait : Bool) :
    CallInv build monitor { s with bus := s.bus.publish publisher message wait } := by
  rcases s.bus.publish_cases publisher message wait with hsame | ⟨bus, hbus, -, haccept⟩
  · rw [hsame]
    exact inv.move rfl inv.strangers Iff.rfl
  obtain ⟨hreply, rfl⟩ := Bus.publish_eq_some hbus
  rw [haccept]
  exact {
    positive := inv.positive
    own := inv.own
    strangers := inv.strangers
    waits := fun _ => ⟨rfl, by simp [BusState.accept, Bus.store]⟩
    calls := fun call hcall => by
      obtain ⟨-, hflag, -⟩ := inv.calls call hcall
      exact absurd (inv.waits hflag).1 hreply
    inside := inv.inside
    server := fun sent hsent => by
      rcases List.mem_append.mp hsent with hold | hnew
      · exact inv.server sent hold
      · rw [List.mem_singleton.mp hnew]
        exact command }

theorem step (inv : CallInv build monitor s) (effect : Effect build monitor s act target) :
    CallInv build monitor target := by
  have hfork : ∀ {kind : Kind} {pid : Nat}, s.Available monitor pid →
      ∀ proc ∈ (s.fork kind pid).procs, proc.pid ≠ monitor := by
    intro kind pid available proc hproc
    rcases List.mem_cons.mp hproc with rfl | hold
    · exact available.2.1
    · exact inv.strangers proc hold
  cases effect with
  | create place need available => exact inv.move rfl (hfork available) (by simp [place])
  | keep place kept => exact inv.move rfl inv.strangers (by simp [place])
  | createControl place enable need available =>
      exact inv.move rfl (hfork available) (by simp [place])
  | keepControl place kept => exact inv.move rfl inv.strangers (by simp [place])
  | abort place nobody => exact inv.move rfl inv.strangers (by simp [place])
  | goOn place => exact inv.move rfl inv.strangers (by simp [place])
  | @reap child proc place listed =>
      refine inv.move rfl (fun other hother => ?_) ?_
      · exact inv.strangers other (List.mem_filter.mp hother).1
      · rcases s.reap_pc proc with hleft | hcheck
        · simp [hleft, place]
        · simp [hcheck, place]
  | check place enable begun =>
      obtain ⟨-, -, -, rfl⟩ := busStep_eq_some begun
      exact inv.checkBegin place
  | skip place disabled => exact inv.move rfl inv.strangers (by simp [place])
  | receive place called handled =>
      exact inv.move rfl inv.strangers (by simp [place, Supervisor.received])
  | reply place ended =>
      obtain ⟨-, call, hcall, rfl⟩ := busStep_eq_some ended
      exact inv.checkEnd hcall
  | exit =>
      refine inv.move rfl (fun proc hproc => ?_) Iff.rfl
      rcases List.mem_map.mp hproc with ⟨old, hold, rfl⟩
      split_ifs <;> exact inv.strangers old hold
  | agencyStart listed processing running enable first called =>
      obtain ⟨-, -, -, rfl⟩ := busStep_eq_some called
      exact inv.subscribe (inv.strangers _ listed)
  | publish listed control server called =>
      obtain ⟨-, -, rfl⟩ := busStep_eq_some called
      exact inv.publish ⟨_, server, rfl⟩ _ false
  | refuse => exact inv

theorem pending_eq (inv : CallInv build monitor s) :
    s.pending monitor = (!(s.bus.bus.subLst 0).isConsumed && !s.pc.isReply) := by
  rw [Supervisor.pending, inv.slotOf_eq]
  rfl

theorem isCommandMessage (inv : CallInv build monitor s) {call : InCallback}
    (called : s.bus.inCallback monitor = some call) : IsCommandMessage build call.msg := by
  obtain ⟨-, hflag, hmsg⟩ := inv.calls call called
  rw [hmsg]
  exact inv.server _ (List.mem_of_getLast? (inv.waits hflag).2)

/-! ## What has been applied -/

/-- What has been applied depends on the mark of the monitor and on the accepted messages. -/
theorem applied_congr (inv : CallInv build monitor s) (kept : CallInv build monitor target)
    (flag : (target.bus.bus.subLst 0).isConsumed = (s.bus.bus.subLst 0).isConsumed)
    (accepted : target.bus.accepted = s.bus.accepted) (place : target.pc.isReply = s.pc.isReply) :
    target.applied monitor = s.applied monitor := by
  rw [Supervisor.applied, Supervisor.applied, inv.pending_eq, kept.pending_eq, flag, accepted,
    place]

/-- The callback applies the last message, which was pending. -/
theorem applied_received (inv : CallInv build monitor s) {call : InCallback} {answer : Received}
    (place : s.pc = .receive) (called : s.bus.inCallback monitor = some call) :
    (s.received answer).applied monitor = s.applied monitor ++ [call.msg] := by
  obtain ⟨-, hflag, hmsg⟩ := inv.calls call called
  obtain ⟨-, hlast⟩ := inv.waits hflag
  have hbefore : s.pending monitor = true := by
    rw [inv.pending_eq, hflag, place]
    rfl
  have hafter : (s.received answer).pending monitor = false := Bool.and_false _
  rw [Supervisor.applied, Supervisor.applied, hbefore, hafter, hmsg]
  exact (List.dropLast_append_getLast? _ hlast).symm

/-- The mark is set on a message that has been applied. -/
theorem applied_checkEnd (inv : CallInv build monitor s) {call : InCallback} {ret : Int}
    (place : s.pc = .reply ret) (called : s.bus.inCallback monitor = some call) :
    Supervisor.applied { s with
      bus := s.bus.checkEnd monitor call ret
      pc := .create } monitor = s.applied monitor := by
  obtain ⟨hslot, -, -⟩ := inv.calls call called
  have hbefore : s.pending monitor = false := by
    rw [inv.pending_eq, place]
    exact Bool.and_false _
  have hafter : Supervisor.pending { s with
      bus := s.bus.checkEnd monitor call ret
      pc := .create } monitor = false := by
    rw [(inv.checkEnd called).pending_eq]
    simp [BusState.checkEnd, Bus.reply, hslot]
  rw [Supervisor.applied, Supervisor.applied, hbefore, hafter]
  rfl

/-- A message is only accepted behind one that has been applied, and is then pending. -/
theorem applied_publish (inv : CallInv build monitor s) {message : List UInt8}
    (command : IsCommandMessage build message) (publisher : Nat) (wait : Bool) :
    Supervisor.applied { s with bus := s.bus.publish publisher message wait } monitor =
      s.applied monitor := by
  have kept := inv.publish command publisher wait
  rcases s.bus.publish_cases publisher message wait with hsame | ⟨bus, hbus, -, haccept⟩
  · rw [hsame]
  obtain ⟨hreply, rfl⟩ := Bus.publish_eq_some hbus
  rw [haccept] at kept ⊢
  -- a message that the monitor has not consumed would wait for its reply
  have hflag : (s.bus.bus.subLst 0).isConsumed = true := by
    cases hzero : (s.bus.bus.subLst 0).isConsumed with
    | false => exact absurd (inv.waits hzero).1 hreply
    | true => rfl
  have hplace : s.pc.isReply = false := by
    cases hpc : s.pc with
    | reply ret =>
        obtain ⟨call, hcall⟩ := Option.isSome_iff_exists.mp (inv.inside.mpr (.inr ⟨ret, hpc⟩))
        have hfalse := (inv.calls call hcall).2.1
        rw [hflag] at hfalse
        cases hfalse
    | _ => rfl
  have hbefore : s.pending monitor = false := by
    rw [inv.pending_eq, hflag]
    rfl
  have hafter : Supervisor.pending { s with
      bus := s.bus.accept publisher message wait (s.bus.bus.store message) } monitor = true := by
    rw [kept.pending_eq, hplace]
    rfl
  rw [Supervisor.applied, Supervisor.applied, hbefore, hafter]
  exact List.dropLast_concat

/-- Any other step applies nothing. -/
theorem applied_step (inv : CallInv build monitor s) (effect : Effect build monitor s act target)
    (other : act ≠ .receive) : target.applied monitor = s.applied monitor := by
  have kept := inv.step effect
  cases effect with
  | create place need available => exact inv.applied_congr kept rfl rfl (by rw [place]; rfl)
  | keep place same => exact inv.applied_congr kept rfl rfl (by rw [place]; rfl)
  | createControl place enable need available =>
      exact inv.applied_congr kept rfl rfl (by rw [place]; rfl)
  | keepControl place same => exact inv.applied_congr kept rfl rfl (by rw [place]; rfl)
  | abort place nobody => exact inv.applied_congr kept rfl rfl (by rw [place]; rfl)
  | goOn place => exact inv.applied_congr kept rfl rfl (by rw [place]; rfl)
  | @reap child proc place listed =>
      refine inv.applied_congr kept rfl rfl ?_
      rcases s.reap_pc proc with hleft | hcheck
      · rw [hleft, place]
        rfl
      · rw [hcheck, place]
        rfl
  | check place enable begun =>
      obtain ⟨-, -, -, rfl⟩ := busStep_eq_some begun
      have hsame : (s.bus.checkBegin monitor).bus = s.bus.bus ∧
          (s.bus.checkBegin monitor).accepted = s.bus.accepted := by
        rcases s.bus.checkBegin_cases monitor with hsame | ⟨slot, -, -, hstart⟩
        · rw [hsame]
          exact ⟨rfl, rfl⟩
        · rw [hstart]
          exact ⟨rfl, rfl⟩
      refine inv.applied_congr kept (by rw [hsame.1]) hsame.2 ?_
      rw [place]
      dsimp only
      split_ifs <;> rfl
  | skip place disabled => exact inv.applied_congr kept rfl rfl (by rw [place]; rfl)
  | receive place called handled => exact absurd rfl other
  | reply place ended =>
      obtain ⟨-, call, hcall, rfl⟩ := busStep_eq_some ended
      exact inv.applied_checkEnd place hcall
  | exit => rfl
  | @agencyStart proc bus listed processing running enable first called =>
      obtain ⟨-, -, -, rfl⟩ := busStep_eq_some called
      have hsame : ((s.bus.subscribe proc.pid true).bus.subLst 0) = s.bus.bus.subLst 0 ∧
          (s.bus.subscribe proc.pid true).accepted = s.bus.accepted := by
        unfold BusState.subscribe
        rcases s.bus.bus.subscribe_cases proc.pid true with
          ⟨hfull, -⟩ | ⟨hmistake, -⟩ | ⟨slot, hfree, -, hregistered⟩
        · rw [hfull]
          exact ⟨rfl, rfl⟩
        · rw [hmistake]
          exact ⟨rfl, rfl⟩
        · rw [hregistered]
          refine ⟨Function.update_of_ne ?_ _ _, rfl⟩
          rintro rfl
          exact inv.positive (((inv.own 0).mpr rfl).symm.trans hfree)
      exact inv.applied_congr kept (by rw [← hsame.1]; rfl) hsame.2 rfl
  | publish listed control server called =>
      obtain ⟨-, -, rfl⟩ := busStep_eq_some called
      exact inv.applied_publish ⟨_, server, rfl⟩ _ false
  | refuse => rfl

end CallInv

/-! ## The configurations -/

variable {first : Conf} {c d : Configured}

/-- A step of the monitor with its configuration. -/
theorem configuredStep_eq_some (enabled : configuredStep build confuse monitor c act = some d) :
    supervisorStep build monitor c.sup act = some d.sup ∧
      match act with
      | .create _ => d.conf = c.conf ∧
          d.copied = if c.sup.childrenPids .processing = pidNeedToCreate then c.conf else c.copied
      | .receive => d.copied = c.copied ∧ ∃ call, c.sup.bus.inCallback monitor = some call ∧
          receiveMessageConf build confuse call.msg c.conf = some d.conf
      | _ => d.conf = c.conf ∧ d.copied = c.copied := by
  rcases Option.bind_eq_some_iff.mp enabled with ⟨sup, hsup, hconf⟩
  cases act with
  | create pid =>
      dsimp only at hconf
      split_ifs at hconf with hneed
      · cases hconf
        exact ⟨hsup, rfl, (if_pos hneed).symm⟩
      · cases hconf
        exact ⟨hsup, rfl, (if_neg hneed).symm⟩
  | receive =>
      rcases Option.bind_eq_some_iff.mp hconf with ⟨call, hcall, hmap⟩
      rcases Option.map_eq_some_iff.mp hmap with ⟨conf, happlied, rfl⟩
      exact ⟨hsup, rfl, call, hcall, happlied⟩
  | _ =>
      cases hconf
      exact ⟨hsup, rfl, rfl⟩

/-- What the configurations have to do with the commands and the children. -/
structure ConfigInv (build : Build) (confuse : Confuse) (monitor : Nat) (first : Conf)
    (c : Configured) : Prop where
  loop : LoopInv c.sup
  calls : CallInv build monitor c.sup
  switch : c.sup.enable = c.conf.bool .dynamicConfIsEnable
  applied : applyMessages build confuse (c.sup.applied monitor) first = some c.conf
  copied : 0 < c.sup.childrenPids .processing →
    c.copied = c.conf ∨ c.sup.lastEvent .processing = some .asked

/-- The callback alone writes the switch. -/
theorem enable_step (effect : Effect build monitor s act target) (other : act ≠ .receive) :
    target.enable = s.enable := by
  cases effect with
  | receive place called handled => exact absurd rfl other
  | _ => rfl

/-- Outside the callback, a running processing child is the one of before, or it was just
created. -/
theorem entry_step (loop : LoopInv s) (effect : Effect build monitor s act target)
    (other : act ≠ .receive) (running : 0 < target.childrenPids .processing) :
    (∃ pid, act = .create pid ∧ s.childrenPids .processing = pidNeedToCreate) ∨
      (0 < s.childrenPids .processing ∧
        target.lastEvent .processing = s.lastEvent .processing) := by
  cases effect with
  | create place need available => exact .inl ⟨_, rfl, need⟩
  | createControl place enable need available =>
      refine .inr ⟨?_, ?_⟩
      · simpa [Supervisor.fork] using running
      · simp [Supervisor.lastEvent, Supervisor.fork]
  | @reap child proc place listed =>
      have hentry : (s.reap proc).childrenPids = Function.update s.childrenPids proc.kind
          (if proc.exited = some true then pidNeedToStop else pidNeedToCreate) :=
        loop.updated_eq listed _
      rw [hentry] at running
      cases hkind : proc.kind with
      | processing =>
          rw [hkind, Function.update_self] at running
          split_ifs at running <;> exact absurd running (by decide)
      | control =>
          rw [hkind, Function.update_of_ne (by decide)] at running
          refine .inr ⟨running, ?_⟩
          simp [Supervisor.lastEvent, Supervisor.reap, hkind]
  | receive place called handled => exact absurd rfl other
  | _ => exact .inr ⟨running, rfl⟩

theorem received_of_effect (effect : Effect build monitor s .receive target) :
    s.pc = .receive ∧ ∃ call answer, s.bus.inCallback monitor = some call ∧
      receiveMessage build call.msg (s.childrenPids .processing) s.enable = .ok answer ∧
      target = s.received answer := by
  cases effect with
  | receive place called handled => exact ⟨place, _, _, called, handled, rfl⟩

/-- A command that leaves a processing child running was an update, for which the child is told
to start again, or does not change the configuration. -/
theorem received_step {message : List UInt8} (command : IsCommandMessage build message)
    {answer : Received} {conf next : Conf}
    (handled : receiveMessage build message (s.childrenPids .processing) s.enable = .ok answer)
    (applied : receiveMessageConf build confuse message conf = some next)
    (running : 0 < (s.received answer).childrenPids .processing) :
    0 < s.childrenPids .processing ∧
      ((s.received answer).lastEvent .processing = some .asked ∨
        ((s.received answer).lastEvent .processing = s.lastEvent .processing ∧ next = conf)) := by
  have hpid : answer.pid = s.childrenPids .processing := by
    apply (receiveMessage_eq_ok handled).1.resolve_right
    rintro ⟨hzero, -⟩
    simp [Supervisor.received, hzero] at running
  have hpositive : 0 < s.childrenPids .processing := by
    simpa [Supervisor.received, hpid] using running
  refine ⟨hpositive, ?_⟩
  obtain ⟨command, hserver, rfl⟩ := command
  cases command with
  | start =>
      rw [receiveMessage_start, if_pos hpositive] at handled
      cases handled
      cases applied
      exact .inr ⟨by simp [Supervisor.lastEvent, Supervisor.received], rfl⟩
  | stop =>
      rw [receiveMessage_stop, if_neg (by omega)] at handled
      cases handled
      cases applied
      exact .inr ⟨by simp [Supervisor.lastEvent, Supervisor.received], rfl⟩
  | update parameter =>
      obtain ⟨enable, hanswer⟩ :=
        receiveMessage_update hserver (s.childrenPids .processing) s.enable
      rw [hanswer, if_pos hpositive] at handled
      cases handled
      exact .inl (by simp [Supervisor.lastEvent, Supervisor.received])

namespace ConfigInv

theorem initial (positive : monitor ≠ 0) (switched : first.bool .dynamicConfIsEnable = true) :
    ConfigInv build confuse monitor first ⟨.initial monitor true, first, first⟩ where
  loop := .initial monitor true
  calls := .initial positive
  switch := switched.symm
  applied := by
    have hempty : (Supervisor.initial monitor true).bus.accepted = [] := by
      rw [show (Supervisor.initial monitor true).bus = BusState.fresh.subscribe monitor true from
        rfl, subscribe_fresh positive]
      rfl
    rw [Supervisor.applied, hempty, List.dropLast_nil, ite_self]
    rfl
  copied h := by cases h

theorem step (inv : ConfigInv build confuse monitor first c)
    (enabled : configuredStep build confuse monitor c act = some d) :
    ConfigInv build confuse monitor first d := by
  obtain ⟨hsup, hconf⟩ := configuredStep_eq_some enabled
  have heffect := effect_of_step hsup
  have hloop := inv.loop.step heffect
  have hcalls := inv.calls.step heffect
  -- a step outside the callback leaves the configuration as it is
  have houtside : act ≠ .receive → d.conf = c.conf →
      (0 < d.sup.childrenPids .processing →
        d.copied = d.conf ∨ d.sup.lastEvent .processing = some .asked) →
      ConfigInv build confuse monitor first d := by
    intro hother hsame hcopied
    exact {
      loop := hloop
      calls := hcalls
      switch := by
        rw [enable_step heffect hother, hsame]
        exact inv.switch
      applied := by
        rw [inv.calls.applied_step heffect hother, hsame]
        exact inv.applied
      copied := hcopied }
  have hkeep : act ≠ .receive → (∀ pid, act ≠ .create pid) → d.conf = c.conf →
      d.copied = c.copied → ConfigInv build confuse monitor first d := by
    intro hother hcreate hsame hcopied
    refine houtside hother hsame fun hrunning => ?_
    rcases entry_step inv.loop heffect hother hrunning with ⟨pid, hact, -⟩ | ⟨hbefore, hlast⟩
    · exact absurd hact (hcreate pid)
    · rw [hcopied, hsame, hlast]
      exact inv.copied hbefore
  cases act with
  | create pid =>
      obtain ⟨hsame, hcopied⟩ := hconf
      refine houtside (by simp) hsame fun hrunning => ?_
      rw [hcopied, hsame]
      rcases entry_step inv.loop heffect (by simp) hrunning with ⟨-, -, hneed⟩ | ⟨hbefore, hlast⟩
      · rw [if_pos hneed]
        exact .inl rfl
      · rw [if_neg (by simp only [pidNeedToCreate]; omega), hlast]
        exact inv.copied hbefore
  | receive =>
      obtain ⟨hcopied, call, hcall, happlied⟩ := hconf
      obtain ⟨hplace, called, answer, hcalled, hhandled, htarget⟩ := received_of_effect heffect
      obtain rfl : called = call := Option.some.inj (hcalled.symm.trans hcall)
      have hcommand := inv.calls.isCommandMessage hcalled
      have hstep := received_step hcommand hhandled happlied
      rw [← htarget] at hstep
      exact {
        loop := hloop
        calls := hcalls
        switch := by
          rw [htarget]
          rw [inv.switch] at hhandled
          exact receiveMessage_enable_eq hhandled happlied
        applied := by
          rw [htarget, inv.calls.applied_received hplace hcalled, applyMessages,
            List.foldlM_append]
          exact Option.bind_eq_some_iff.mpr ⟨c.conf, inv.applied, by simp [happlied]⟩
        copied := fun hrunning => by
          obtain ⟨hbefore, hasked | ⟨hlast, hsame⟩⟩ := hstep hrunning
          · exact .inr hasked
          · rw [hcopied, hlast, hsame]
            exact inv.copied hbefore }
  | createControl pid => exact hkeep (by simp) (by simp) hconf.1 hconf.2
  | wait child => exact hkeep (by simp) (by simp) hconf.1 hconf.2
  | check => exact hkeep (by simp) (by simp) hconf.1 hconf.2
  | reply => exact hkeep (by simp) (by simp) hconf.1 hconf.2
  | exit pid success => exact hkeep (by simp) (by simp) hconf.1 hconf.2
  | agencyStart pid => exact hkeep (by simp) (by simp) hconf.1 hconf.2
  | command pid received => exact hkeep (by simp) (by simp) hconf.1 hconf.2

theorem of_reachable (positive : monitor ≠ 0) (switched : first.bool .dynamicConfIsEnable = true)
    (reached : (configuredMachine build confuse monitor first).Reachable c) :
    ConfigInv build confuse monitor first c := by
  refine Machine.Reachable.invariant (ConfigInv build confuse monitor first) ?_ ?_ reached
  · rintro _ rfl
    exact .initial positive switched
  · intro c act d inv enabled
    exact inv.step enabled

end ConfigInv

/-- In every run, the configuration of the monitor is what the accepted messages make of the
first one, each applied once and in the order in which they were accepted.  Only the last one
may still be missing, while the monitor has not handled it. -/
theorem monitor_appliesAccepted (build : Build) (confuse : Confuse) {monitor : Nat} {first : Conf}
    {c : Configured} (positive : monitor ≠ 0)
    (switched : first.bool .dynamicConfIsEnable = true)
    (reached : (configuredMachine build confuse monitor first).Reachable c) :
    applyMessages build confuse (c.sup.applied monitor) first = some c.conf :=
  (ConfigInv.of_reachable positive switched reached).applied

/-- In every run, a processing child that has not been waited for has the configuration of the
monitor, or it has been asked to start again since it was created. -/
theorem child_upToDate_or_asked (build : Build) (confuse : Confuse) {monitor : Nat} {first : Conf}
    {c : Configured} (positive : monitor ≠ 0)
    (switched : first.bool .dynamicConfIsEnable = true)
    (reached : (configuredMachine build confuse monitor first).Reachable c) {child : Proc}
    (forked : child ∈ c.sup.procs) (processing : child.kind = .processing) :
    c.copied = c.conf ∨ c.sup.lastEvent .processing = some .asked := by
  have inv := ConfigInv.of_reachable positive switched reached
  exact inv.copied ((inv.loop.pos_iff .processing).mpr ⟨child, forked, processing⟩)

/-- A configuration with dynamic configuration switched on. -/
def switchedConf : Conf := defaultConf.setBool .dynamicConfIsEnable true

/-- The state behind a run in which an update is handled while the processing child runs. -/
def configuredRunning : Configured :=
  (configuredMachine (fun _ => true) Configure.plainConfuse 1 switchedConf).after updateRunning
    ⟨.initial 1 true, switchedConf, switchedConf⟩

theorem reachable_configuredRunning :
    (configuredMachine (fun _ => true) Configure.plainConfuse 1 switchedConf).Reachable
      configuredRunning :=
  Machine.reachable_after rfl (by decide +kernel)

theorem monitor_appliesAccepted_updateRunning :
    configuredRunning.sup.bus.accepted.length = 1 ∧ configuredRunning.sup.pending 1 = false ∧
      configuredRunning.conf.uint32 .probeId = 1 ∧
      applyMessages (fun _ => true) Configure.plainConfuse (configuredRunning.sup.applied 1)
        switchedConf = some configuredRunning.conf :=
  ⟨by decide +kernel, by decide +kernel, by decide +kernel,
    monitor_appliesAccepted _ _ (by decide) (by decide) reachable_configuredRunning⟩

/-- The child of that run was created before the update. -/
theorem child_upToDate_or_asked_updateRunning :
    configuredRunning.copied.uint32 .probeId ≠ configuredRunning.conf.uint32 .probeId ∧
      (configuredRunning.copied = configuredRunning.conf ∨
        configuredRunning.sup.lastEvent .processing = some .asked) := by
  have forked : ⟨2, .processing, true, false, none⟩ ∈ configuredRunning.sup.procs := by
    decide +kernel
  exact ⟨by decide +kernel,
    child_upToDate_or_asked _ _ (by decide) (by decide) reachable_configuredRunning forked rfl⟩

end MmtProbe.DynamicConf
