/-
# The children and the subscriber table

Every processing child subscribes to the bus after it was forked, and none
unsubscribes: a child that has terminated keeps its slot.  The table holds the
monitor and then the callers of `dynamic_conf_agency_start` in their order, as
far as there are slots.  So the third child and all later ones get none.
-/

import Mathlib.Data.List.GetD
import MmtProbe.DynamicConf.SupervisorLoop

namespace MmtProbe.DynamicConf

open MmtProbe.Math

/-- A processing child that runs and has called `dynamic_conf_agency_start`. -/
structure IsActive (s : Supervisor) (proc : Proc) : Prop where
  listed : proc ∈ s.procs
  processing : proc.kind = .processing
  running : proc.exited = none
  started : proc.started = true

/-- A process has a slot of the table. -/
def Occupies (s : Supervisor) (proc : Proc) : Prop :=
  ∃ slot, (s.bus.bus.subLst slot).pid = proc.pid

/-- No number is given to two children. -/
def FreshPids (s : Supervisor) : SupAct → Prop
  | .create pid | .createControl pid => pid ∉ s.used
  | _ => True

instance : ∀ (s : Supervisor) (act : SupAct), Decidable (FreshPids s act)
  | s, .create pid | s, .createControl pid => inferInstanceAs (Decidable (pid ∉ s.used))
  | _, .wait _ | _, .check | _, .receive | _, .reply | _, .exit _ _ | _, .agencyStart _
  | _, .command _ _ => .isTrue trivial

/-! ## The table as a list -/

/-- The slots hold the elements of a list, from the first slot on, as far as there
are slots. -/
def Bus.Holds (bus : Bus) (threads : List Nat) : Prop :=
  ∀ slot : Fin 3, (bus.subLst slot).pid = threads.getD slot 0

section Table

variable {threads : List Nat} {thread : Nat}

theorem Bus.holds_congr {bus other : Bus}
    (same : ∀ slot, (other.subLst slot).pid = (bus.subLst slot).pid) (holds : bus.Holds threads) :
    other.Holds threads := fun slot => (same slot).trans (holds slot)

/-- The search of `mmt_bus_subscribe` ends behind the list. -/
theorem Bus.find_free {bus : Bus} (holds : bus.Holds threads)
    (positive : ∀ other ∈ threads, other ≠ 0) (new : thread ∉ threads) :
    (slots.find? fun slot => (bus.subLst slot).pid == thread || (bus.subLst slot).pid == 0)
      = if h : threads.length < 3 then some ⟨threads.length, h⟩ else none := by
  have h0 := holds 0
  have h1 := holds 1
  have h2 := holds 2
  match threads with
  | [] => simp [slots, h0]
  | [first] =>
      simp at h0 h1 positive new
      simp [slots, h0, h1, positive, Ne.symm new]
  | [first, second] =>
      simp at h0 h1 h2 positive new
      simp [slots, h0, h1, h2, positive, Ne.symm new.1, Ne.symm new.2]
  | first :: second :: third :: others =>
      simp at h0 h1 h2 positive new
      simp [slots, h0, h1, h2, positive, Ne.symm new.1, Ne.symm new.2.1, Ne.symm new.2.2.1]

/-- A new thread is entered behind the others, if there is a slot. -/
theorem BusState.subscribe_holds {s : BusState} (holds : s.bus.Holds threads)
    (positive : ∀ other ∈ threads, other ≠ 0) (new : thread ∉ threads) (nonzero : thread ≠ 0)
    (callback : Bool) :
    (s.subscribe thread callback).bus.Holds (threads ++ [thread]) ∧
      (s.subscribe thread callback).locked = s.locked := by
  unfold BusState.subscribe Bus.subscribe
  rw [Bus.find_free holds positive new]
  by_cases hspace : threads.length < 3
  · have hfree : (s.bus.subLst ⟨threads.length, hspace⟩).pid ≠ thread := by
      rw [holds]
      simpa using Ne.symm nonzero
    simp only [dif_pos hspace, if_neg hfree]
    refine ⟨fun slot => ?_, trivial⟩
    simp only [Bus.register, Function.update_apply]
    split_ifs with hslot
    · subst hslot
      simp
    · rw [holds slot]
      rcases Nat.lt_or_ge slot threads.length with hlt | hge
      · rw [List.getD_append _ _ _ _ hlt]
      · have hne : (slot : Nat) ≠ threads.length := fun h => hslot (Fin.ext h)
        rw [List.getD_eq_default _ _ hge, List.getD_eq_default]
        simp only [List.length_append, List.length_singleton]
        omega
  · simp only [dif_neg hspace]
    refine ⟨fun slot => ?_, trivial⟩
    rw [holds slot, List.getD_append _ _ _ _ (by omega)]

/-- The sections of `mmt_bus_publish` and `mmt_bus_subcriber_check` do not change
who is in the table. -/
theorem BusState.pid_publish (s : BusState) (publisher : Nat) (message : List UInt8) (wait : Bool) :
    (∀ slot, ((s.publish publisher message wait).bus.subLst slot).pid = (s.bus.subLst slot).pid) ∧
      (s.publish publisher message wait).locked = s.locked := by
  rcases s.publish_cases publisher message wait with hsame | ⟨bus, hbus, -, haccept⟩
  · rw [hsame]
    exact ⟨fun _ => rfl, rfl⟩
  · obtain ⟨-, rfl⟩ := Bus.publish_eq_some hbus
    rw [haccept]
    exact ⟨fun _ => rfl, rfl⟩

theorem BusState.pid_checkBegin (s : BusState) (thread : Nat) :
    (∀ slot, ((s.checkBegin thread).bus.subLst slot).pid = (s.bus.subLst slot).pid) ∧
      (s.checkBegin thread).locked = s.locked := by
  rcases s.checkBegin_cases thread with hsame | ⟨slot, -, -, hstart⟩
  · rw [hsame]
    exact ⟨fun _ => rfl, rfl⟩
  · rw [hstart]
    exact ⟨fun _ => rfl, rfl⟩

theorem BusState.pid_checkEnd (s : BusState) (thread : Nat) (call : InCallback) (ret : Int) :
    (∀ slot, ((s.checkEnd thread call ret).bus.subLst slot).pid = (s.bus.subLst slot).pid) ∧
      (s.checkEnd thread call ret).locked = s.locked := by
  refine ⟨fun slot => ?_, rfl⟩
  simp only [checkEnd, Bus.reply, Function.update_apply]
  split_ifs with hslot
  · rw [hslot]
  · rfl

end Table

/-! ## Callers -/

/-- What holds of the table and of the children when no number is used twice. -/
structure SlotInv (monitor : Nat) (s : Supervisor) : Prop where
  holds : s.bus.bus.Holds (monitor :: s.callers)
  distinct : (monitor :: s.callers).Nodup
  nonzero : s.bus.locked = false → monitor ≠ 0
  known : ∀ pid ∈ s.callers, 0 < pid ∧ pid ∈ s.used
  listed : ∀ proc ∈ s.procs, proc.pid ≠ monitor ∧ proc.pid ∈ s.used
  silent : ∀ proc ∈ s.procs, proc.started = false → proc.pid ∉ s.callers
  /-- A child that has called was the last one to do so. -/
  latest : ∀ proc ∈ s.procs, proc.started = true →
    proc.kind = .processing ∧ s.callers.getLast? = some proc.pid

namespace SlotInv

variable {build : Build} {monitor : Nat} {s target : Supervisor} {act : SupAct}

theorem initial (monitor : Nat) : SlotInv monitor (.initial monitor true) where
  holds := by
    change (BusState.fresh.subscribe monitor true).bus.Holds ([] ++ [monitor])
    by_cases hzero : monitor = 0
    · subst hzero
      intro slot
      revert slot
      decide
    · have hempty : BusState.fresh.bus.Holds [] := fun slot => rfl
      exact (BusState.subscribe_holds hempty (by simp) (by simp) hzero true).1
  distinct := List.nodup_singleton monitor
  nonzero := by
    rintro hlocked rfl
    cases hlocked
  known pid h := by cases h
  listed proc h := by cases h
  silent proc h := by cases h
  latest proc h := by cases h

/-- A step that enters nobody into the table. The children behind it were there
before, or are new ones with a fresh number. -/
theorem keep (inv : SlotInv monitor s)
    (pids : ∀ slot, (target.bus.bus.subLst slot).pid = (s.bus.bus.subLst slot).pid)
    (locked : target.bus.locked = s.bus.locked) (callers : target.callers = s.callers)
    (used : ∀ pid ∈ s.used, pid ∈ target.used)
    (procs : ∀ proc ∈ target.procs,
      (∃ old ∈ s.procs, proc.pid = old.pid ∧ proc.kind = old.kind ∧ proc.started = old.started) ∨
      (proc.started = false ∧ proc.pid ≠ monitor ∧ proc.pid ∉ s.used ∧ proc.pid ∈ target.used)) :
    SlotInv monitor target where
  holds := by
    rw [callers]
    exact Bus.holds_congr pids inv.holds
  distinct := by
    rw [callers]
    exact inv.distinct
  nonzero := by
    rw [locked]
    exact inv.nonzero
  known pid h := by
    rw [callers] at h
    obtain ⟨hpositive, hused⟩ := inv.known pid h
    exact ⟨hpositive, used pid hused⟩
  listed proc h := by
    rcases procs proc h with ⟨old, hold, hpid, -, -⟩ | ⟨-, hmonitor, -, hused⟩
    · obtain ⟨hmonitor, hused⟩ := inv.listed old hold
      rw [hpid]
      exact ⟨hmonitor, used old.pid hused⟩
    · exact ⟨hmonitor, hused⟩
  silent proc h hstarted := by
    rw [callers]
    rcases procs proc h with ⟨old, hold, hpid, -, hsame⟩ | ⟨-, -, hfresh, -⟩
    · rw [hpid]
      exact inv.silent old hold (hsame ▸ hstarted)
    · exact fun hcalled => hfresh (inv.known proc.pid hcalled).2
  latest proc h hstarted := by
    rw [callers]
    rcases procs proc h with ⟨old, hold, hpid, hkind, hsame⟩ | ⟨hnot, -, -, -⟩
    · rw [hpid, hkind]
      exact inv.latest old hold (hsame ▸ hstarted)
    · rw [hnot] at hstarted
      cases hstarted

/-- The children stay as they were. -/
theorem move (inv : SlotInv monitor s)
    (pids : ∀ slot, (target.bus.bus.subLst slot).pid = (s.bus.bus.subLst slot).pid)
    (locked : target.bus.locked = s.bus.locked) (callers : target.callers = s.callers)
    (used : target.used = s.used) (procs : target.procs = s.procs) : SlotInv monitor target :=
  inv.keep pids locked callers (fun _ h => used ▸ h)
    fun proc h => .inl ⟨proc, procs ▸ h, rfl, rfl, rfl⟩

theorem fork (inv : SlotInv monitor s) {kind : Kind} {pid : Nat} (pc : Pc)
    (available : s.Available monitor pid) (fresh : pid ∉ s.used) :
    SlotInv monitor { s.fork kind pid with pc := pc } := by
  refine inv.keep (fun _ => rfl) rfl rfl (fun _ h => List.mem_cons_of_mem _ h) fun proc h => ?_
  rcases List.mem_cons.mp h with rfl | hold
  · exact .inr ⟨rfl, available.2.1, fresh, List.mem_cons_self⟩
  · exact .inl ⟨proc, hold, rfl, rfl, rfl⟩

/-- A child calls `dynamic_conf_agency_start`. -/
theorem subscribed (inv : SlotInv monitor s) (loop : LoopInv s) {proc : Proc}
    (listed : proc ∈ s.procs) (processing : proc.kind = .processing)
    (first : proc.started = false) (unlocked : s.bus.locked = false) :
    SlotInv monitor (s.subscribed proc.pid (s.bus.subscribe proc.pid true)) := by
  have hpositive := loop.positive proc listed
  have hnew : proc.pid ∉ monitor :: s.callers := by
    rw [List.mem_cons, not_or]
    exact ⟨(inv.listed proc listed).1, inv.silent proc listed first⟩
  have hnonzero : ∀ other ∈ monitor :: s.callers, other ≠ 0 := by
    intro other hother
    rcases List.mem_cons.mp hother with rfl | hcaller
    · exact inv.nonzero unlocked
    · exact (inv.known other hcaller).1.ne'
  obtain ⟨hholds, hlocked⟩ :=
    BusState.subscribe_holds inv.holds hnonzero hnew hpositive.ne' true
  -- the only processing child is the one that calls
  have hprocs : ∀ new ∈ (s.subscribed proc.pid (s.bus.subscribe proc.pid true)).procs,
      (new.pid = proc.pid ∧ new.kind = .processing ∧ new.started = true) ∨
      (new ∈ s.procs ∧ new.pid ≠ proc.pid ∧ new.started = false) := by
    intro new hmem
    obtain ⟨old, hold, rfl⟩ := List.mem_map.mp hmem
    by_cases hpid : old.pid = proc.pid
    · obtain rfl : old = proc := List.inj_on_of_nodup_map loop.distinct hold listed hpid
      exact .inl ⟨by simp, by simp [processing], by simp⟩
    · rw [if_neg hpid]
      refine .inr ⟨hold, hpid, ?_⟩
      by_contra hstarted
      have hkind := (inv.latest old hold (by simpa using hstarted)).1
      have hsame := (loop.entry_of_mem hold).2
      rw [hkind, ← processing, (loop.entry_of_mem listed).2] at hsame
      omega
  exact {
    holds := hholds
    distinct := by
      change (monitor :: s.callers ++ [proc.pid]).Nodup
      exact List.nodup_append.mpr ⟨inv.distinct, List.nodup_singleton _, by
        rintro a ha b hb rfl
        exact hnew (List.mem_singleton.mp hb ▸ ha)⟩
    nonzero := fun _ => inv.nonzero unlocked
    known := fun pid hpid => by
      rcases List.mem_append.mp hpid with hold | hnewest
      · exact inv.known pid hold
      · rw [List.mem_singleton.mp hnewest]
        exact ⟨hpositive, (inv.listed proc listed).2⟩
    listed := fun new hmem => by
      rcases hprocs new hmem with ⟨hpid, -, -⟩ | ⟨hold, -, -⟩
      · rw [hpid]
        exact inv.listed proc listed
      · exact inv.listed new hold
    silent := fun new hmem hstarted => by
      rcases hprocs new hmem with ⟨-, -, hnot⟩ | ⟨hold, hpid, -⟩
      · rw [hnot] at hstarted
        cases hstarted
      · simp only [Supervisor.subscribed, List.mem_append, List.mem_singleton, not_or]
        exact ⟨inv.silent new hold hstarted, hpid⟩
    latest := fun new hmem hstarted => by
      rcases hprocs new hmem with ⟨hpid, hkind, -⟩ | ⟨-, -, hnot⟩
      · exact ⟨hkind, by simp [Supervisor.subscribed, hpid]⟩
      · rw [hnot] at hstarted
        cases hstarted }

theorem step (inv : SlotInv monitor s) (loop : LoopInv s) (fresh : FreshPids s act)
    (effect : Effect build monitor s act target) : SlotInv monitor target := by
  cases effect with
  | create place need available => exact inv.fork .createControl available fresh
  | keep place kept => exact inv.move (fun _ => rfl) rfl rfl rfl rfl
  | createControl place enable need available => exact inv.fork .wait available fresh
  | keepControl place kept => exact inv.move (fun _ => rfl) rfl rfl rfl rfl
  | abort place nobody => exact inv.move (fun _ => rfl) rfl rfl rfl rfl
  | goOn place => exact inv.move (fun _ => rfl) rfl rfl rfl rfl
  | reap place listed =>
      refine inv.keep (fun _ => rfl) rfl rfl (fun _ h => h) fun proc h => ?_
      exact .inl ⟨proc, (List.mem_filter.mp h).1, rfl, rfl, rfl⟩
  | check place enable begun =>
      obtain ⟨-, -, -, rfl⟩ := busStep_eq_some begun
      obtain ⟨hpids, hlocked⟩ := s.bus.pid_checkBegin monitor
      exact inv.move hpids hlocked rfl rfl rfl
  | skip place disabled => exact inv.move (fun _ => rfl) rfl rfl rfl rfl
  | receive place called handled => exact inv.move (fun _ => rfl) rfl rfl rfl rfl
  | @reply ret bus place ended =>
      obtain ⟨-, call, -, rfl⟩ := busStep_eq_some ended
      obtain ⟨hpids, hlocked⟩ := s.bus.pid_checkEnd monitor call ret
      exact inv.move hpids hlocked rfl rfl rfl
  | exit =>
      refine inv.keep (fun _ => rfl) rfl rfl (fun _ h => h) fun proc h => ?_
      obtain ⟨old, hold, rfl⟩ := List.mem_map.mp h
      refine .inl ⟨old, hold, ?_⟩
      split_ifs <;> exact ⟨rfl, rfl, rfl⟩
  | agencyStart listed processing running enable first called =>
      obtain ⟨hlocked, -, -, rfl⟩ := busStep_eq_some called
      exact inv.subscribed loop listed processing first hlocked
  | @publish proc received command bus listed control server called =>
      obtain ⟨-, -, rfl⟩ := busStep_eq_some called
      obtain ⟨hpids, hlocked⟩ := s.bus.pid_publish proc.pid command.message false
      exact inv.move hpids hlocked rfl rfl rfl
  | refuse => exact inv

/-- The last caller has a slot when at most two have called. -/
theorem occupies_iff (inv : SlotInv monitor s) {proc : Proc} (listed : proc ∈ s.procs)
    (started : proc.started = true) : Occupies s proc ↔ s.callers.length ≤ 2 := by
  obtain ⟨earlier, hcallers⟩ := List.getLast?_eq_some_iff.mp (inv.latest proc listed started).2
  have hpositive : 0 < proc.pid := (inv.known proc.pid (by simp [hcallers])).1
  have hlength : s.callers.length = earlier.length + 1 := by simp [hcallers]
  have hlast : (monitor :: s.callers)[s.callers.length]? = some proc.pid := by
    simp [hcallers]
  constructor
  · rintro ⟨slot, hslot⟩
    rw [inv.holds slot, List.getD_eq_getElem?_getD] at hslot
    have hfound : (monitor :: s.callers)[(slot : Nat)]? = some proc.pid := by
      cases hget : (monitor :: s.callers)[(slot : Nat)]? with
      | none =>
          rw [hget, Option.getD_none] at hslot
          omega
      | some pid =>
          rw [hget, Option.getD_some] at hslot
          rw [hslot]
    have hinside : (slot : Nat) < (monitor :: s.callers).length :=
      (List.getElem?_eq_some_iff.mp hfound).1
    have hindex : (slot : Nat) = s.callers.length :=
      (List.getElem?_inj hinside inv.distinct).mp (hfound.trans hlast.symm)
    have := slot.isLt
    omega
  · intro hfew
    refine ⟨⟨s.callers.length, by omega⟩, ?_⟩
    rw [inv.holds, List.getD_eq_getElem?_getD]
    change ((monitor :: s.callers)[s.callers.length]?).getD 0 = _
    rw [hlast, Option.getD_some]

end SlotInv

variable {build : Build} {monitor : Nat} {s : Supervisor}

/-- A running processing child that has called `dynamic_conf_agency_start` has a
slot exactly when it is the first or the second child to call it. -/
theorem occupies_iff_length_callers_le
    (reached : (supervisorMachine build monitor true).ReachableWhen FreshPids s) {proc : Proc}
    (active : IsActive s proc) : Occupies s proc ↔ s.callers.length ≤ 2 := by
  have inv : LoopInv s ∧ SlotInv monitor s := by
    refine Machine.ReachableWhen.invariant (fun s => LoopInv s ∧ SlotInv monitor s) ?_ ?_ reached
    · rintro _ rfl
      exact ⟨.initial monitor true, .initial monitor⟩
    · rintro s act target ⟨loop, inv⟩ fresh step
      have heffect := effect_of_step step
      exact ⟨loop.step heffect, inv.step loop fresh heffect⟩
  exact inv.2.occupies_iff active.listed active.started

/-- One restart of the processing child. -/
def restartedOnce : List SupAct :=
  [.create 2, .createControl 3, .agencyStart 2, .exit 2 false, .wait 2, .check, .create 4,
    .agencyStart 4]

theorem occupies_iff_length_callers_le_restartedOnce :
    ∃ s proc, (supervisorMachine (fun _ => true) 1 true).ReachableWhen FreshPids s ∧
      IsActive s proc ∧ s.callers = [2, 4] ∧ (Occupies s proc ↔ s.callers.length ≤ 2) := by
  have reached : (supervisorMachine (fun _ => true) 1 true).ReachableWhen FreshPids
      (((supervisorMachine (fun _ => true) 1 true).restrict FreshPids).after restartedOnce
        (.initial 1 true)) :=
    Machine.reachableWhen_after rfl (by decide +kernel)
  have active : IsActive (((supervisorMachine (fun _ => true) 1 true).restrict FreshPids).after
      restartedOnce (.initial 1 true)) ⟨4, .processing, true, true, none⟩ :=
    ⟨by decide +kernel, rfl, rfl, rfl⟩
  exact ⟨_, _, reached, active, by decide +kernel, occupies_iff_length_callers_le reached active⟩

/-- Two restarts of the processing child. -/
def restartedTwice : List SupAct :=
  restartedOnce ++ [.createControl 0, .exit 4 false, .wait 4, .check, .create 5, .agencyStart 5]

/-- The third child runs without a slot. -/
theorem not_occupies_restartedTwice :
    ∃ s proc, (supervisorMachine (fun _ => true) 1 true).ReachableWhen FreshPids s ∧
      IsActive s proc ∧ ¬ Occupies s proc := by
  refine ⟨((supervisorMachine (fun _ => true) 1 true).restrict FreshPids).after restartedTwice
    (.initial 1 true), ⟨5, .processing, true, true, none⟩,
    Machine.reachableWhen_after rfl (by decide +kernel),
    ⟨by decide +kernel, rfl, rfl, rfl⟩, ?_⟩
  unfold Occupies
  decide +kernel

end MmtProbe.DynamicConf
