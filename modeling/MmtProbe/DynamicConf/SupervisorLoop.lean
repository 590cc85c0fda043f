/-
# The monitor loop keeps track of its children

`children_pids` agrees with the processes that were forked and not yet waited
for, and the loop is left only when all counted children have exited normally.
These hold in every run.  That `waitpid` always finds a child fails in one
situation: dynamic configuration was switched off by an update command and the
control child, which is still counted, is not created again.
-/

import Mathlib.Data.List.Nodup
import MmtProbe.DynamicConf.Supervisor

namespace MmtProbe.DynamicConf

open MmtProbe.Math

namespace Supervisor

/-- The processes of a kind. -/
def alive (s : Supervisor) (kind : Kind) : List Proc := s.procs.filter fun proc => proc.kind == kind

/-- A child of the processing kind is counted in any case, one of the control kind
when two children are. -/
theorem allStopped_iff {s : Supervisor}
    (two : s.nbChildrenProcesses = 2 ∨ s.nbChildrenProcesses = 1) :
    s.allStopped = true ↔
      ∀ kind : Kind, kind.index < s.nbChildrenProcesses → s.childrenPids kind = pidNeedToStop := by
  simp only [allStopped, Bool.and_eq_true, Bool.or_eq_true, beq_iff_eq]
  constructor
  · rintro ⟨hprocessing, hcontrol⟩ kind hindex
    cases kind with
    | processing => exact hprocessing
    | control =>
        simp only [Kind.index] at hindex
        exact hcontrol.resolve_left (by omega)
  · intro hall
    refine ⟨hall .processing (by simp only [Kind.index]; omega), ?_⟩
    rcases two with htwo | hone
    · exact .inr (hall .control (by simp only [Kind.index]; omega))
    · exact .inl hone

/-- The latest event of a kind of child. -/
def lastEvent (s : Supervisor) (kind : Kind) : Option Event :=
  (s.events.find? fun event => event.1 == kind).map Prod.snd

end Supervisor

/-- What the loop of the monitor keeps. -/
structure Supervised (s : Supervisor) : Prop where
  /-- An entry is positive exactly when a child of that kind was forked and not
  yet waited for. -/
  forked : ∀ kind, 0 < s.childrenPids kind ↔ ∃ proc ∈ s.procs, proc.kind = kind
  /-- There is at most one such child of a kind. -/
  single : ∀ kind, (s.alive kind).length ≤ 1
  /-- `waitpid` never fails. -/
  waits : s.pc ≠ .aborted
  /-- The loop is left when the counted children were waited for, had exited
  normally, and were not asked to start since. -/
  leaves : s.pc = .left → ∀ kind, kind.index < s.nbChildrenProcesses →
    s.lastEvent kind = some (.reaped true)

/-- Step 2 is not reached with dynamic configuration switched off and a counted
control child that would have to be created. -/
def ControlKept (s : Supervisor) : SupAct → Prop
  | .createControl _ =>
      ¬ (s.enable = false ∧ s.nbChildrenProcesses = 2 ∧ s.childrenPids .control = pidNeedToCreate)
  | _ => True

instance : ∀ (s : Supervisor) (act : SupAct), Decidable (ControlKept s act)
  | s, .createControl _ => inferInstanceAs (Decidable (¬ (s.enable = false ∧
      s.nbChildrenProcesses = 2 ∧ s.childrenPids .control = pidNeedToCreate)))
  | _, .create _ | _, .wait _ | _, .check | _, .receive | _, .reply | _, .exit _ _
  | _, .agencyStart _ | _, .command _ _ => .isTrue trivial

/-- An entry agrees with the processes of its kind. -/
def EntryInv (s : Supervisor) (kind : Kind) : Prop :=
  (∃ proc, s.alive kind = [proc] ∧ s.childrenPids kind = proc.pid) ∨
    (s.alive kind = [] ∧
      (s.childrenPids kind = pidNeedToCreate ∨ s.childrenPids kind = pidNeedToStop))

/-- What holds of the variables of the loop in every run. -/
structure LoopInv (s : Supervisor) : Prop where
  entry : ∀ kind, EntryInv s kind
  distinct : (s.procs.map Proc.pid).Nodup
  positive : ∀ proc ∈ s.procs, 0 < proc.pid
  /-- Without dynamic configuration there is no control child and no callback. -/
  counted : s.nbChildrenProcesses = 2 ∨ (s.nbChildrenProcesses = 1 ∧ s.enable = false ∧
    s.childrenPids .control = pidNeedToCreate ∧ s.pc ≠ .receive)
  stopped : s.pc = .left ↔ s.allStopped = true
  /-- Step 1 has created the processing child. -/
  created : s.pc = .createControl ∨ s.pc = .wait → s.childrenPids .processing ≠ pidNeedToCreate
  last : ∀ kind, s.childrenPids kind = pidNeedToStop → s.lastEvent kind = some (.reaped true)

namespace LoopInv

variable {s : Supervisor} {monitor pid : Nat}

theorem initial (monitor : Nat) (enabled : Bool) : LoopInv (.initial monitor enabled) where
  entry kind := .inr ⟨rfl, .inl rfl⟩
  distinct := List.nodup_nil
  positive proc h := by cases h
  counted := by
    cases enabled with
    | false => exact .inr ⟨rfl, rfl, rfl, nofun⟩
    | true => exact .inl rfl
  stopped := by
    constructor
    · intro h
      cases h
    · intro h
      simp [Supervisor.allStopped, Supervisor.initial, pidNeedToCreate, pidNeedToStop] at h
  created h := by
    rcases h with h | h <;> cases h
  last kind h := by cases h

/-- Processes of a kind are there exactly when the entry of the kind is positive. -/
theorem pos_iff (inv : LoopInv s) (kind : Kind) :
    0 < s.childrenPids kind ↔ ∃ proc ∈ s.procs, proc.kind = kind := by
  have hmem : ∀ proc, proc ∈ s.alive kind ↔ proc ∈ s.procs ∧ proc.kind = kind := fun proc => by
    simp [Supervisor.alive]
  rcases inv.entry kind with ⟨proc, halive, hpid⟩ | ⟨halive, hpid⟩
  · have hproc := (hmem proc).mp (by rw [halive]; exact List.mem_singleton.mpr rfl)
    have hpositive := inv.positive proc hproc.1
    exact ⟨fun _ => ⟨proc, hproc⟩, fun _ => by omega⟩
  · constructor
    · intro hpositive
      simp only [pidNeedToCreate, pidNeedToStop] at hpid
      omega
    · rintro ⟨proc, hproc⟩
      have := (hmem proc).mpr hproc
      rw [halive] at this
      cases this

theorem length_alive_le (inv : LoopInv s) (kind : Kind) : (s.alive kind).length ≤ 1 := by
  rcases inv.entry kind with ⟨proc, halive, -⟩ | ⟨halive, -⟩
  · rw [halive, List.length_singleton]
  · rw [halive]
    exact Nat.zero_le _

theorem two (inv : LoopInv s) : s.nbChildrenProcesses = 2 ∨ s.nbChildrenProcesses = 1 :=
  inv.counted.imp_right fun h => h.1

/-- With dynamic configuration, both children are counted. -/
theorem two_of_enable (inv : LoopInv s) (enable : s.enable = true) : s.nbChildrenProcesses = 2 := by
  apply inv.counted.resolve_right
  intro hone
  rw [hone.2.1] at enable
  cases enable

theorem leaves (inv : LoopInv s) (left : s.pc = .left) (kind : Kind)
    (counted : kind.index < s.nbChildrenProcesses) :
    s.lastEvent kind = some (.reaped true) :=
  inv.last kind ((Supervisor.allStopped_iff inv.two).mp (inv.stopped.mp left) kind counted)

/-- An entry that asks for a child belongs to a kind without processes. -/
theorem alive_of_need (inv : LoopInv s) {kind : Kind}
    (need : s.childrenPids kind = pidNeedToCreate) : s.alive kind = [] := by
  rcases inv.entry kind with ⟨proc, halive, hpid⟩ | ⟨halive, -⟩
  · have hproc : proc ∈ s.alive kind := by rw [halive]; exact List.mem_singleton.mpr rfl
    have hpositive := inv.positive proc (List.mem_filter.mp hproc).1
    simp only [pidNeedToCreate] at need
    omega
  · exact halive

/-- Creating a child that is needed. -/
theorem fork (inv : LoopInv s) {kind : Kind} {pc : Pc}
    (need : s.childrenPids kind = pidNeedToCreate) (available : s.Available monitor pid)
    (kinds : kind = .control → s.nbChildrenProcesses = 2)
    (place : (pc = .createControl ∧ kind = .processing) ∨
      (pc = .wait ∧ s.childrenPids .processing ≠ pidNeedToCreate)) :
    LoopInv { s.fork kind pid with pc := pc } := by
  obtain ⟨hpid, -, hother⟩ := available
  have hnatural : (pid : Int) ≠ pidNeedToCreate ∧ (pid : Int) ≠ pidNeedToStop := by
    simp only [pidNeedToCreate, pidNeedToStop]
    omega
  exact {
    entry := fun kind' => by
      by_cases hkind : kind' = kind
      · subst hkind
        refine .inl ⟨⟨pid, kind', s.enable, false, none⟩, ?_, by simp [Supervisor.fork]⟩
        have hnone := inv.alive_of_need need
        simp only [Supervisor.alive, Supervisor.fork] at hnone ⊢
        rw [List.filter_cons_of_pos (by simp), hnone]
      · have halive : Supervisor.alive { s.fork kind pid with pc := pc } kind' = s.alive kind' := by
          simp only [Supervisor.alive, Supervisor.fork]
          rw [List.filter_cons_of_neg (by simpa using fun h => hkind h.symm)]
        have hentry : (s.fork kind pid).childrenPids kind' = s.childrenPids kind' :=
          Function.update_of_ne hkind _ _
        simpa only [EntryInv, halive, hentry] using inv.entry kind'
    distinct := by
      simp only [Supervisor.fork, List.map_cons, List.nodup_cons, List.mem_map, not_exists, not_and]
      exact ⟨fun proc hproc => hother proc hproc, inv.distinct⟩
    positive := fun proc hproc => by
      rcases List.mem_cons.mp hproc with rfl | hproc
      · exact hpid
      · exact inv.positive proc hproc
    counted := by
      apply inv.counted.imp_right
      rintro ⟨hnb, henable, hcontrol, -⟩
      refine ⟨hnb, henable, ?_, ?_⟩
      · have hkind : Kind.control ≠ kind := by
          rintro rfl
          have := kinds rfl
          omega
        simpa only [Supervisor.fork, Function.update_of_ne hkind] using hcontrol
      · rcases place with ⟨rfl, -⟩ | ⟨rfl, -⟩ <;> nofun
    stopped := by
      constructor
      · intro hleft
        rcases place with ⟨rfl, -⟩ | ⟨rfl, -⟩ <;> cases hleft
      · intro hstopped
        have hindex : kind.index < s.nbChildrenProcesses := by
          have htwo := inv.two
          cases kind with
          | processing => simp only [Kind.index]; omega
          | control => simp only [Kind.index, kinds rfl]; omega
        have htwo : (s.fork kind pid).nbChildrenProcesses = 2 ∨
            (s.fork kind pid).nbChildrenProcesses = 1 := inv.two
        have hentry := (Supervisor.allStopped_iff (s := { s.fork kind pid with pc := pc })
          htwo).mp hstopped kind hindex
        simp only [Supervisor.fork, Function.update_self] at hentry
        exact absurd hentry hnatural.2
    created := fun _ => by
      rcases place with ⟨-, rfl⟩ | ⟨-, hprocessing⟩
      · simpa only [Supervisor.fork, Function.update_self] using hnatural.1
      · simp only [Supervisor.fork, Function.update_apply]
        split_ifs
        · exact hnatural.1
        · exact hprocessing
    last := fun kind' hstop => by
      simp only [Supervisor.fork, Function.update_apply] at hstop
      split_ifs at hstop with hkind
      · exact absurd hstop hnatural.2
      · have hne : kind ≠ kind' := fun h => hkind h.symm
        simpa [Supervisor.lastEvent, Supervisor.fork, hne] using inv.last kind' hstop }

/-- Going to another place inside the loop. -/
theorem move (inv : LoopInv s) {pc : Pc} (inside : s.pc ≠ .left) (notLeft : pc ≠ .left)
    (callback : pc = .receive → s.nbChildrenProcesses = 2)
    (place : pc = .createControl ∨ pc = .wait → s.childrenPids .processing ≠ pidNeedToCreate) :
    LoopInv { s with pc := pc } :=
  { inv with
    counted := by
      rcases inv.counted with htwo | ⟨hone, henable, hcontrol, -⟩
      · exact .inl htwo
      · refine .inr ⟨hone, henable, hcontrol, fun hreceive => ?_⟩
        have := callback hreceive
        omega
    stopped := by
      constructor
      · intro hleft
        exact absurd hleft notLeft
      · intro hstopped
        exact absurd (inv.stopped.mpr hstopped) inside
    created := place }

/-- Changing a process without changing its number or kind. -/
theorem modify (inv : LoopInv s) {change : Proc → Proc}
    (same : ∀ proc, (change proc).pid = proc.pid ∧ (change proc).kind = proc.kind) :
    LoopInv (s.modify pid change) := by
  have hsame : ∀ proc : Proc, (if proc.pid = pid then change proc else proc).pid = proc.pid ∧
      (if proc.pid = pid then change proc else proc).kind = proc.kind := by
    intro proc
    split_ifs
    · exact same proc
    · exact ⟨rfl, rfl⟩
  exact { inv with
    entry := fun kind => by
      have halive : (s.modify pid change).alive kind
          = (s.alive kind).map fun proc => if proc.pid = pid then change proc else proc := by
        simp only [Supervisor.alive, Supervisor.modify, List.filter_map]
        congr 1
        apply List.filter_congr
        intro proc _
        simp only [Function.comp_apply, (hsame proc).2]
      rcases inv.entry kind with ⟨proc, hproc, hpid⟩ | ⟨hnone, hentry⟩
      · refine .inl ⟨_, by rw [halive, hproc]; rfl, ?_⟩
        rw [(hsame proc).1]
        exact hpid
      · exact .inr ⟨by rw [halive, hnone]; rfl, hentry⟩
    distinct := by
      simp only [Supervisor.modify, List.map_map]
      have hpids : (Proc.pid ∘ fun proc => if proc.pid = pid then change proc else proc)
          = Proc.pid := by
        funext proc
        exact (hsame proc).1
      rw [hpids]
      exact inv.distinct
    positive := fun proc hproc => by
      obtain ⟨old, hold, rfl⟩ := List.mem_map.mp hproc
      rw [(hsame old).1]
      exact inv.positive old hold }

variable {proc : Proc}

/-- The entry of a process holds its number. -/
theorem entry_of_mem (inv : LoopInv s) (listed : proc ∈ s.procs) :
    s.alive proc.kind = [proc] ∧ s.childrenPids proc.kind = proc.pid := by
  have hmem : proc ∈ s.alive proc.kind := by simp [Supervisor.alive, listed]
  rcases inv.entry proc.kind with ⟨other, halive, hpid⟩ | ⟨hnone, -⟩
  · rw [halive, List.mem_singleton] at hmem
    rw [hmem]
    exact ⟨hmem ▸ halive, hmem ▸ hpid⟩
  · rw [hnone] at hmem
    cases hmem

/-- No entry of another kind holds the number of a process. -/
theorem entry_ne_of_ne (inv : LoopInv s) (listed : proc ∈ s.procs) {kind : Kind}
    (other : kind ≠ proc.kind) : s.childrenPids kind ≠ proc.pid := by
  have hpositive := inv.positive proc listed
  rcases inv.entry kind with ⟨owner, halive, hpid⟩ | ⟨-, hentry⟩
  · have howner : owner ∈ s.procs ∧ owner.kind = kind := by
      have : owner ∈ s.alive kind := by rw [halive]; exact List.mem_singleton.mpr rfl
      simpa [Supervisor.alive] using this
    intro hsame
    have : owner = proc := List.inj_on_of_nodup_map inv.distinct howner.1 listed (by omega)
    rw [← howner.2, this] at other
    exact other rfl
  · simp only [pidNeedToCreate, pidNeedToStop] at hentry
    omega

/-- The loop over the entries finds the one of the process. -/
theorem updated_eq (inv : LoopInv s) (listed : proc ∈ s.procs) (status : Int) :
    s.updated proc.pid status = Function.update s.childrenPids proc.kind status := by
  obtain ⟨-, hpid⟩ := inv.entry_of_mem listed
  have hpositive := inv.positive proc listed
  unfold Supervisor.updated
  cases hkind : proc.kind with
  | processing =>
      rw [hkind] at hpid
      rw [if_pos hpid]
  | control =>
      rw [hkind] at hpid
      have htwo : s.nbChildrenProcesses = 2 := by
        apply inv.counted.resolve_right
        intro hone
        have hnone := hone.2.2.1
        simp only [pidNeedToCreate] at hnone
        omega
      rw [if_neg (inv.entry_ne_of_ne listed (by rw [hkind]; decide)), if_pos ⟨by omega, hpid⟩]

/-- Waiting for a child that has terminated. -/
theorem reap (inv : LoopInv s) (listed : proc ∈ s.procs) : LoopInv (s.reap proc) := by
  obtain ⟨halive, -⟩ := inv.entry_of_mem listed
  have hupdated := inv.updated_eq listed
  have hchildren : (s.reap proc).childrenPids = Function.update s.childrenPids proc.kind
      (if proc.exited = some true then pidNeedToStop else pidNeedToCreate) := hupdated _
  have haliveReap : ∀ kind, (s.reap proc).alive kind
      = (s.alive kind).filter fun other => other.pid != proc.pid := by
    intro kind
    simp only [Supervisor.alive, Supervisor.reap, List.filter_filter]
    apply List.filter_congr
    intro other _
    exact Bool.and_comm _ _
  have hpc : (s.reap proc).pc = if (s.reap proc).allStopped then .left else .check := rfl
  exact {
    entry := fun kind => by
      rw [EntryInv, haliveReap, hchildren]
      by_cases hkind : kind = proc.kind
      · subst hkind
        refine .inr ⟨by simp [halive], ?_⟩
        rw [Function.update_self]
        split_ifs
        · exact .inr rfl
        · exact .inl rfl
      · have hkept : ((s.alive kind).filter fun other => other.pid != proc.pid)
            = s.alive kind := by
          rw [List.filter_eq_self]
          intro other hmem
          simp only [Supervisor.alive, List.mem_filter, beq_iff_eq] at hmem
          rw [bne_iff_ne]
          intro hsame
          have : other = proc := List.inj_on_of_nodup_map inv.distinct hmem.1 listed hsame
          exact hkind (this ▸ hmem.2.symm)
        rw [hkept, Function.update_of_ne hkind]
        exact inv.entry kind
    distinct := inv.distinct.sublist (List.filter_sublist.map _)
    positive := fun other hmem => inv.positive other (List.mem_filter.mp hmem).1
    counted := by
      rcases inv.counted with htwo | ⟨hone, henable, hcontrol, -⟩
      · exact .inl htwo
      · refine .inr ⟨hone, henable, ?_, by rw [hpc]; split_ifs <;> nofun⟩
        rw [hchildren, Function.update_of_ne]
        · exact hcontrol
        · intro hkind
          have hpid := (inv.entry_of_mem listed).2
          have hpositive := inv.positive proc listed
          rw [← hkind, hcontrol] at hpid
          simp only [pidNeedToCreate] at hpid
          omega
    stopped := by
      rw [hpc]
      split_ifs with hstopped
      · simp [hstopped]
      · simp [hstopped]
    created := by
      rw [hpc]
      split_ifs <;> nofun
    last := fun kind hstop => by
      rw [hchildren] at hstop
      by_cases hkind : kind = proc.kind
      · subst hkind
        rw [Function.update_self] at hstop
        split_ifs at hstop with hexited
        · simp [Supervisor.lastEvent, Supervisor.reap, hexited]
        · cases hstop
      · rw [Function.update_of_ne hkind] at hstop
        have hne : proc.kind ≠ kind := fun h => hkind h.symm
        simpa [Supervisor.lastEvent, Supervisor.reap, hne] using inv.last kind hstop }

/-- The callback of the monitor. -/
theorem received (inv : LoopInv s) (place : s.pc = .receive) {answer : Received}
    (kept : answer.pid = s.childrenPids .processing ∨
      (answer.pid = 0 ∧ s.childrenPids .processing ≤ 0))
    (told : answer.signal = some .sigres → 0 < s.childrenPids .processing) :
    LoopInv (s.received answer) := by
  -- an entry that is -1 afterwards was not touched
  have hstop : ∀ kind, (s.received answer).childrenPids kind = pidNeedToStop →
      s.childrenPids kind = pidNeedToStop ∧ (kind = .processing →
        (s.received answer).events = s.events) := by
    intro kind hentry
    cases kind with
    | processing =>
        simp only [Supervisor.received, Function.update_self] at hentry
        have hsame : answer.pid = s.childrenPids .processing := by
          apply kept.resolve_right
          intro hzero
          rw [hzero.1] at hentry
          cases hentry
        refine ⟨hsame ▸ hentry, fun _ => if_neg ?_⟩
        rintro (hsignal | hne)
        · have hpositive := told hsignal
          rw [← hsame, hentry] at hpositive
          simp only [pidNeedToStop] at hpositive
          omega
        · exact hne hsame
    | control => exact ⟨by simpa [Supervisor.received] using hentry, nofun⟩
  exact {
    entry := fun kind => by
      cases kind with
      | processing =>
          simp only [EntryInv, Supervisor.received, Function.update_self]
          rcases inv.entry .processing with ⟨proc, halive, hpid⟩ | ⟨halive, hentry⟩
          · refine .inl ⟨proc, halive, ?_⟩
            rcases kept with hsame | ⟨-, hle⟩
            · exact hsame.trans hpid
            · have hlisted : proc ∈ s.alive .processing := by
                rw [halive]
                exact List.mem_singleton.mpr rfl
              have hpositive := inv.positive proc (List.mem_filter.mp hlisted).1
              omega
          · refine .inr ⟨halive, ?_⟩
            rcases kept with hsame | ⟨hzero, -⟩
            · rw [hsame]
              exact hentry
            · exact .inl hzero
      | control => simpa [EntryInv, Supervisor.received, Supervisor.alive] using inv.entry .control
    distinct := inv.distinct
    positive := inv.positive
    counted := .inl (inv.counted.resolve_right fun hone => hone.2.2.2 place)
    stopped := by
      constructor
      · intro hleft
        cases hleft
      · intro hstopped
        have htwo : (s.received answer).nbChildrenProcesses = 2 ∨
            (s.received answer).nbChildrenProcesses = 1 := inv.two
        have hleft := inv.stopped.mpr ((Supervisor.allStopped_iff inv.two).mpr fun kind hindex =>
          (hstop kind ((Supervisor.allStopped_iff htwo).mp hstopped kind hindex)).1)
        rw [place] at hleft
        cases hleft
    created := by
      rintro (hplace | hplace) <;> cases hplace
    last := fun kind hentry => by
      obtain ⟨hold, hevents⟩ := hstop kind hentry
      have hlast := inv.last kind hold
      cases kind with
      | processing => simpa only [Supervisor.lastEvent, hevents rfl] using hlast
      | control =>
          simp only [Supervisor.lastEvent, Supervisor.received] at hlast ⊢
          split_ifs
          · simpa using hlast
          · exact hlast }

variable {build : Build} {target : Supervisor} {act : SupAct}

/-- Every step keeps the variables of the loop consistent. -/
theorem step (inv : LoopInv s) (effect : Effect build monitor s act target) : LoopInv target := by
  cases effect with
  | create place need available => exact inv.fork need available nofun (.inl ⟨rfl, rfl⟩)
  | keep place kept => exact inv.move (by rw [place]; nofun) nofun nofun fun _ => kept
  | createControl place enable need available =>
      exact inv.fork need available (fun _ => inv.two_of_enable enable)
        (.inr ⟨rfl, inv.created (.inl place)⟩)
  | keepControl place kept =>
      exact inv.move (by rw [place]; nofun) nofun nofun fun _ => inv.created (.inl place)
  | abort place nobody => exact inv.move (by rw [place]; nofun) nofun nofun (by simp)
  | goOn place => exact inv.move (by rw [place]; nofun) nofun nofun (by simp)
  | reap place listed => exact inv.reap listed
  | @check bus place enable begun =>
      have hmoved : LoopInv { s with
          pc := if (bus.inCallback monitor).isSome then .receive else .create } := by
        split_ifs
        · exact inv.move (by rw [place]; nofun) nofun (fun _ => inv.two_of_enable enable) (by simp)
        · exact inv.move (by rw [place]; nofun) nofun nofun (by simp)
      exact { hmoved with }
  | skip place disabled => exact inv.move (by rw [place]; nofun) nofun nofun (by simp)
  | receive place called handled =>
      obtain ⟨hkept, htold⟩ := receiveMessage_eq_ok handled
      exact inv.received place hkept htold
  | reply place ended =>
      have hmoved : LoopInv { s with pc := .create } :=
        inv.move (by rw [place]; nofun) nofun nofun (by simp)
      exact { hmoved with }
  | exit => exact inv.modify fun _ => ⟨rfl, rfl⟩
  | @agencyStart proc bus listed processing running enable first called =>
      have hmodified : LoopInv (s.modify proc.pid fun proc => { proc with
          started := true
          exited := if bus.locked then some true else none }) :=
        inv.modify fun _ => ⟨rfl, rfl⟩
      exact { hmodified with }
  | publish listed control server called => exact { inv with }
  | refuse => exact inv

end LoopInv

variable {build : Build} {monitor : Nat} {enabled : Bool} {s target : Supervisor} {act : SupAct}

theorem loopInv_of_reachable
    (reached : (supervisorMachine build monitor enabled).Reachable s) : LoopInv s := by
  refine Machine.Reachable.invariant LoopInv ?_ ?_ reached
  · rintro _ rfl
    exact .initial monitor enabled
  · intro s act target inv step
    exact inv.step (effect_of_step step)

/-- Without any condition, the entries agree with the children, and the loop is left
only when the counted children have exited normally. -/
theorem accounted_of_reachable
    (reached : (supervisorMachine build monitor enabled).Reachable s) :
    (∀ kind, 0 < s.childrenPids kind ↔ ∃ proc ∈ s.procs, proc.kind = kind) ∧
      (∀ kind, (s.alive kind).length ≤ 1) ∧
      (s.pc = .left → ∀ kind, kind.index < s.nbChildrenProcesses →
        s.lastEvent kind = some (.reaped true)) := by
  have inv := loopInv_of_reachable reached
  exact ⟨inv.pos_iff, inv.length_alive_le, inv.leaves⟩

/-! ## Waiting for children -/

/-- In front of `waitpid`, a counted control child was created. -/
structure WaitInv (s : Supervisor) : Prop where
  counted : s.pc = .wait → s.nbChildrenProcesses = 2 → s.childrenPids .control ≠ pidNeedToCreate
  waits : s.pc ≠ .aborted

namespace WaitInv

/-- The loop was not left and all children were created, so there is one to wait for. -/
theorem exists_proc (wait : WaitInv s) (inv : LoopInv s) (place : s.pc = .wait) :
    s.procs ≠ [] := by
  have hrunning : ∃ kind, s.childrenPids kind ≠ pidNeedToStop ∧
      s.childrenPids kind ≠ pidNeedToCreate := by
    by_contra hnone
    have hstopped : s.allStopped = true := by
      rw [Supervisor.allStopped_iff inv.two]
      intro kind hindex
      by_contra hentry
      refine hnone ⟨kind, hentry, ?_⟩
      cases kind with
      | processing => exact inv.created (.inr place)
      | control =>
          have htwo := inv.two
          simp only [Kind.index] at hindex
          exact wait.counted place (by omega)
    have hleft := inv.stopped.mpr hstopped
    rw [place] at hleft
    cases hleft
  obtain ⟨kind, hstop, hcreate⟩ := hrunning
  rcases inv.entry kind with ⟨proc, halive, -⟩ | ⟨-, hentry⟩
  · intro hnobody
    rw [Supervisor.alive, hnobody] at halive
    cases halive
  · exact absurd hentry (not_or.mpr ⟨hcreate, hstop⟩)

/-- A state whose place is neither in front of `waitpid` nor behind its failure. -/
theorem elsewhere (place : s.pc ≠ .wait) (fine : s.pc ≠ .aborted) : WaitInv s :=
  ⟨fun h => absurd h place, fine⟩

/-- The place and the entry of the control child decide. -/
theorem congr (wait : WaitInv s) (place : target.pc = s.pc)
    (entry : target.childrenPids .control = s.childrenPids .control)
    (number : target.nbChildrenProcesses = s.nbChildrenProcesses) : WaitInv target := by
  refine ⟨?_, ?_⟩
  · rw [place, entry, number]
    exact wait.counted
  · rw [place]
    exact wait.waits

theorem step (wait : WaitInv s) (inv : LoopInv s) (kept : ControlKept s act)
    (effect : Effect build monitor s act target) : WaitInv target := by
  cases effect with
  | create place need available => exact elsewhere nofun nofun
  | keep place kept => exact elsewhere nofun nofun
  | @createControl pid place enable need available =>
      refine ⟨fun _ _ => ?_, nofun⟩
      have hpositive := available.1
      simp only [Supervisor.fork, Function.update_self, pidNeedToCreate]
      omega
  | keepControl place hkept =>
      refine ⟨fun _ htwo hneed => ?_, nofun⟩
      cases henable : s.enable with
      | true => exact hkept ⟨henable, hneed⟩
      | false => exact kept ⟨henable, htwo, hneed⟩
  | abort place nobody => exact absurd nobody (wait.exists_proc inv place)
  | goOn place => exact elsewhere nofun nofun
  | @reap child proc place listed =>
      rcases s.reap_pc proc with hleft | hcheck
      · exact elsewhere (by rw [hleft]; nofun) (by rw [hleft]; nofun)
      · exact elsewhere (by rw [hcheck]; nofun) (by rw [hcheck]; nofun)
  | check place enable begun =>
      refine elsewhere ?_ ?_
      · dsimp only
        split_ifs <;> nofun
      · dsimp only
        split_ifs <;> nofun
  | skip place disabled => exact elsewhere nofun nofun
  | receive place called handled => exact elsewhere nofun nofun
  | reply place ended => exact elsewhere nofun nofun
  | exit => exact wait.congr rfl rfl rfl
  | agencyStart listed processing running enable first called => exact wait.congr rfl rfl rfl
  | publish listed control server called => exact wait.congr rfl rfl rfl
  | refuse => exact wait

end WaitInv

theorem waitInv_of_reachable
    (reached : (supervisorMachine build monitor enabled).ReachableWhen ControlKept s) :
    LoopInv s ∧ WaitInv s := by
  refine Machine.ReachableWhen.invariant (fun s => LoopInv s ∧ WaitInv s) ?_ ?_ reached
  · rintro _ rfl
    exact ⟨.initial monitor enabled, .elsewhere nofun nofun⟩
  · rintro s act target ⟨inv, wait⟩ kept step
    have heffect := effect_of_step step
    exact ⟨inv.step heffect, wait.step inv kept heffect⟩

/-- As long as step 2 is not reached with dynamic configuration switched off and a
control child to be created, the loop supervises its children. -/
theorem supervised_of_controlKept
    (reached : (supervisorMachine build monitor enabled).ReachableWhen ControlKept s) :
    Supervised s := by
  obtain ⟨inv, wait⟩ := waitInv_of_reachable reached
  exact ⟨inv.pos_iff, inv.length_alive_le, wait.waits, inv.leaves⟩

/-- A run in which the processing child crashes and is created again, a command
stops it, and both children exit normally. -/
def stoppedByCommand : List SupAct :=
  [.create 2, .createControl 3, .exit 2 false, .wait 2, .check, .create 4, .createControl 0,
    .command 3 (bytesOf "stop\x00"), .wait 0, .check, .receive, .reply, .exit 4 true, .create 0,
    .createControl 0, .wait 4, .check, .create 0, .createControl 0, .exit 3 true, .wait 3]

theorem supervised_of_controlKept_stoppedByCommand :
    ∃ s, (supervisorMachine (fun _ => true) 1 true).ReachableWhen ControlKept s ∧
      s.pc = .left ∧ Supervised s := by
  have reached : (supervisorMachine (fun _ => true) 1 true).ReachableWhen ControlKept
      (((supervisorMachine (fun _ => true) 1 true).restrict ControlKept).after stoppedByCommand
        (.initial 1 true)) :=
    Machine.reachableWhen_after rfl (by decide +kernel)
  exact ⟨_, reached, by decide +kernel, supervised_of_controlKept reached⟩

/-- A run in which dynamic configuration is switched off while the control child
runs. This child crashes, is not created again, and the processing child exits. -/
def controlLost : List SupAct :=
  [.create 2, .createControl 3,
    .command 3 (bytesOf "update\x7b\ndynamic-config.enable=false\n\x7d\x00"),
    .wait 0, .check, .receive, .reply, .exit 3 false, .create 0, .createControl 0, .wait 3,
    .check, .create 0, .createControl 0, .exit 2 true, .wait 2, .check, .create 0,
    .createControl 0, .wait 0]

/-- The monitor aborts because there is no child to wait for. -/
theorem not_supervised_controlLost :
    ∃ s, (supervisorMachine (fun _ => true) 1 true).Reachable s ∧ ¬ Supervised s := by
  refine ⟨(supervisorMachine (fun _ => true) 1 true).after controlLost (.initial 1 true),
    Machine.reachable_after rfl (by decide +kernel), fun hsupervised => ?_⟩
  exact hsupervised.waits (by decide +kernel)

end MmtProbe.DynamicConf
