/-
# Delivery on the message bus

The bus is meant to hand every message to every subscriber once.  A message is
however replaced as soon as one subscriber has replied, while another may still
be in its callback, or may not have looked at all.  Exactly-once delivery
therefore needs publishers that wait until the whole table has consumed the
message, and threads that do not subscribe twice; under these two conditions it
holds in every reachable state.
-/

import Mathlib.Data.List.Nodup
import MmtProbe.DynamicConf.Bus

namespace MmtProbe.DynamicConf

open MmtProbe.Math

/-- Exactly-once delivery, over the history of a state. -/
structure ExactlyOnce (s : BusState) : Prop where
  /-- No callback is started twice for one message. -/
  once : (s.invoked.map fun call => (call.thread, call.serial)).Nodup
  /-- A mark on a subscriber of the current message means that its callback has
  run on the bytes of that message. -/
  consumed : ∀ slot, s.addressed slot = true → (s.bus.subLst slot).isConsumed = true →
    ∃ bytes, s.accepted.getLast? = some bytes ∧
      ⟨(s.bus.subLst slot).pid, s.serial, bytes⟩ ∈ s.finished
  /-- Nobody was left out when a message was replaced. -/
  complete : s.missed = []

/-- A message is only accepted when every subscriber has consumed the one before,
and a thread that is in the table does not subscribe again. -/
def PatientBus (s : BusState) : BusAct → Prop
  | .publish _ message _ => (s.bus.publish message).isSome →
      ∀ slot, (s.bus.subLst slot).pid ≠ 0 → (s.bus.subLst slot).isConsumed = true
  | .subscribe thread _ => ∀ slot, (s.bus.subLst slot).pid ≠ thread
  | _ => True

/-- What holds of the table, of the threads and of the history along patient
runs. -/
structure DeliveryInv (s : BusState) : Prop where
  /-- A thread has at most one slot. -/
  distinct : ∀ i j, (s.bus.subLst i).pid ≠ 0 → (s.bus.subLst i).pid = (s.bus.subLst j).pid → i = j
  since_le : ∀ i, s.since i ≤ s.accepted.length
  current : ∀ bytes, s.accepted.getLast? = some bytes → bytes = s.bus.message
  /-- A thread inside its callback works on the current message. -/
  calling : ∀ thread call, s.inCallback thread = some call →
    (s.bus.subLst call.slot).pid = thread ∧ thread ≠ 0 ∧
      (s.bus.subLst call.slot).isConsumed = false ∧
      call.serial = s.serial ∧ call.msg = s.bus.message ∧
      ⟨thread, s.serial, s.bus.message⟩ ∈ s.invoked
  /-- Whoever has not consumed the current message was there before it. -/
  unconsumed : ∀ i, (s.bus.subLst i).pid ≠ 0 → (s.bus.subLst i).isConsumed = false →
    s.since i < s.accepted.length
  /-- Whoever has not consumed the current message and is not in its callback has
  not been called. -/
  uncalled : ∀ i, (s.bus.subLst i).pid ≠ 0 → (s.bus.subLst i).isConsumed = false →
    s.inCallback (s.bus.subLst i).pid = none →
    ∀ call ∈ s.invoked, call.thread = (s.bus.subLst i).pid → call.serial ≠ s.serial
  /-- Whoever has consumed the current message has run on it. -/
  consumed : ∀ i, (s.bus.subLst i).pid ≠ 0 → (s.bus.subLst i).isConsumed = true →
    s.since i < s.accepted.length →
    ⟨(s.bus.subLst i).pid, s.serial, s.bus.message⟩ ∈ s.finished
  numbered : ∀ call ∈ s.invoked, call.serial < s.accepted.length
  finished_invoked : ∀ call ∈ s.finished, call ∈ s.invoked
  once : (s.invoked.map fun call => (call.thread, call.serial)).Nodup
  complete : s.missed = []

namespace DeliveryInv

variable {s : BusState}

theorem fresh : DeliveryInv .fresh where
  distinct i j hpid := absurd rfl hpid
  since_le _ := Nat.le_refl 0
  current bytes h := by cases h
  calling thread call h := by cases h
  unconsumed i hpid := absurd rfl hpid
  uncalled i hpid := absurd rfl hpid
  consumed i hpid := absurd rfl hpid
  numbered call h := by cases h
  finished_invoked call h := by cases h
  once := List.nodup_nil
  complete := rfl

theorem exactlyOnce (inv : DeliveryInv s) : ExactlyOnce s where
  once := inv.once
  consumed slot haddressed hconsumed := by
    simp only [BusState.addressed, Bool.and_eq_true, bne_iff_ne, decide_eq_true_eq] at haddressed
    have hfilled : s.accepted ≠ [] := by
      intro hempty
      rw [hempty] at haddressed
      exact absurd haddressed.2 (Nat.not_lt_zero _)
    refine ⟨s.bus.message, ?_, inv.consumed slot haddressed.1 hconsumed haddressed.2⟩
    obtain ⟨bytes, hbytes⟩ := Option.isSome_iff_exists.mp (List.getLast?_isSome.mpr hfilled)
    rw [hbytes, inv.current bytes hbytes]
  complete := inv.complete

/-- Once all have consumed the current message, nobody is left out. -/
theorem notInvoked_eq_nil (inv : DeliveryInv s)
    (settled : ∀ slot, (s.bus.subLst slot).pid ≠ 0 → (s.bus.subLst slot).isConsumed = true) :
    s.notInvoked = [] := by
  rw [BusState.notInvoked, List.map_eq_nil_iff, List.filter_eq_nil_iff]
  intro slot _ hslot
  simp only [Bool.and_eq_true, BusState.addressed, bne_iff_ne, decide_eq_true_eq,
    Bool.not_eq_true', List.any_eq_false, beq_iff_eq, not_and] at hslot
  obtain ⟨⟨hpid, hsince⟩, hnone⟩ := hslot
  have hran := inv.consumed slot hpid (settled slot hpid) hsince
  exact hnone _ (inv.finished_invoked _ hran) rfl rfl

theorem accept (inv : DeliveryInv s) {publisher : Nat} {message : List UInt8} {wait : Bool}
    {bus : Bus} (stored : s.bus.publish message = some bus)
    (settled : ∀ slot, (s.bus.subLst slot).pid ≠ 0 → (s.bus.subLst slot).isConsumed = true) :
    DeliveryInv (s.accept publisher message wait bus) := by
  obtain ⟨-, rfl⟩ := Bus.publish_eq_some stored
  have hquiet : ∀ thread, s.inCallback thread = none := by
    intro thread
    cases hcall : s.inCallback thread with
    | none => rfl
    | some call =>
        obtain ⟨hpid, hthread, hflag, -⟩ := inv.calling thread call hcall
        have hsettled := settled call.slot (by rw [hpid]; exact hthread)
        rw [hflag] at hsettled
        cases hsettled
  exact {
    distinct := inv.distinct
    since_le := fun i => by
      have := inv.since_le i
      simp only [BusState.accept, List.length_append, List.length_singleton]
      omega
    current := fun bytes h => by
      simpa [BusState.accept, Bus.store] using h.symm
    calling := fun thread call h => by
      rw [BusState.accept, hquiet thread] at h
      cases h
    unconsumed := fun i _ _ => by
      have := inv.since_le i
      simp only [BusState.accept, List.length_append, List.length_singleton]
      omega
    uncalled := fun i _ _ _ call hcall _ => by
      have := inv.numbered call hcall
      rw [BusState.serial_accept]
      omega
    consumed := fun i _ h => by cases h
    numbered := fun call hcall => by
      have := inv.numbered call hcall
      simp only [BusState.accept, List.length_append, List.length_singleton]
      omega
    finished_invoked := inv.finished_invoked
    once := inv.once
    complete := by
      simp [BusState.accept, inv.complete, inv.notInvoked_eq_nil settled] }

theorem checkBegin (inv : DeliveryInv s) {thread : Nat} (hthread : thread ≠ 0)
    (idle : s.inCallback thread = none) : DeliveryInv (s.checkBegin thread) := by
  rcases s.checkBegin_cases thread with hsame | ⟨slot, hpid, hflag, htarget⟩
  · rw [hsame]
    exact inv
  rw [htarget]
  have hoccupied : (s.bus.subLst slot).pid ≠ 0 := by rw [hpid]; exact hthread
  have hfilled := inv.unconsumed slot hoccupied hflag
  have huncalled := inv.uncalled slot hoccupied hflag (by rw [hpid]; exact idle)
  exact { inv with
    calling := fun thread' call h => by
      simp only [BusState.start] at h ⊢
      by_cases hsame : thread' = thread
      · subst hsame
        rw [Function.update_self, Option.some.injEq] at h
        subst h
        exact ⟨hpid, hthread, hflag, rfl, rfl, List.mem_append_right _ (List.mem_singleton.mpr rfl)⟩
      · rw [Function.update_of_ne hsame] at h
        obtain ⟨h₁, h₂, h₃, h₄, h₅, h₆⟩ := inv.calling thread' call h
        exact ⟨h₁, h₂, h₃, h₄, h₅, List.mem_append_left _ h₆⟩
    uncalled := fun i hi hfalse hnone call hcall hcaller => by
      simp only [BusState.start] at hi hfalse hnone hcall hcaller
      have hother : (s.bus.subLst i).pid ≠ thread := by
        intro hsame
        rw [hsame, Function.update_self] at hnone
        cases hnone
      rw [Function.update_of_ne hother] at hnone
      rw [List.mem_append, List.mem_singleton] at hcall
      rcases hcall with hcall | rfl
      · exact inv.uncalled i hi hfalse hnone call hcall hcaller
      · exact absurd hcaller.symm hother
    numbered := fun call hcall => by
      simp only [BusState.start, List.mem_append, List.mem_singleton] at hcall ⊢
      rcases hcall with hcall | rfl
      · exact inv.numbered call hcall
      · simp only [BusState.serial]
        omega
    finished_invoked := fun call hcall => List.mem_append_left _ (inv.finished_invoked call hcall)
    once := by
      simp only [BusState.start, List.map_append]
      rw [List.nodup_append]
      refine ⟨inv.once, List.nodup_singleton _, ?_⟩
      intro key hkey other hother hsame
      obtain ⟨call, hcall, rfl⟩ := List.mem_map.mp hkey
      simp only [List.map_cons, List.map_nil, List.mem_singleton] at hother
      rw [hother, Prod.mk.injEq] at hsame
      exact huncalled call hcall (by rw [hpid]; exact hsame.1) hsame.2 }

theorem checkEnd (inv : DeliveryInv s) {thread : Nat} {call : InCallback} {ret : Int}
    (calls : s.inCallback thread = some call) : DeliveryInv (s.checkEnd thread call ret) := by
  obtain ⟨hpid, hthread, -, hserial, hmsg, hinvoked⟩ := inv.calling thread call calls
  have hoccupied : (s.bus.subLst call.slot).pid ≠ 0 := by rw [hpid]; exact hthread
  -- the mark changes one flag and leaves the threads in the table where they are
  have hpids : ∀ i, ((s.bus.reply call.slot ret).subLst i).pid = (s.bus.subLst i).pid := by
    intro i
    simp only [Bus.reply, Function.update_apply]
    split_ifs with hi
    · rw [hi]
    · rfl
  have hother : ∀ i, i ≠ call.slot →
      (s.bus.reply call.slot ret).subLst i = s.bus.subLst i := fun i hi =>
    Function.update_of_ne hi _ _
  have hunmarked : ∀ i, ((s.bus.reply call.slot ret).subLst i).isConsumed = false →
      i ≠ call.slot := by
    rintro i hfalse rfl
    simp [Bus.reply] at hfalse
  exact { inv with
    distinct := fun i j hi hsame => by
      simp only [BusState.checkEnd, hpids] at hi hsame
      exact inv.distinct i j hi hsame
    calling := fun thread' call' h => by
      simp only [BusState.checkEnd] at h ⊢
      have hne : thread' ≠ thread := by
        rintro rfl
        rw [Function.update_self] at h
        cases h
      rw [Function.update_of_ne hne] at h
      obtain ⟨h₁, h₂, h₃, h₄, h₅, h₆⟩ := inv.calling thread' call' h
      have hslot : call'.slot ≠ call.slot := by
        intro hsame
        rw [hsame, hpid] at h₁
        exact hne h₁.symm
      rw [hother _ hslot]
      exact ⟨h₁, h₂, h₃, h₄, h₅, h₆⟩
    unconsumed := fun i hi hfalse => by
      simp only [BusState.checkEnd] at hi hfalse ⊢
      rw [hother i (hunmarked i hfalse)] at hi hfalse
      exact inv.unconsumed i hi hfalse
    uncalled := fun i hi hfalse hnone => by
      simp only [BusState.checkEnd] at hi hfalse hnone ⊢
      have hslot := hunmarked i hfalse
      rw [hother i hslot] at hi hfalse hnone ⊢
      have hne : (s.bus.subLst i).pid ≠ thread := fun hsame =>
        hslot (inv.distinct i call.slot hi (hsame.trans hpid.symm))
      rw [Function.update_of_ne hne] at hnone
      exact inv.uncalled i hi hfalse hnone
    consumed := fun i hi htrue hsince => by
      simp only [BusState.checkEnd, hpids] at hi htrue hsince ⊢
      by_cases hslot : i = call.slot
      · rw [hslot, hpid, hserial, hmsg]
        exact List.mem_append_right _ (List.mem_singleton.mpr rfl)
      · rw [hother i hslot] at htrue
        exact List.mem_append_left _ (inv.consumed i hi htrue hsince)
    finished_invoked := fun call' hcall' => by
      simp only [BusState.checkEnd, List.mem_append, List.mem_singleton] at hcall' ⊢
      rcases hcall' with hcall' | rfl
      · exact inv.finished_invoked call' hcall'
      · rw [hserial, hmsg]
        exact hinvoked }

/-- The table after one of its slots was written: a thread in its callback keeps
its slot, and the other slots are as before. -/
theorem calling_of_update (inv : DeliveryInv s) {slot : Fin 3} {subscriber : Subscriber}
    (quiet : (s.bus.subLst slot).pid ≠ 0 → s.inCallback (s.bus.subLst slot).pid = none)
    {thread : Nat} {call : InCallback} (calls : s.inCallback thread = some call) :
    Function.update s.bus.subLst slot subscriber call.slot = s.bus.subLst call.slot := by
  obtain ⟨hpid, hthread, -⟩ := inv.calling thread call calls
  apply Function.update_of_ne
  intro hsame
  rw [hsame] at hpid
  have hnone := quiet (by rw [hpid]; exact hthread)
  rw [hpid, calls] at hnone
  cases hnone

theorem subscribe (inv : DeliveryInv s) {thread : Nat} {callback : Bool}
    (absent : ∀ slot, (s.bus.subLst slot).pid ≠ thread) :
    DeliveryInv (s.subscribe thread callback) := by
  obtain ⟨hfull, -⟩ | ⟨-, slot, hslot⟩ | ⟨slot, hfree, -, hregistered⟩ :=
    s.bus.subscribe_cases thread callback
  · rw [BusState.subscribe, hfull]
    exact inv
  · exact absurd hslot (absent slot)
  rw [BusState.subscribe, hregistered]
  have hquiet : (s.bus.subLst slot).pid ≠ 0 → s.inCallback (s.bus.subLst slot).pid = none :=
    fun h => absurd hfree h
  exact { inv with
    distinct := fun i j hi hsame => by
      simp only [Bus.register, Function.update_apply] at hi hsame
      split_ifs at hi hsame with hi' hj'
      · rw [hi', hj']
      · exact absurd hsame.symm (absent j)
      · exact absurd hsame (absent i)
      · exact inv.distinct i j hi hsame
    since_le := fun i => by
      simp only [Function.update_apply]
      split_ifs
      · exact Nat.le_refl _
      · exact inv.since_le i
    calling := fun thread' call h => by
      simp only [Bus.register, inv.calling_of_update hquiet h]
      exact inv.calling thread' call h
    unconsumed := fun i hi hfalse => by
      simp only [Bus.register, Function.update_apply] at hi hfalse ⊢
      split_ifs at hi hfalse ⊢ with hslot
      exact inv.unconsumed i hi hfalse
    uncalled := fun i hi hfalse hnone => by
      simp only [Bus.register, Function.update_apply] at hi hfalse hnone ⊢
      split_ifs at hi hfalse hnone ⊢ with hslot
      exact inv.uncalled i hi hfalse hnone
    consumed := fun i hi htrue hsince => by
      simp only [Bus.register, Function.update_apply] at hi htrue hsince ⊢
      split_ifs at hi htrue hsince ⊢ with hslot
      · exact absurd hsince (Nat.lt_irrefl _)
      · exact inv.consumed i hi htrue hsince }

theorem unsubscribe (inv : DeliveryInv s) {thread : Nat} (idle : s.inCallback thread = none) :
    DeliveryInv (s.unsubscribe thread) := by
  rcases s.unsubscribe_cases thread with hsame | ⟨slot, hpid, htarget⟩
  · rw [hsame]
    exact inv
  rw [htarget]
  have hquiet : (s.bus.subLst slot).pid ≠ 0 → s.inCallback (s.bus.subLst slot).pid = none :=
    fun _ => by rw [hpid]; exact idle
  exact { inv with
    distinct := fun i j hi hsame => by
      simp only [Bus.release, Function.update_apply] at hi hsame
      split_ifs at hi hsame with hi' hj'
      · exact absurd rfl hi
      · exact absurd rfl hi
      · exact absurd hsame hi
      · exact inv.distinct i j hi hsame
    calling := fun thread' call h => by
      simp only [Bus.release, inv.calling_of_update hquiet h]
      exact inv.calling thread' call h
    unconsumed := fun i hi hfalse => by
      simp only [Bus.release, Function.update_apply] at hi hfalse
      split_ifs at hi hfalse with hi'
      · exact absurd rfl hi
      · exact inv.unconsumed i hi hfalse
    uncalled := fun i hi hfalse hnone => by
      simp only [Bus.release, Function.update_apply] at hi hfalse hnone ⊢
      split_ifs at hi hfalse hnone ⊢ with hi'
      · exact absurd rfl hi
      · exact inv.uncalled i hi hfalse hnone
    consumed := fun i hi htrue hsince => by
      simp only [Bus.release, Function.update_apply] at hi htrue ⊢
      split_ifs at hi htrue ⊢ with hi'
      · exact absurd rfl hi
      · exact inv.consumed i hi htrue hsince }

/-- One section of a patient run keeps the invariant. -/
theorem step (inv : DeliveryInv s) {act : BusAct} {target : BusState}
    (patient : PatientBus s act) (enabled : busStep s act = some target) :
    DeliveryInv target := by
  obtain ⟨-, hstep⟩ := busStep_eq_some enabled
  have hidle : ∀ {thread}, s.idle thread = true → s.inCallback thread = none := by
    intro thread h
    simp only [BusState.idle, Bool.and_eq_true, Option.isNone_iff_eq_none] at h
    exact h.1
  cases act with
  | publish publisher message wait =>
      obtain ⟨-, rfl⟩ := hstep
      rcases s.publish_cases publisher message wait with hsame | ⟨bus, hstored, -, haccept⟩
      · rw [hsame]
        exact inv
      · rw [haccept]
        exact inv.accept hstored (patient (by rw [hstored]; rfl))
  | poll publisher =>
      obtain ⟨serial, -, rfl⟩ := hstep
      unfold BusState.poll
      split_ifs
      · exact inv
      · exact { inv with }
  | checkBegin thread =>
      obtain ⟨idle, hthread, rfl⟩ := hstep
      exact inv.checkBegin hthread (hidle idle)
  | checkEnd thread ret =>
      obtain ⟨call, hcall, rfl⟩ := hstep
      exact inv.checkEnd hcall
  | subscribe thread callback =>
      obtain ⟨-, -, rfl⟩ := hstep
      exact inv.subscribe patient
  | unsubscribe thread =>
      obtain ⟨idle, -, rfl⟩ := hstep
      exact inv.unsubscribe (hidle idle)

end DeliveryInv

/-- Delivery is exactly-once in every state that a patient run reaches. -/
theorem exactlyOnce_of_patient {s : BusState} (reached : busMachine.ReachableWhen PatientBus s) :
    ExactlyOnce s := by
  have inv : DeliveryInv s := by
    apply Machine.ReachableWhen.invariant DeliveryInv _ _ reached
    · rintro _ rfl
      exact DeliveryInv.fresh
    · intro s act target inv patient enabled
      exact inv.step patient enabled
  exact inv.exactlyOnce

/-- A run of two subscribers and a publisher whose second message waits for both of them. -/
theorem exactlyOnce_of_patient_two_subscribers :
    ∃ s : BusState, busMachine.ReachableWhen PatientBus s ∧
      s.accepted = [[2, 0, 0, 0], [3, 0, 0, 0]] ∧
      s.finished = [⟨2, 0, [2, 0, 0, 0]⟩, ⟨1, 0, [2, 0, 0, 0]⟩, ⟨1, 1, [3, 0, 0, 0]⟩] ∧
      ExactlyOnce s := by
  have start : busMachine.ReachableWhen PatientBus .fresh := .start rfl
  have one := start.follow (.subscribe 1 true) (fun slot => by decide +revert) rfl
  have two := one.follow (.subscribe 2 true) (fun slot => by decide +revert) rfl
  have published := two.follow (.publish 7 [2, 0, 0, 0] false) (fun _ => by decide) rfl
  have called := published.follow (.checkBegin 1) trivial rfl
  have both := called.follow (.checkBegin 2) trivial rfl
  have replied := both.follow (.checkEnd 2 0) trivial rfl
  have consumed := replied.follow (.checkEnd 1 0) trivial rfl
  have again := consumed.follow (.publish 7 [3, 0, 0, 0] false) (fun _ => by decide) rfl
  have recalled := again.follow (.checkBegin 1) trivial rfl
  have marked := recalled.follow (.checkEnd 1 0) trivial rfl
  exact ⟨_, marked, rfl, rfl, exactlyOnce_of_patient marked⟩

/-- The sections of a run in which the second of two subscribers is late: its mark
falls on the next message. -/
def lateMark : List BusAct :=
  [.subscribe 1 true, .subscribe 2 true, .publish 7 [1, 0, 0, 0] false,
    .checkBegin 1, .checkBegin 2, .checkEnd 1 0, .publish 7 [2, 0, 0, 0] false, .checkEnd 2 1000]

/-- A message is marked as consumed by a subscriber that has not seen it. -/
theorem not_exactlyOnce_late_mark :
    ∃ s, busMachine.Reachable s ∧ ¬ ExactlyOnce s := by
  refine ⟨busRun lateMark, reachable_busRun (by decide), fun hexact => ?_⟩
  obtain ⟨bytes, hbytes, hran⟩ := hexact.consumed 1 (by decide) (by decide)
  have hlast : (busRun lateMark).accepted.getLast? = some [2, 0, 0, 0] := by decide
  rw [hlast, Option.some.injEq] at hbytes
  subst hbytes
  exact absurd hran (by decide)

end MmtProbe.DynamicConf
