/-
# The table of subscribers

`mmt_bus_subscribe` looks in one loop both for a slot that already holds the
calling thread and for a free slot, and stops at the first slot of either kind.
`mmt_bus_unsubscribe` frees slots in place.  A slot that was freed in front of a
thread that is still subscribed therefore hides that thread from the check: its
second subscription is accepted and the thread is in the table twice.

The number of subscribers is right in every run.  The threads in the table are
distinct in the runs in which no thread subscribes again from behind a free slot.
-/

import Mathlib.Data.Fintype.Basic
import Mathlib.Order.Fin.Basic
import Mathlib.Tactic.FinCases
import MmtProbe.DynamicConf.Bus

namespace MmtProbe.DynamicConf

open MmtProbe.Math

/-! ## What the table should be -/

namespace Bus

/-- The number of slots that hold a thread. -/
def taken (bus : Bus) : Nat := slots.countP fun slot => (bus.subLst slot).pid != 0

/-- `nb_subscribers` is the number of slots in use. -/
def Counted (bus : Bus) : Prop := bus.nbSubscribers = bus.taken

/-- No thread is in two slots. -/
def Distinct (bus : Bus) : Prop :=
  ∀ first second, (bus.subLst first).pid ≠ 0 →
    (bus.subLst first).pid = (bus.subLst second).pid → first = second

/-- A free slot stands in front of a slot that holds the thread. -/
def Hidden (bus : Bus) (thread : Nat) : Prop :=
  ∃ free slot, (bus.subLst free).pid = 0 ∧ (bus.subLst slot).pid = thread ∧ free < slot

instance (bus : Bus) : Decidable bus.Distinct :=
  inferInstanceAs (Decidable (∀ _, _))

instance (bus : Bus) (thread : Nat) : Decidable (bus.Hidden thread) :=
  inferInstanceAs (Decidable (∃ _, _))

variable {bus : Bus} {thread : Nat} {slot : Fin 3}

theorem taken_le (bus : Bus) : bus.taken ≤ 3 := List.countP_le_length

/-- How the number of slots in use changes when one slot is written. -/
theorem taken_update (bus : Bus) (slot : Fin 3) (entry : Subscriber) (count : Nat)
    (message : List UInt8) (replyCode : Int) :
    taken ⟨count, Function.update bus.subLst slot entry, message, replyCode⟩ +
        (if (bus.subLst slot).pid = 0 then 0 else 1) =
      bus.taken + (if entry.pid = 0 then 0 else 1) := by
  fin_cases slot <;>
    simp [taken, slots, List.countP_cons, Function.update] <;> omega

/-- Entering a thread into a free slot keeps the count. -/
theorem Counted.register (counted : bus.Counted) (free : (bus.subLst slot).pid = 0)
    (positive : thread ≠ 0) (callback : Bool) : (bus.register slot thread callback).Counted := by
  have hupdate := bus.taken_update slot ⟨thread, true, callback⟩
    ((bus.nbSubscribers + 1) % 2 ^ 8) bus.message bus.replyCode
  have hle := taken_le (bus.register slot thread callback)
  simp only [free, positive, if_true, if_false] at hupdate
  unfold Counted at counted ⊢
  simp only [Bus.register] at hle ⊢
  omega

/-- Freeing a slot in use keeps the count. -/
theorem Counted.release (counted : bus.Counted) (used : (bus.subLst slot).pid ≠ 0) :
    (bus.release slot).Counted := by
  have hupdate := bus.taken_update slot { bus.subLst slot with pid := 0 }
    ((bus.nbSubscribers + (2 ^ 8 - 1)) % 2 ^ 8) bus.message bus.replyCode
  have hle := bus.taken_le
  simp only [used, if_true, if_false] at hupdate
  unfold Counted at counted ⊢
  simp only [Bus.release] at hupdate ⊢
  omega

/-- Entering a thread that is in no slot keeps the threads distinct. -/
theorem Distinct.register (distinct : bus.Distinct)
    (absent : ∀ other, (bus.subLst other).pid ≠ thread) (callback : Bool) :
    (bus.register slot thread callback).Distinct := by
  intro first second used same
  simp only [Bus.register, Function.update_apply] at used same
  split_ifs at used same with hfirst hsecond hsecond
  · rw [hfirst, hsecond]
  · exact absurd same.symm (absent second)
  · exact absurd same (absent first)
  · exact distinct first second used same

/-- Freeing a slot keeps the threads distinct. -/
theorem Distinct.release (distinct : bus.Distinct) : (bus.release slot).Distinct := by
  intro first second used same
  simp only [Bus.release, Function.update_apply] at used same
  split_ifs at used same with hfirst hsecond hsecond
  · exact absurd rfl used
  · exact absurd rfl used
  · exact absurd same used
  · exact distinct first second used same

/-- The search for a slot passes over every slot in front of the one it finds. -/
theorem not_of_lt_of_find {wanted : Fin 3 → Bool} (found : slots.find? wanted = some slot)
    {other : Fin 3} (before : other < slot) : wanted other = false := by
  rcases List.find?_eq_some_iff_append.mp found with ⟨_, front, behind, hslots, hfront⟩
  have hsorted : (front ++ slot :: behind).Pairwise (· < ·) := by
    rw [← hslots]
    decide
  have hother : other ∈ front ++ slot :: behind := by
    rw [← hslots]
    exact mem_slots other
  have hbehind := (List.pairwise_cons.mp (List.pairwise_append.mp hsorted).2.1).1
  rcases List.mem_append.mp hother with hmem | hmem
  · simpa using hfront other hmem
  rcases List.mem_cons.mp hmem with rfl | hmem
  · exact absurd before (lt_irrefl other)
  · exact absurd before (lt_asymm (hbehind other hmem))

/-- A subscription that is accepted takes a free slot, and no slot in front of it
holds the thread. -/
theorem subscribe_registered {target : Bus} {callback : Bool}
    (registered : bus.subscribe thread callback = .registered slot target) :
    (bus.subLst slot).pid = 0 ∧ target = bus.register slot thread callback ∧
      ∀ other, other < slot → (bus.subLst other).pid ≠ thread := by
  unfold subscribe at registered
  cases hfind : slots.find? fun slot =>
      (bus.subLst slot).pid == thread || (bus.subLst slot).pid == 0 with
  | none => simp [hfind] at registered
  | some found =>
      simp only [hfind] at registered
      split_ifs at registered with hpid
      cases registered
      have hfree : (bus.subLst slot).pid = 0 := by simpa [hpid] using List.find?_some hfind
      apply And.intro hfree
      apply And.intro rfl
      intro other hother
      have hpassed := not_of_lt_of_find hfind hother
      simp only [Bool.or_eq_false_iff, beq_eq_false_iff_ne] at hpassed
      exact hpassed.1

/-- A thread that no free slot hides is accepted only when it is in no slot. -/
theorem absent_of_registered {target : Bus} {callback : Bool} (visible : ¬ bus.Hidden thread)
    (registered : bus.subscribe thread callback = .registered slot target)
    (positive : thread ≠ 0) (other : Fin 3) : (bus.subLst other).pid ≠ thread := by
  rcases subscribe_registered registered with ⟨hfree, _, hfront⟩
  intro hsame
  rcases lt_trichotomy other slot with hlt | rfl | hgt
  · exact hfront other hlt hsame
  · exact positive (hsame.symm.trans hfree)
  · exact visible ⟨slot, other, hfree, hsame, hgt⟩

/-- The condition is exact: a thread that a free slot hides is accepted, and is then
in the table twice. -/
theorem Distinct.subscribe_of_hidden (distinct : bus.Distinct) (positive : thread ≠ 0)
    (hidden : bus.Hidden thread) (callback : Bool) :
    ∃ slot, bus.subscribe thread callback = .registered slot (bus.register slot thread callback) ∧
      ¬ (bus.register slot thread callback).Distinct := by
  rcases hidden with ⟨free, own, hfree, hown, hlt⟩
  unfold subscribe
  cases hfind : slots.find? fun slot =>
      (bus.subLst slot).pid == thread || (bus.subLst slot).pid == 0 with
  | none =>
      have hpassed := List.find?_eq_none.mp hfind free (mem_slots free)
      simp [hfree] at hpassed
  | some slot =>
      have hother : slot ≠ own := by
        rintro rfl
        have hpassed := not_of_lt_of_find hfind hlt
        simp [hfree] at hpassed
      have hpid : (bus.subLst slot).pid ≠ thread := fun hsame =>
        hother (distinct slot own (by rwa [hsame]) (hsame.trans hown.symm))
      refine ⟨slot, by simp [hpid], ?_⟩
      intro hdistinct
      have htwice := hdistinct slot own (by simpa [Bus.register] using positive)
        (by simp [Bus.register, Function.update_of_ne (Ne.symm hother), hown])
      exact hother htwice

end Bus

/-! ## The table over whole runs -/

/-- The only step that can put a thread into the table twice is not taken: no
thread subscribes while a free slot stands in front of a slot that it still holds. -/
def SubscribesVisibly (s : BusState) : BusAct → Prop
  | .subscribe thread _ => ¬ s.bus.Hidden thread
  | _ => True

instance (s : BusState) (act : BusAct) : Decidable (SubscribesVisibly s act) :=
  match act with
  | .subscribe thread _ => inferInstanceAs (Decidable (¬ s.bus.Hidden thread))
  | .publish .. | .poll .. | .checkBegin .. | .checkEnd .. | .unsubscribe .. =>
      inferInstanceAs (Decidable True)

/-- What one section does to the numbers in the table: it keeps them, enters a
thread, or frees a slot of a thread. -/
theorem table_cases {s target : BusState} {act : BusAct} (enabled : busStep s act = some target) :
    (target.bus.nbSubscribers = s.bus.nbSubscribers ∧
        ∀ slot, (target.bus.subLst slot).pid = (s.bus.subLst slot).pid) ∨
      (∃ thread callback slot, act = .subscribe thread callback ∧ thread ≠ 0 ∧
        s.bus.subscribe thread callback =
          .registered slot (s.bus.register slot thread callback) ∧
        target.bus = s.bus.register slot thread callback) ∨
      ∃ thread slot, act = .unsubscribe thread ∧ (s.bus.subLst slot).pid ≠ 0 ∧
        target.bus = s.bus.release slot := by
  rcases busStep_eq_some enabled with ⟨_, hact⟩
  cases act with
  | publish publisher message wait =>
      rcases hact with ⟨_, rfl⟩
      rcases s.publish_cases publisher message wait with hsame | ⟨bus, hbus, _, htarget⟩
      · exact .inl (by simp [hsame])
      · rcases Bus.publish_eq_some hbus with ⟨_, rfl⟩
        exact .inl (by simp [htarget, BusState.accept, Bus.store])
  | poll publisher =>
      rcases hact with ⟨serial, _, rfl⟩
      apply Or.inl
      unfold BusState.poll
      split_ifs <;> simp
  | checkBegin thread =>
      rcases hact with ⟨_, _, rfl⟩
      rcases s.checkBegin_cases thread with hsame | ⟨slot, _, _, htarget⟩
      · exact .inl (by simp [hsame])
      · exact .inl (by simp [htarget, BusState.start])
  | checkEnd thread ret =>
      rcases hact with ⟨call, _, rfl⟩
      apply Or.inl
      apply And.intro rfl
      intro slot
      simp only [BusState.checkEnd, Bus.reply, Function.update_apply]
      split_ifs with hslot
      · rw [hslot]
      · rfl
  | subscribe thread callback =>
      rcases hact with ⟨_, hpositive, rfl⟩
      unfold BusState.subscribe
      rcases s.bus.subscribe_cases thread callback with
        ⟨hfull, _⟩ | ⟨hmistake, _⟩ | ⟨slot, _, _, hregistered⟩
      · exact .inl (by simp [hfull])
      · exact .inl (by simp [hmistake])
      · exact .inr (.inl ⟨thread, callback, slot, rfl, hpositive, hregistered,
          by simp [hregistered]⟩)
  | unsubscribe thread =>
      rcases hact with ⟨_, hpositive, rfl⟩
      rcases s.unsubscribe_cases thread with hsame | ⟨slot, hpid, htarget⟩
      · exact .inl (by simp [hsame])
      · exact .inr (.inr ⟨thread, slot, rfl, by rw [hpid]; exact hpositive, by rw [htarget]⟩)

/-- The number of subscribers is the number of slots in use, whatever the threads
do. -/
theorem counted_of_reachable {s : BusState} (reached : busMachine.Reachable s) :
    s.bus.Counted := by
  apply Machine.Reachable.invariant (fun s => s.bus.Counted) _ _ reached
  · rintro s rfl
    rfl
  · intro s act target counted enabled
    rcases table_cases enabled with ⟨hcount, hpids⟩ | ⟨thread, callback, slot, _, hpositive,
      hregistered, hbus⟩ | ⟨thread, slot, _, hused, hbus⟩
    · simp only [Bus.Counted, Bus.taken, hcount, hpids] at counted ⊢
      exact counted
    · rw [hbus]
      exact counted.register (Bus.subscribe_registered hregistered).1 hpositive callback
    · rw [hbus]
      exact counted.release hused

/-- The invariant of the table. -/
structure TableOk (bus : Bus) : Prop where
  distinct : bus.Distinct
  counted : bus.Counted
  bounded : bus.nbSubscribers ≤ 3

/-- In every run in which no thread subscribes from behind a free slot, the threads
in the table are distinct and `nb_subscribers` counts them. -/
theorem tableOk_of_subscribesVisibly (s : BusState)
    (reached : busMachine.ReachableWhen SubscribesVisibly s) : TableOk s.bus := by
  have hcounted := counted_of_reachable reached.reachable
  have hbounded : s.bus.nbSubscribers ≤ 3 := hcounted.trans_le s.bus.taken_le
  refine ⟨?_, hcounted, hbounded⟩
  apply Machine.ReachableWhen.invariant (fun s => s.bus.Distinct) _ _ reached
  · rintro s rfl
    decide
  · intro s act target distinct visible enabled
    rcases table_cases enabled with ⟨_, hpids⟩ | ⟨thread, callback, slot, rfl, hpositive,
      hregistered, hbus⟩ | ⟨thread, slot, _, _, hbus⟩
    · intro first second used same
      rw [hpids] at used
      rw [hpids, hpids] at same
      exact distinct first second used same
    · rw [hbus]
      exact distinct.register (Bus.absent_of_registered visible hregistered hpositive) callback
    · rw [hbus]
      exact distinct.release

/-- A run in which a slot is freed and taken again. -/
theorem tableOk_of_subscribesVisibly_run :
    TableOk ((busMachine.restrict SubscribesVisibly).after
      [.subscribe 7 true, .subscribe 8 true, .unsubscribe 7, .subscribe 9 true] .fresh).bus :=
  tableOk_of_subscribesVisibly _ (Machine.reachableWhen_after rfl (by decide +kernel))

/-- Thread 8 subscribes behind thread 7; thread 7 leaves; thread 8 subscribes again
and takes the slot in front of its own. -/
theorem not_distinct_behind_free_slot :
    ∃ s, busMachine.Reachable s ∧ ¬ TableOk s.bus := by
  refine ⟨busRun [.subscribe 7 true, .subscribe 8 true, .unsubscribe 7, .subscribe 8 true],
    reachable_busRun (by decide +kernel), ?_⟩
  intro ok
  have hsame := ok.distinct 0 1 (by decide +kernel) (by decide +kernel)
  exact absurd hsame (by decide)

end MmtProbe.DynamicConf
