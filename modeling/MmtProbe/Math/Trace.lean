/-
# Logs in which each event is right when it happens

A log is a list of events, the oldest one first.  A condition on an event may speak
about the events before it, as "a file is written only while it is open" does, and a
log grows at its end, so it is enough to look at an event when it is added.
-/

import Mathlib.Data.List.Basic
import Mathlib.Data.List.Induction
import Mathlib.Tactic.SplitIfs

namespace MmtProbe.Math

universe u

variable {ε α : Type u} {ok : List ε → ε → Prop} {log : List ε} {event : ε}

/-- Each event meets a condition on the events before it. -/
def Past (ok : List ε → ε → Prop) (log : List ε) : Prop :=
  ∀ before event after, log = before ++ event :: after → ok before event

theorem past_nil : Past ok [] := by
  intro before event after hlog
  simp at hlog

theorem Past.concat (past : Past ok log) (right : ok log event) : Past ok (log ++ [event]) := by
  intro before other after hlog
  rcases List.eq_nil_or_concat after with hlast | ⟨rest, last, hafter⟩
  · rw [hlast] at hlog
    rcases List.append_inj' hlog rfl with ⟨hbefore, hother⟩
    cases hother
    rw [← hbefore]
    exact right
  · rw [hafter, List.concat_eq_append, ← List.cons_append, ← List.append_assoc] at hlog
    exact past before other rest (List.append_inj' hlog rfl).1

theorem Past.of_concat (past : Past ok (log ++ [event])) : Past ok log ∧ ok log event := by
  refine ⟨?_, past log event [] rfl⟩
  intro before other after hlog
  apply past before other (after ++ [event])
  rw [hlog, List.append_assoc, List.cons_append]

/-- What happens only at the first event of a kind happens at most once. -/
theorem Past.countP_le_one {happens kind : ε → Bool}
    (past : Past (fun before event => happens event = true →
      kind event = true ∧ ∀ earlier ∈ before, kind earlier = false) log) :
    log.countP happens ≤ 1 := by
  induction log using List.reverseRecOn with
  | nil => simp
  | append_singleton log event ih =>
      rcases past.of_concat with ⟨hlog, hevent⟩
      rw [List.countP_append, List.countP_singleton]
      split_ifs with hhappens
      · -- nothing of the kind came before, so nothing happened before
        have hnone : log.countP happens = 0 := by
          rw [List.countP_eq_zero]
          intro earlier hearlier hbefore
          rcases List.append_of_mem hearlier with ⟨before, after, hsplit⟩
          have hkind := (hlog before earlier after hsplit hbefore).1
          rw [(hevent hhappens).2 earlier hearlier] at hkind
          cases hkind
        omega
      · exact ih hlog

/-- What is read off a log grows by what is read off the last event. -/
theorem filterMap_concat (read : ε → Option α) (log : List ε) (event : ε) :
    (log ++ [event]).filterMap read = log.filterMap read ++ (read event).toList := by
  rw [List.filterMap_append, List.filterMap_cons]
  cases read event <;> rfl

end MmtProbe.Math
