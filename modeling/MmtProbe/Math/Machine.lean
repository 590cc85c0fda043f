/-
# Labelled machines and the runs they admit

A machine is a set of initial states and a partial step function.  Every
nondeterministic choice (which party moves, what its environment answers) is in
the label, so a run is a list of labels and is executable.

Two notions of reachability are kept apart.  `Reachable` follows every step;
`ReachableWhen guard` follows only the steps that meet a condition on the state
before the step and on its label.  A safety result that holds only while some
branch is not taken is stated over the second one.
-/

import Mathlib.Tactic.SplitIfs
import Mathlib.Logic.Function.Iterate

namespace MmtProbe.Math

universe u v w

/-- A labelled machine. The step function is partial: `none` means that the
label is not enabled in that state. -/
structure Machine (σ : Type u) (α : Type v) where
  /-- The states a run may start from. -/
  init : σ → Prop
  /-- One step, chosen by its label. -/
  step : σ → α → Option σ

namespace Machine

variable {σ : Type u} {α : Type v} (M : Machine σ α)

/-- Follow a list of labels, as long as each of them is enabled. -/
def run : List α → σ → Option σ
  | [], state => some state
  | label :: labels, state => (M.step state label).bind (run labels)

@[simp]
theorem run_nil (state : σ) : M.run [] state = some state := rfl

@[simp]
theorem run_cons (label : α) (labels : List α) (state : σ) :
    M.run (label :: labels) state = (M.step state label).bind (M.run labels) := rfl

/-- States reached by a run all of whose steps meet `guard`. -/
inductive ReachableWhen (guard : σ → α → Prop) : σ → Prop
  | /-- Every initial state is reached by the empty run. -/
    start {state : σ} (isInit : M.init state) : ReachableWhen guard state
  | /-- One enabled step that meets the guard. -/
    next {state target : σ} {label : α} (prior : ReachableWhen guard state)
      (meets : guard state label) (enabled : M.step state label = some target) :
      ReachableWhen guard target

/-- States reached by any run. -/
def Reachable (state : σ) : Prop := M.ReachableWhen (fun _ _ => True) state

variable {M}

/-- A run that meets a condition is a run. -/
theorem ReachableWhen.reachable {guard : σ → α → Prop} {state : σ}
    (reached : M.ReachableWhen guard state) : M.Reachable state := by
  induction reached with
  | start isInit => exact .start isInit
  | next _ _ enabled ih => exact .next ih trivial enabled

/-- Extend a run by one step that is given by its label. -/
theorem ReachableWhen.follow {guard : σ → α → Prop} {state target : σ}
    (reached : M.ReachableWhen guard state) (label : α) (meets : guard state label)
    (enabled : M.step state label = some target) : M.ReachableWhen guard target :=
  .next reached meets enabled

/-- The invariant rule: what holds initially and is kept by every step that
meets the guard holds in every state such a run reaches. -/
theorem ReachableWhen.invariant {guard : σ → α → Prop} (property : σ → Prop)
    (initial : ∀ state, M.init state → property state)
    (preserved : ∀ state label target, property state → guard state label →
      M.step state label = some target → property target)
    {state : σ} (reached : M.ReachableWhen guard state) : property state := by
  induction reached with
  | start isInit => exact initial _ isInit
  | next _ meets enabled ih => exact preserved _ _ _ ih meets enabled

/-- The invariant rule for runs without a condition. -/
theorem Reachable.invariant (property : σ → Prop)
    (initial : ∀ state, M.init state → property state)
    (preserved : ∀ state label target, property state →
      M.step state label = some target → property target)
    {state : σ} (reached : M.Reachable state) : property state :=
  ReachableWhen.invariant property initial
    (fun state label target holds _ enabled => preserved state label target holds enabled)
    reached

theorem Reachable.step {state target : σ} {label : α} (reached : M.Reachable state)
    (enabled : M.step state label = some target) : M.Reachable target :=
  .next reached trivial enabled

/-- Executing labels from a reachable state stays inside the reachable states. -/
theorem Reachable.run {labels : List α} {state target : σ} (reached : M.Reachable state)
    (ran : M.run labels state = some target) : M.Reachable target := by
  induction labels generalizing state with
  | nil =>
      cases ran
      exact reached
  | cons label labels ih =>
      rw [run_cons, Option.bind_eq_some_iff] at ran
      obtain ⟨next, enabled, ran⟩ := ran
      exact ih (reached.step enabled) ran

variable (M) in
/-- The state behind a run, when all its labels are enabled. -/
def after (labels : List α) (state : σ) : σ := (M.run labels state).getD state

theorem reachable_after {labels : List α} {state : σ} (isInit : M.init state)
    (enabled : (M.run labels state).isSome) : M.Reachable (M.after labels state) := by
  obtain ⟨target, ran⟩ := Option.isSome_iff_exists.mp enabled
  have start : M.Reachable state := .start isInit
  rw [after, ran]
  exact start.run ran

variable (M) in
/-- The machine without the steps that do not meet a condition. -/
def restrict (guard : σ → α → Prop) [∀ state label, Decidable (guard state label)] :
    Machine σ α where
  init := M.init
  step state label := if guard state label then M.step state label else none

theorem ReachableWhen.of_restrict {guard : σ → α → Prop}
    [∀ state label, Decidable (guard state label)] {state : σ}
    (reached : (M.restrict guard).Reachable state) : M.ReachableWhen guard state := by
  induction reached with
  | start isInit => exact .start isInit
  | next _ _ enabled ih =>
      simp only [restrict] at enabled
      split_ifs at enabled with hmeets
      exact .next ih hmeets enabled

/-- A run whose labels are enabled and meet a condition. -/
theorem reachableWhen_after {guard : σ → α → Prop} [∀ state label, Decidable (guard state label)]
    {labels : List α} {state : σ} (isInit : M.init state)
    (enabled : ((M.restrict guard).run labels state).isSome) :
    M.ReachableWhen guard ((M.restrict guard).after labels state) :=
  .of_restrict (reachable_after isInit enabled)

/-! ## Machines with a history -/

variable (M) in
/-- The machine beside a history that no step looks at. -/
def observe {η : Type w} (empty : η) (record : σ → α → σ → η → η) : Machine (σ × η) α where
  init state := M.init state.1 ∧ state.2 = empty
  step state label :=
    (M.step state.1 label).map fun target => (target, record state.1 label target state.2)

/-- A step beside a history is a step, and the history grows by it. -/
theorem observe_eq_some {η : Type w} {empty : η} {record : σ → α → σ → η → η}
    {state target : σ × η} {label : α}
    (enabled : (M.observe empty record).step state label = some target) :
    M.step state.1 label = some target.1 ∧
      target.2 = record state.1 label target.1 state.2 := by
  rcases Option.map_eq_some_iff.mp enabled with ⟨next, hnext, rfl⟩
  exact ⟨hnext, rfl⟩

theorem observe_step {η : Type w} {empty : η} {record : σ → α → σ → η → η} {state target : σ}
    {label : α} {history : η} (enabled : M.step state label = some target) :
    (M.observe empty record).step (state, history) label =
      some (target, record state label target history) := by
  simp only [observe, enabled, Option.map_some]

/-! ## Properties of all the states of a run -/

variable (M) in
/-- A property holds in every state that some labels lead to, one after the other. -/
def Always (property : σ → Prop) : List α → σ → Prop
  | [], state => property state
  | label :: labels, state =>
      property state ∧ ∀ target, M.step state label = some target → Always property labels target

theorem Always.last {property : σ → Prop} {labels : List α} {state target : σ}
    (always : M.Always property labels state) (ran : M.run labels state = some target) :
    property target := by
  induction labels generalizing state with
  | nil =>
      cases ran
      exact always
  | cons label labels ih =>
      rw [run_cons, Option.bind_eq_some_iff] at ran
      rcases ran with ⟨next, enabled, ran⟩
      exact ih (always.2 next enabled) ran

variable (M) in
/-- Every step that is made meets a condition. -/
def Meets (guard : σ → α → Prop) : List α → σ → Prop
  | [], _ => True
  | label :: labels, state =>
      ∀ target, M.step state label = some target → guard state label ∧ Meets guard labels target

/-- When the steps that meet a condition keep an invariant behind a property, and the others
break the property, the runs with the property are those whose steps meet the condition. -/
theorem always_iff_meets_of_invariant {property kept : σ → Prop} {guard : σ → α → Prop}
    (implies : ∀ state, kept state → property state)
    (keeps : ∀ state label target, kept state → M.step state label = some target →
      guard state label → kept target)
    (breaks : ∀ state label target, kept state → M.step state label = some target →
      ¬ guard state label → ¬ property target)
    {state : σ} (holds : kept state) (labels : List α) :
    M.Always property labels state ↔ M.Meets guard labels state := by
  induction labels generalizing state with
  | nil => exact iff_of_true (implies state holds) trivial
  | cons label labels ih =>
      rw [Always, Meets, and_iff_right (implies state holds)]
      refine forall₂_congr fun target enabled => ?_
      constructor
      · intro always
        have htarget : property target := by
          cases labels with
          | nil => exact always
          | cons _ _ => exact always.1
        have hguard : guard state label := by
          by_contra hfails
          exact breaks state label target holds enabled hfails htarget
        exact ⟨hguard, (ih (keeps state label target holds enabled hguard)).mp always⟩
      · intro meets
        exact (ih (keeps state label target holds enabled meets.1)).mpr meets.2

/-- When a condition says exactly which steps keep a property, it says exactly which runs
do. -/
theorem always_iff_meets {property : σ → Prop} {guard : σ → α → Prop}
    (kept_iff : ∀ state label target, property state → M.step state label = some target →
      (property target ↔ guard state label))
    {state : σ} (holds : property state) (labels : List α) :
    M.Always property labels state ↔ M.Meets guard labels state :=
  always_iff_meets_of_invariant (fun _ holds => holds)
    (fun state label target holds enabled => (kept_iff state label target holds enabled).mpr)
    (fun state label target holds enabled fails always =>
      fails ((kept_iff state label target holds enabled).mp always))
    holds labels

end Machine

/-! ## Loops that end -/

/-- The rule for a loop that may go round without progress, but not for ever: as long as it
is not done, some number of rounds keeps the invariant and lowers the measure. -/
theorem exists_iterate_done {σ : Type u} {round : σ → σ} {kept done : σ → Prop}
    (measure : σ → Nat)
    (progress : ∀ state, kept state → ¬ done state →
      ∃ rounds, kept (round^[rounds] state) ∧ measure (round^[rounds] state) < measure state)
    {state : σ} (start : kept state) :
    ∃ rounds, kept (round^[rounds] state) ∧ done (round^[rounds] state) := by
  induction hleft : measure state using Nat.strongRecOn generalizing state with
  | _ left ih =>
      by_cases hdone : done state
      · exact ⟨0, start, hdone⟩
      · rcases progress state start hdone with ⟨rounds, hkept, hlower⟩
        rcases ih _ (hleft ▸ hlower) hkept rfl with ⟨more, hmore⟩
        refine ⟨more + rounds, ?_⟩
        rw [Function.iterate_add_apply]
        exact hmore

end MmtProbe.Math
