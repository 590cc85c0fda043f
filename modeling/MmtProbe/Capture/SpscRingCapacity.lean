/-
# How many packets a ring holds

`data_spsc_ring_init` allocates two slots more than it was asked for, and
`queue_push` keeps three slots free.  A ring of the configured size `n` is therefore
full with `n - 1` packets: a ring of one packet refuses every packet, and a reader
that retries until it succeeds does so for ever.

Two sizes do not even get there: `size + 2` is a 32-bit sum, and a ring whose `_size`
is zero cannot compute a remainder.
-/

import MmtProbe.Capture.SpscRingOverrun

namespace MmtProbe.Capture

open MmtProbe.Math

universe u

variable {β : Type u} {size elementSize : Nat}

/-! ## What the capacity should be -/

/-- The elements that were pushed and that the consumer has not given back. -/
def RingState.unreleased (s : RingState β) : Nat := s.pushed.length - s.released

/-- The labels of a call of `data_spsc_ring_push_tmp_element` that loads the tail: its three
accesses, with some steps of the consumer in between. -/
def pushCall (first second : List ConsumerAct) : List (RingAct β) :=
  .producer .push :: first.map .consumer ++ .producer .push :: second.map .consumer ++
    [.producer .push]

/-- A producer that goes on pushing while the consumer does nothing gets rid of its element,
and `% _size` is defined. -/
def AcceptsAlone (size elementSize : Nat) (s : RingState β) : Prop :=
  s.ring.size ≠ 0 ∧ ∃ steps target,
    (ringMachine β size elementSize).run (List.replicate steps (.producer .push)) s = some target ∧
      target.producer = .idle

/-- A ring of a configured size is only full when it holds that many elements. -/
structure CapacityKept (β : Type u) (size elementSize : Nat) : Prop where
  /-- A call returns `QUEUE_FULL` only if the ring holds `size` elements at one of its
  moments. -/
  full : ∀ s tmp first second target, (ringMachine β size elementSize).Reachable s →
    s.producer = .filling tmp →
    (ringMachine β size elementSize).run (pushCall first second) s = some target →
    target.producer = .filling tmp →
      ∃ before moment, before <+: pushCall first second ∧
        (ringMachine β size elementSize).run before s = some moment ∧ size ≤ moment.unreleased
  /-- A ring that holds nothing accepts an element. -/
  empty : ∀ s tmp, (ringMachine β size elementSize).Reachable s → s.producer = .filling tmp →
    s.pushed.length = s.released → AcceptsAlone size elementSize s

/-! ## Filling a ring -/

/-- A ring in which some elements were pushed and none was popped. -/
structure Stocked (size elementSize count : Nat) (s : RingState β) : Prop where
  reached : (ringMachine β size elementSize).Reachable s
  producer_eq : s.producer = .idle
  size_eq : s.ring.size = u32 (size + 2)
  head_eq : s.ring.head = count
  tail_eq : s.ring.tail = 0
  cachedTail_eq : s.ring.cachedTail = 0
  length_eq : s.pushed.length = count
  released_eq : s.released = 0

theorem exists_stocked_zero (zero : β) (accepted : 1 ≤ size) (bytes : 1 ≤ elementSize) :
    ∃ s : RingState β, Stocked size elementSize 0 s := by
  refine ⟨.fresh
    { size := u32 (size + 2), elementSize := elementSize, head := 0, tail := 0,
      cachedHead := 0, cachedTail := 0, data := fun _ => 0, elements := fun _ _ => zero },
    ⟨?_, rfl, rfl, rfl, rfl, rfl, rfl, rfl⟩⟩
  refine .start ⟨fun _ => 0, fun _ _ => zero, _, ?_, rfl⟩
  rw [dataSpscRingInit, if_neg (by omega)]

/-- One more element, away from the end of the array. -/
theorem Stocked.push {count : Nat} {s : RingState β} (stocked : Stocked size elementSize count s)
    (room : count + 3 < u32 (size + 2)) :
    ∃ target : RingState β, Stocked size elementSize (count + 1) target := by
  have hsmall : u32 (size + 2) < 2 ^ 32 := Nat.mod_lt _ (by decide)
  have hlimit : pushLimit s.ring.size s.ring.head ≠ s.ring.tail := by
    rw [stocked.size_eq, stocked.head_eq, stocked.tail_eq, pushLimit, u32_of_lt (by omega),
      Nat.mod_eq_of_lt room]
    omega
  obtain ⟨cachedTail, used, copied, reached⟩ :=
    reachable_pushAgain stocked.reached stocked.producer_eq hlimit
  refine ⟨_, reached, rfl, stocked.size_eq, ?_, stocked.tail_eq, ?_, ?_, stocked.released_eq⟩
  · show u32 (s.ring.head + 1) % s.ring.size = count + 1
    rw [stocked.head_eq, stocked.size_eq, u32_of_lt (by omega), Nat.mod_eq_of_lt (by omega)]
  · rw [stocked.tail_eq, stocked.cachedTail_eq, or_self] at copied
    exact copied
  · show (s.pushed ++ [s.ring.content s.ring.head]).length = count + 1
    rw [List.length_append, stocked.length_eq, List.length_singleton]

/-- A ring is filled up to the three slots that are kept free. -/
theorem exists_stocked (zero : β) (accepted : 1 ≤ size) (bytes : 1 ≤ elementSize) {count : Nat}
    (room : count + 3 ≤ u32 (size + 2) ∨ count = 0) :
    ∃ s : RingState β, Stocked size elementSize count s := by
  induction count with
  | zero => exact exists_stocked_zero zero accepted bytes
  | succ count ih =>
      obtain ⟨s, stocked⟩ := ih (by omega)
      exact stocked.push (by omega)

/-! ## The refused push -/

section

variable {s : RingState β} {tmp : Nat} (filled : s.producer = .filling tmp)
  (full : pushLimit s.ring.size s.ring.head = s.ring.tail)
  (stale : pushLimit s.ring.size s.ring.head = s.ring.cachedTail)

include filled full stale

/-- A refused push, access by access, when nobody else moves. -/
theorem refused_steps :
    producerStep s .push = some { s with producer := .pushing tmp s.ring.head } ∧
      producerStep { s with producer := .pushing tmp s.ring.head } .push =
        some { s with producer := .reloading tmp s.ring.head s.ring.head } ∧
      producerStep { s with producer := .reloading tmp s.ring.head s.ring.head } .push =
        some { s with ring := { s.ring with cachedTail := s.ring.tail } } := by
  refine ⟨?_, ?_, ?_⟩
  · simp only [producerStep, filled]
  · simp only [producerStep, if_pos stale]
  · simp only [producerStep, if_pos full, filled]

/-- The element of a refused push is given back. -/
theorem run_pushCall :
    (ringMachine β size elementSize).run (pushCall [] []) s =
      some { s with ring := { s.ring with cachedTail := s.ring.tail } } := by
  obtain ⟨hfirst, hsecond, hthird⟩ := refused_steps filled full stale
  simp only [pushCall, List.map_nil, List.cons_append, List.nil_append, Machine.run_cons,
    Machine.run_nil, ringMachine, hfirst, hsecond, hthird, Option.bind_some]

/-- In no moment of a refused push the ring holds another number of elements. -/
theorem unreleased_moment {before : List (RingAct β)} {moment : RingState β}
    (isPart : before <+: pushCall [] [])
    (run : (ringMachine β size elementSize).run before s = some moment) :
    moment.unreleased = s.unreleased := by
  obtain ⟨hfirst, hsecond, hthird⟩ := refused_steps filled full stale
  have hwhole : (ringMachine β size elementSize).run (pushCall [] []) s = _ :=
    run_pushCall filled full stale
  simp only [pushCall, List.map_nil, List.cons_append, List.nil_append, List.prefix_cons_iff,
    List.prefix_nil] at isPart hwhole
  rcases isPart with rfl | ⟨_, rfl, rfl | ⟨_, rfl, rfl | ⟨_, rfl, rfl⟩⟩⟩
  · cases run
    rfl
  · simp only [Machine.run_cons, Machine.run_nil, ringMachine, hfirst, Option.bind_some] at run
    cases run
    rfl
  · simp only [Machine.run_cons, Machine.run_nil, ringMachine, hfirst, hsecond,
      Option.bind_some] at run
    cases run
    rfl
  · rw [hwhole] at run
    cases run
    rfl

end

/-- An element that cannot be pushed into a ring that holds fewer than `size`. -/
theorem not_capacityKept_of_full {count : Nat} {s : RingState β}
    (stocked : Stocked size elementSize count s) (few : count < size)
    (full : pushLimit (u32 (size + 2)) count = 0) : ¬CapacityKept β size elementSize := by
  intro kept
  have given : (ringMachine β size elementSize).Reachable
      { s with producer := .filling s.ring.head, used := s.ring.head :: s.used } :=
    reachable_producerStep .getTmpElement stocked.reached
      (by simp [producerStep, stocked.producer_eq])
  have hlimit : pushLimit s.ring.size s.ring.head = 0 := by
    rw [stocked.size_eq, stocked.head_eq, full]
  have hfull := hlimit.trans stocked.tail_eq.symm
  have hstale := hlimit.trans stocked.cachedTail_eq.symm
  obtain ⟨before, moment, hpart, hrun, hheld⟩ :=
    kept.full _ s.ring.head [] [] _ given rfl (run_pushCall rfl hfull hstale) rfl
  have hsame := unreleased_moment
    (s := { s with producer := .filling s.ring.head, used := s.ring.head :: s.used })
    rfl hfull hstale hpart hrun
  rw [RingState.unreleased, RingState.unreleased, stocked.length_eq, stocked.released_eq] at hsame
  rw [RingState.unreleased] at hheld
  omega

/-- A ring without slots cannot compute where its head is. -/
theorem not_capacityKept_of_zero {s : RingState β} (stocked : Stocked size elementSize 0 s)
    (noSlot : u32 (size + 2) = 0) : ¬CapacityKept β size elementSize := by
  intro kept
  have given : (ringMachine β size elementSize).Reachable
      { s with producer := .filling s.ring.head, used := s.ring.head :: s.used } :=
    reachable_producerStep .getTmpElement stocked.reached
      (by simp [producerStep, stocked.producer_eq])
  have haccepts := kept.empty _ s.ring.head given rfl
    (stocked.length_eq.trans stocked.released_eq.symm)
  exact haccepts.1 (stocked.size_eq.trans noSlot)

/-- **No ring has the capacity it was configured for.** Every size is full one element too
early, except for the two on which `size + 2` wraps: of these the one cannot be used at all
and the other is always full. -/
theorem not_capacityKept (zero : β) {size elementSize : Nat} (accepted : 1 ≤ size)
    (fits : size < 2 ^ 32) (bytes : 1 ≤ elementSize) : ¬CapacityKept β size elementSize := by
  rcases Nat.lt_or_ge (size + 2) (2 ^ 32) with hroom | hwraps
  · have hsize : u32 (size + 2) = size + 2 := u32_of_lt hroom
    obtain ⟨s, stocked⟩ := exists_stocked zero accepted bytes
      (show size - 1 + 3 ≤ u32 (size + 2) ∨ size - 1 = 0 by omega)
    apply not_capacityKept_of_full stocked (by omega)
    have hsum : size - 1 + 3 = size + 2 := by omega
    rw [pushLimit, hsum, hsize, Nat.mod_self]
  · obtain ⟨s, stocked⟩ := exists_stocked_zero zero accepted bytes
    have hlast : size = 2 ^ 32 - 2 ∨ size = 2 ^ 32 - 1 := by omega
    rcases hlast with rfl | rfl
    · exact not_capacityKept_of_zero stocked (by decide)
    · exact not_capacityKept_of_full stocked (by decide) (by decide)

/-- A ring of a thousand packets. -/
theorem not_capacityKept_thousand :
    (1 ≤ 1000 ∧ 1000 < 2 ^ 32 ∧ 1 ≤ 65559) ∧ ¬CapacityKept UInt8 1000 65559 :=
  ⟨by decide, not_capacityKept 0 (by decide) (by decide) (by decide)⟩

/-- A ring of one packet refuses the first one. -/
theorem not_capacityKept_one :
    ¬∀ size elementSize, 1 ≤ size → size < 2 ^ 32 → 1 ≤ elementSize →
      CapacityKept UInt8 size elementSize := by
  intro kept
  obtain ⟨s, stocked⟩ := exists_stocked_zero (0 : UInt8) (le_refl 1) (le_refl 1)
  exact not_capacityKept_of_full stocked (by decide) (by decide)
    (kept 1 1 (by decide) (by decide) (by decide))

/-- What a full ring holds, for the sizes on which `h + 3` does not wrap: all but three of
its slots, one less than it was configured for. -/
theorem unreleased_of_full {s : RingState β} {tmp val h : Nat} (bounded : size + 4 < 2 ^ 32)
    (reached : (ringMachine β size elementSize).Reachable s)
    (reloading : s.producer = .reloading tmp val h)
    (full : pushLimit s.ring.size h = s.ring.tail) : s.unreleased + 3 = s.ring.size := by
  obtain ⟨ct, ch, inv⟩ := ringInv_of_reachable bounded reached
  have hproducer := inv.producer_inv
  simp only [ProducerInv, reloading] at hproducer
  have hct := inv.ct_le
  have hreleased := inv.released_le
  have hch := inv.ch_le
  have hpushed := inv.pushed_le
  rw [hproducer.2.2, inv.tail_eq, inv.pushLimit_eq_iff (by omega) (by omega)] at full
  rw [RingState.unreleased]
  omega

end MmtProbe.Capture
