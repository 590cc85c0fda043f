/-
# When the packet ring overruns its consumer

`queue_push` refuses a push when `( h + 3 ) % _size` is the tail, and computes
`h + 3` in 32 bits.  For the two largest sizes that `data_spsc_ring_init` can
represent the sum wraps near the end of the array and the comparison never meets
slot 2.  A ring whose tail stands there is never full: after one turn the
producer writes into the oldest unread element, and the consumer then reads the
newest content in its place.

The run is built for any element size, out of whole push and pop operations.
-/

import MmtProbe.Capture.SpscRingFifo

namespace MmtProbe.Capture

open MmtProbe.Math

universe u

variable {β : Type u} {size elementSize : Nat}

/-! ## Whole operations -/

theorem reachable_producerStep {s target : RingState β} (act : ProducerAct β)
    (reached : (ringMachine β size elementSize).Reachable s)
    (enabled : producerStep s act = some target) :
    (ringMachine β size elementSize).Reachable target :=
  reached.step (show (ringMachine β size elementSize).step s (.producer act) = some target
    from enabled)

theorem reachable_consumerStep {s target : RingState β} (act : ConsumerAct)
    (reached : (ringMachine β size elementSize).Reachable s)
    (enabled : consumerStep s act = some target) :
    (ringMachine β size elementSize).Reachable target :=
  reached.step (show (ringMachine β size elementSize).step s (.consumer act) = some target
    from enabled)

/-- The state after a push that was not refused; the copy of the tail may or may
not have been loaded again. -/
def pushedState (s : RingState β) (cachedTail : Nat) : RingState β :=
  { s with
    ring := { s.ring with
      head := u32 (s.ring.head + 1) % s.ring.size
      cachedTail := cachedTail
      data := fun slot => if slot = s.ring.head then s.ring.head else s.ring.data slot }
    producer := .idle
    pushed := s.pushed ++ [s.ring.content s.ring.head]
    used := s.ring.head :: s.used }

/-- A push succeeds whenever its comparison does not meet the tail. -/
theorem reachable_push {s : RingState β}
    (reached : (ringMachine β size elementSize).Reachable s)
    (filled : s.producer = .filling s.ring.head)
    (room : pushLimit s.ring.size s.ring.head ≠ s.ring.tail) :
    ∃ cachedTail, (cachedTail = s.ring.tail ∨ cachedTail = s.ring.cachedTail) ∧
      (ringMachine β size elementSize).Reachable (pushedState s cachedTail) := by
  have loaded : (ringMachine β size elementSize).Reachable
      { s with producer := .pushing s.ring.head s.ring.head } :=
    reachable_producerStep .push reached (by simp [producerStep, filled])
  have tested : ∃ cachedTail, (cachedTail = s.ring.tail ∨ cachedTail = s.ring.cachedTail) ∧
      (ringMachine β size elementSize).Reachable
        { s with
          ring := { s.ring with cachedTail := cachedTail }
          producer := .storing s.ring.head s.ring.head s.ring.head } := by
    by_cases stale : pushLimit s.ring.size s.ring.head = s.ring.cachedTail
    · refine ⟨s.ring.tail, .inl rfl, reachable_producerStep .push
        (reachable_producerStep .push loaded (by simp only [producerStep, if_pos stale]; rfl)) ?_⟩
      simp [producerStep, room]
    · exact ⟨s.ring.cachedTail, .inr rfl, reachable_producerStep .push loaded
        (by simp only [producerStep, if_neg stale])⟩
  obtain ⟨cachedTail, copied, tested⟩ := tested
  have stored := reachable_producerStep .push tested rfl
  exact ⟨cachedTail, copied, reachable_producerStep .push stored rfl⟩

/-- The state after an element was popped from a ring that looked empty. -/
def poppedState (s : RingState β) : RingState β :=
  { s with
    ring := { s.ring with
      cachedHead := s.ring.head
      tail := u32 (s.ring.tail + 1) % s.ring.size }
    consumer := .idle
    reads := s.reads ++ [s.ring.content (s.ring.data s.ring.tail)]
    released := s.released + 1
    used := s.ring.data s.ring.tail :: s.ring.tail :: s.used }

/-- A consumer that has read some bytes of an element can read the others. -/
theorem reachable_popRead {s : RingState β} (e : Nat) :
    ∀ (left offset : Nat), offset + left + 1 = s.ring.elementSize →
      (ringMachine β size elementSize).Reachable
        { s with consumer := .popReading e ((s.ring.content e).take offset) } →
      (ringMachine β size elementSize).Reachable
        { s with consumer := .idle, reads := s.reads ++ [s.ring.content e] } := by
  intro left
  induction left with
  | zero =>
      intro offset total reached
      apply reachable_consumerStep .advance reached
      have hoffset : ((s.ring.content e).take offset).length = offset := by
        simp
        omega
      simp only [consumerStep, hoffset, s.ring.take_concat_element e (by omega : offset < _)]
      rw [if_neg (by simp; omega), List.take_of_length_le (by simp; omega)]
  | succ left ih =>
      intro offset total reached
      refine ih (offset + 1) (by omega) (reachable_consumerStep .advance reached ?_)
      have hoffset : ((s.ring.content e).take offset).length = offset := by
        simp
        omega
      simp only [consumerStep, hoffset, s.ring.take_concat_element e (by omega : offset < _)]
      rw [if_pos (by simp; omega)]

/-- Popping and reading one element, from a consumer whose copy of the head is
stale. -/
theorem reachable_pop {s : RingState β}
    (reached : (ringMachine β size elementSize).Reachable s)
    (idle : s.consumer = .idle) (stale : s.ring.cachedHead = s.ring.tail)
    (nonempty : s.ring.head ≠ s.ring.tail) (bytes : 0 < s.ring.elementSize) :
    (ringMachine β size elementSize).Reachable (poppedState s) := by
  have loaded : (ringMachine β size elementSize).Reachable
      { s with consumer := .reloading false s.ring.tail } :=
    reachable_consumerStep .pop reached (by simp [consumerStep, idle, stale])
  have reloaded : (ringMachine β size elementSize).Reachable
      { s with
        ring := { s.ring with cachedHead := s.ring.head }
        consumer := .popFetching s.ring.tail } :=
    reachable_consumerStep .advance loaded (by simp [consumerStep, nonempty])
  have fetched := reachable_consumerStep .advance reloaded rfl
  have released := reachable_consumerStep .advance fetched rfl
  exact reachable_popRead (s := { poppedState s with reads := s.reads })
    (s.ring.data s.ring.tail) (s.ring.elementSize - 1) 0
    (by simp only [poppedState]; omega) released

/-- Pushing without touching the element: its old bytes are published again. -/
theorem reachable_pushAgain {s : RingState β}
    (reached : (ringMachine β size elementSize).Reachable s) (idle : s.producer = .idle)
    (room : pushLimit s.ring.size s.ring.head ≠ s.ring.tail) :
    ∃ cachedTail used, (cachedTail = s.ring.tail ∨ cachedTail = s.ring.cachedTail) ∧
      (ringMachine β size elementSize).Reachable
        { pushedState s cachedTail with used := used } := by
  have given : (ringMachine β size elementSize).Reachable
      { s with producer := .filling s.ring.head, used := s.ring.head :: s.used } :=
    reachable_producerStep .getTmpElement reached (by simp [producerStep, idle])
  obtain ⟨cachedTail, copied, pushed⟩ := reachable_push given rfl room
  exact ⟨cachedTail, _, copied, pushed⟩

/-! ## The overrun -/

/-- For the two largest sizes the comparison of `queue_push` never meets slot 2. -/
theorem pushLimit_ne_two {h : Nat} (large : size = 2 ^ 32 - 2 ∨ size = 2 ^ 32 - 1)
    (inside : h < size) : pushLimit size h ≠ 2 := by
  unfold pushLimit u32
  rcases large with rfl | rfl <;> omega

/-- What a ring with its tail at slot 2 and nobody consuming looks like while it
is filled over and over. -/
structure Filling (s target : RingState β) (count : Nat) : Prop where
  producer_eq : target.producer = .idle
  consumer_eq : target.consumer = s.consumer
  reads_eq : target.reads = s.reads
  pushed_eq : s.pushed <+: target.pushed
  size_eq : target.ring.size = s.ring.size
  elementSize_eq : target.ring.elementSize = s.ring.elementSize
  elements_eq : target.ring.elements = s.ring.elements
  tail_eq : target.ring.tail = s.ring.tail
  cachedHead_eq : target.ring.cachedHead = s.ring.cachedHead
  head_eq : target.ring.head = (s.ring.head + count) % s.ring.size

/-- Any number of pushes goes through when the tail stands at slot 2. -/
theorem reachable_fill {s : RingState β}
    (large : s.ring.size = 2 ^ 32 - 2 ∨ s.ring.size = 2 ^ 32 - 1)
    (reached : (ringMachine β size elementSize).Reachable s) (idle : s.producer = .idle)
    (tail : s.ring.tail = 2) (inside : s.ring.head < s.ring.size) (count : Nat) :
    ∃ target, (ringMachine β size elementSize).Reachable target ∧ Filling s target count := by
  induction count with
  | zero =>
      exact ⟨s, reached, ⟨idle, rfl, rfl, List.prefix_rfl, rfl, rfl, rfl, rfl, rfl,
        (Nat.mod_eq_of_lt inside).symm⟩⟩
  | succ count ih =>
      obtain ⟨target, reached, filling⟩ := ih
      have hhead : target.ring.head < target.ring.size := by
        rw [filling.head_eq, filling.size_eq]
        exact Nat.mod_lt _ (by omega)
      have hroom : pushLimit target.ring.size target.ring.head ≠ target.ring.tail := by
        rw [filling.tail_eq, tail]
        exact pushLimit_ne_two (by rw [filling.size_eq]; exact large) hhead
      obtain ⟨cachedTail, used, -, reached⟩ :=
        reachable_pushAgain reached filling.producer_eq hroom
      refine ⟨_, reached,
        { filling with
          producer_eq := rfl, pushed_eq := filling.pushed_eq.trans (List.prefix_append _ _),
          head_eq := ?_ }⟩
      have hfit : target.ring.head + 1 < 2 ^ 32 := by
        rw [filling.size_eq] at hhead
        omega
      rw [show (pushedState target cachedTail).ring.head =
          u32 (target.ring.head + 1) % target.ring.size from rfl,
        u32_of_lt hfit, filling.head_eq, filling.size_eq, Nat.mod_add_mod, Nat.add_assoc]

/-- A ring through which `count` untouched elements have passed, and which is
empty again. -/
structure Drained (zero : β) (count : Nat) (s : RingState β) : Prop where
  producer_eq : s.producer = .idle
  consumer_eq : s.consumer = .idle
  elements_eq : s.ring.elements = fun _ _ => zero
  head_eq : s.ring.head = count
  tail_eq : s.ring.tail = count
  cachedHead_eq : s.ring.cachedHead = count
  pushed_eq : s.pushed = List.replicate count (List.replicate s.ring.elementSize zero)
  reads_eq : s.reads = s.pushed

theorem content_of_elements_const (q : DataSpscRing β) {zero : β}
    (untouched : q.elements = fun _ _ => zero) (e : Nat) :
    q.content e = List.replicate q.elementSize zero := by
  simp [DataSpscRing.content, untouched, List.map_const']

/-- One more element passes through an empty ring, away from the end of the
array. -/
theorem reachable_pass {zero : β} {s : RingState β} {count : Nat}
    (reached : (ringMachine β size elementSize).Reachable s) (drained : Drained zero count s)
    (bytes : 0 < s.ring.elementSize) (inside : count + 3 < s.ring.size)
    (small : s.ring.size < 2 ^ 32) :
    ∃ target, (ringMachine β size elementSize).Reachable target ∧
      Drained zero (count + 1) target ∧ target.ring.size = s.ring.size ∧
      target.ring.elementSize = s.ring.elementSize := by
  have hlimit : pushLimit s.ring.size s.ring.head ≠ s.ring.tail := by
    rw [drained.head_eq, drained.tail_eq, pushLimit, u32_of_lt (by omega),
      Nat.mod_eq_of_lt inside]
    omega
  have hnext : u32 (count + 1) % s.ring.size = count + 1 := by
    rw [u32_of_lt (by omega), Nat.mod_eq_of_lt (by omega)]
  obtain ⟨cachedTail, used, -, reached⟩ := reachable_pushAgain reached drained.producer_eq hlimit
  have popped := reachable_pop reached drained.consumer_eq
    (by simp [pushedState, drained.cachedHead_eq, drained.tail_eq])
    (by simp [pushedState, drained.head_eq, drained.tail_eq, hnext]) bytes
  refine ⟨_, popped, ?_, rfl, rfl⟩
  have hcontent (e : Nat) : s.ring.content e = List.replicate s.ring.elementSize zero :=
    content_of_elements_const s.ring drained.elements_eq e
  constructor
  · rfl
  · rfl
  · exact drained.elements_eq
  · simp [poppedState, pushedState, drained.head_eq, hnext]
  · simp [poppedState, pushedState, drained.tail_eq, hnext]
  · simp [poppedState, pushedState, drained.head_eq, hnext]
  · simp [poppedState, pushedState, drained.pushed_eq, hcontent, List.replicate_succ']
  · have hsame : (pushedState s cachedTail).ring.content
        ((pushedState s cachedTail).ring.data (pushedState s cachedTail).ring.tail) =
          s.ring.content s.ring.head := by
      simp only [DataSpscRing.content, pushedState, drained.elements_eq,
        List.map_const', List.length_range]
    simp only [poppedState, hsame]
    simp only [pushedState, drained.reads_eq]

/-- Two elements have passed through a fresh ring of one of the two largest
sizes. -/
theorem exists_drained_two (zero : β) (large : size = 2 ^ 32 - 4 ∨ size = 2 ^ 32 - 3)
    (bytes : 0 < elementSize) :
    ∃ s, (ringMachine β size elementSize).Reachable s ∧ Drained zero 2 s ∧
      s.ring.size = size + 2 ∧ s.ring.elementSize = elementSize := by
  have hsize : u32 (size + 2) = size + 2 := u32_of_lt (by omega)
  have started : (ringMachine β size elementSize).Reachable
      (.fresh
        { size := size + 2, elementSize := elementSize, head := 0, tail := 0,
          cachedHead := 0, cachedTail := 0, data := fun _ => 0,
          elements := fun _ _ => zero }) := by
    refine .start ⟨fun _ => 0, fun _ _ => zero, _, ?_, rfl⟩
    rw [dataSpscRingInit, if_neg (by omega), hsize]
  obtain ⟨s₁, reached₁, drained₁, hsize₁, helement₁⟩ :=
    reachable_pass started (⟨rfl, rfl, rfl, rfl, rfl, rfl, rfl, rfl⟩ : Drained zero 0 _) bytes
      (by simp only [RingState.fresh]; omega) (by simp only [RingState.fresh]; omega)
  simp only [RingState.fresh] at hsize₁ helement₁
  obtain ⟨s₂, reached₂, drained₂, hsize₂, helement₂⟩ :=
    reachable_pass reached₁ drained₁ (by omega) (by omega) (by omega)
  exact ⟨s₂, reached₂, drained₂, by omega, by omega⟩

/-- The overrun: after two elements have passed, one turn of pushes brings the
head back to the tail, and the next push replaces the oldest unread element. -/
theorem exists_not_lossless {zero one : β} (different : zero ≠ one)
    (large : size = 2 ^ 32 - 4 ∨ size = 2 ^ 32 - 3) (bytes : 0 < elementSize) :
    ∃ s, (ringMachine β size elementSize).Reachable s ∧ ¬ Lossless s := by
  obtain ⟨s, reached, drained, hsize, helement⟩ := exists_drained_two zero large bytes
  have hlarge : s.ring.size = 2 ^ 32 - 2 ∨ s.ring.size = 2 ^ 32 - 1 := by omega
  -- the element that will be lost
  obtain ⟨cachedTail, used, -, reached⟩ := reachable_pushAgain reached drained.producer_eq (by
    rw [drained.tail_eq]
    exact pushLimit_ne_two hlarge (by rw [drained.head_eq]; omega))
  have hhead : (pushedState s cachedTail).ring.head = 3 := by
    simp only [pushedState, drained.head_eq, u32_of_lt (by omega : 2 + 1 < 2 ^ 32)]
    exact Nat.mod_eq_of_lt (by omega)
  -- one turn: the head comes back to slot 2
  obtain ⟨t, reached, filling⟩ :=
    reachable_fill (s := { pushedState s cachedTail with used := used }) hlarge reached rfl
      drained.tail_eq (by rw [hhead]; simp only [pushedState]; omega) (s.ring.size - 1)
  have htail : t.ring.tail = 2 := filling.tail_eq.trans drained.tail_eq
  have ht : t.ring.head = 2 := by
    rw [filling.head_eq, hhead]
    simp only [pushedState]
    rw [show 3 + (s.ring.size - 1) = 2 + s.ring.size by omega, Nat.add_mod_right,
      Nat.mod_eq_of_lt (by omega)]
  have htsize : t.ring.size = s.ring.size := filling.size_eq
  have htelement : t.ring.elementSize = elementSize := filling.elementSize_eq.trans helement
  -- the producer writes into the unread element at slot 2 and pushes it
  have given : (ringMachine β size elementSize).Reachable
      { t with producer := .filling t.ring.head, used := t.ring.head :: t.used } :=
    reachable_producerStep .getTmpElement reached (by simp [producerStep, filling.producer_eq])
  have written : (ringMachine β size elementSize).Reachable
      { t with
        ring := t.ring.writeElement t.ring.head 0 one
        producer := .filling t.ring.head
        used := t.ring.head :: t.used } :=
    reachable_producerStep (.write 0 one) given (by simp [producerStep, htelement, bytes])
  obtain ⟨cachedTail', -, reached⟩ := reachable_push written rfl (by
    simp only [DataSpscRing.writeElement, htail]
    exact pushLimit_ne_two (by rw [htsize]; exact hlarge) (by omega))
  have hnext : u32 (t.ring.head + 1) % t.ring.size = 3 := by
    rw [ht, u32_of_lt (by omega), Nat.mod_eq_of_lt (by omega)]
  have popped := reachable_pop reached
    (by simpa [pushedState] using filling.consumer_eq.trans drained.consumer_eq)
    (by simpa [pushedState, DataSpscRing.writeElement, htail] using
      filling.cachedHead_eq.trans drained.cachedHead_eq)
    (by simp [pushedState, DataSpscRing.writeElement, htail, hnext])
    (by simp [pushedState, DataSpscRing.writeElement, htelement, bytes])
  refine ⟨_, popped, fun lossless => different ?_⟩
  -- what was read and what was pushed first have the same length, so they agree
  set replaced := (t.ring.writeElement t.ring.head 0 one).content t.ring.head with hreplaced
  have hlost : s.pushed ++ [replaced] <+: t.pushed ++ [replaced] := by
    have hreads : t.reads = s.pushed := filling.reads_eq.trans drained.reads_eq
    simpa [Lossless, poppedState, pushedState, hreads, ht, htail, hreplaced,
      DataSpscRing.writeElement, DataSpscRing.content] using lossless
  have hfirst : s.pushed ++ [s.ring.content s.ring.head] <+: t.pushed ++ [replaced] :=
    filling.pushed_eq.trans (List.prefix_append _ _)
  have hsame : s.pushed ++ [replaced] = s.pushed ++ [s.ring.content s.ring.head] :=
    (List.prefix_of_prefix_length_le hlost hfirst (by simp)).eq_of_length (by simp)
  have hbyte : replaced[0]? = (s.ring.content s.ring.head)[0]? := by
    have hlast : replaced = s.ring.content s.ring.head := by simpa using hsame
    rw [hlast]
  rw [content_of_elements_const s.ring drained.elements_eq, hreplaced,
    DataSpscRing.content_getElem? _ _ (by simpa [DataSpscRing.writeElement, htelement])] at hbyte
  simpa [DataSpscRing.writeElement, helement, bytes] using hbyte.symm

/-! ## The exact condition -/

/-- **The ring is a lossless queue exactly when `h + 3` cannot wrap.** For every
size that `data_spsc_ring_init` can represent and every element size, all
interleavings of one producer and one consumer deliver the pushed contents in
order, stay inside the arrays and keep the element at the head private, if and
only if the size is not one of the two for which the comparison of `queue_push`
overflows. -/
theorem ring_isLosslessQueue_iff (size elementSize : Nat) (slots : 1 ≤ size)
    (representable : size + 2 < 2 ^ 32) (bytes : 1 ≤ elementSize) :
    (∀ s, (ringMachine UInt8 size elementSize).Reachable s →
      Lossless s ∧ IndicesInRange s ∧ HeadIsPrivate s) ↔ size + 4 < 2 ^ 32 := by
  constructor
  · intro holds
    by_contra hwraps
    have hlarge : size = 2 ^ 32 - 4 ∨ size = 2 ^ 32 - 3 := by omega
    obtain ⟨s, reached, lost⟩ := exists_not_lossless
      (by decide : (0 : UInt8) ≠ 1) hlarge bytes
    exact lost (holds s reached).1
  · intro bounded s reached
    obtain ⟨ct, ch, inv⟩ := ringInv_of_reachable bounded reached
    exact ⟨inv.reads_eq, inv.used_lt, inv.headIsPrivate⟩

/-- A ring of two slots of one byte is below the bound. -/
theorem ring_isLosslessQueue_two_slots :
    (1 ≤ 2 ∧ 2 + 2 < 2 ^ 32 ∧ 1 ≤ 1) ∧
      ((∀ s, (ringMachine UInt8 2 1).Reachable s →
        Lossless s ∧ IndicesInRange s ∧ HeadIsPrivate s) ↔ 2 + 4 < 2 ^ 32) :=
  ⟨by decide, ring_isLosslessQueue_iff 2 1 (by decide) (by decide) (by decide)⟩

/-- The largest size that `size + 2` does not wrap loses an element. -/
theorem ring_overrun_largest_size :
    ¬ ∀ size elementSize, 1 ≤ size → size + 2 < 2 ^ 32 → 1 ≤ elementSize →
      ∀ s, (ringMachine UInt8 size elementSize).Reachable s →
        Lossless s ∧ IndicesInRange s ∧ HeadIsPrivate s := by
  intro holds
  obtain ⟨s, reached, lost⟩ := exists_not_lossless
    (by decide : (0 : UInt8) ≠ 1) (Or.inr rfl : 2 ^ 32 - 3 = 2 ^ 32 - 4 ∨ _) one_pos
  exact lost (holds (2 ^ 32 - 3) 1 (by decide) (by decide) le_rfl s reached).1

end MmtProbe.Capture
