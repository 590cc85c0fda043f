/-
# The bulk ring of the DPDK module

`spsc_ring.h` is a ring in which one producer puts batches and from which one consumer
takes bursts.  Head and tail are kept modulo the size, and all the slots are used, so that
a ring that is full and one that is empty have the same head and tail.  Both sides take
the ring for empty then: the consumer returns nothing, and the producer has room for a
whole turn.

As in `SpscRing`, every access to `_head`, `_tail` or a slot is a step of its own.  The
cached numbers are private and are folded into the steps that use them.  The history
fields (`enqueued`, `dequeued`, `stored`, `empties`) are never consulted by a step.  The
counters of the two copying loops are of type `int`, and are followed here as long as
they do not overflow.
-/

import MmtProbe.Math.Machine
import MmtProbe.Math.Word

namespace MmtProbe.Capture

open MmtProbe.Math

universe u

/-- `spsc_ring_t` -/
structure BulkRing (α : Type u) where
  /-- `_head` -/
  head : Nat
  /-- `_cache_free`, private to the producer. -/
  cacheFree : Nat
  /-- `_tail` -/
  tail : Nat
  /-- `_cache_count`, private to the consumer. -/
  cacheCount : Nat
  /-- `_size` -/
  size : Nat
  /-- `_data` -/
  data : Nat → α

/-- `ring_create`; the array keeps whatever was in its memory. -/
def ringCreate {α : Type u} (size : Nat) (data : Nat → α) : BulkRing α where
  head := 0
  cacheFree := size
  tail := 0
  cacheCount := 0
  size := size
  data := data

/-- Where the producer stands in `ring_enqueue_bulk`. -/
inductive BulkProducer (α : Type u)
  | /-- Between two calls. -/
    idle
  | /-- There seems to be too little room, and the tail must be loaded. -/
    reloading (batch : List α) (h : Nat)
  | /-- About to store the `i`-th element of the batch. -/
    storing (batch : List α) (h i : Nat)
  | /-- About to store `_head`. -/
    publishing (batch : List α) (h : Nat)

/-- Where the consumer stands in `ring_dequeue_burst`. -/
inductive BulkConsumer (α : Type u)
  | /-- Between two calls. -/
    idle
  | /-- Nothing is known to be in the ring, and the head must be loaded. `before` elements had
    been enqueued when the call began. -/
    reloading (len t before : Nat)
  | /-- About to load the next one of `len` elements. -/
    fetching (len t : Nat) (val : List α)
  | /-- About to store `_tail`. -/
    releasing (t : Nat) (val : List α)

/-- The elements of the current batch that are in the array. -/
def BulkProducer.pending {α : Type u} : BulkProducer α → List α
  | .storing batch _ i => batch.take i
  | .publishing batch _ => batch
  | _ => []

/-- A bulk ring with its two users, and what happened so far. -/
structure BulkState (α : Type u) where
  ring : BulkRing α
  producer : BulkProducer α
  consumer : BulkConsumer α
  /-- The batches for which a count was returned, one after the other. -/
  enqueued : List α
  /-- What the consumer was given. -/
  dequeued : List α
  /-- The slots that were written, in order. -/
  stored : List Nat
  /-- The calls that asked for something and got nothing: how many elements had been enqueued
  before the call, and how many had been dequeued at its end. -/
  empties : List (Nat × Nat)

/-- The steps of the two users: the beginning of a call, or the next access in it. -/
inductive BulkAct (α : Type u)
  | enqueueBulk (batch : List α)
  | produce
  | dequeueBurst (len : Nat)
  | consume

variable {α : Type u}

/-! ## The code -/

/-- A position that goes on by one slot. -/
def nextSlot (size position : Nat) : Nat :=
  if u32 (position + 1) = size then 0 else u32 (position + 1)

/-- The number of free slots that the producer computes from a tail. -/
def freeSlots (size tail h : Nat) : Nat :=
  if tail < h then u32 (tail + size - h) else if tail = h then size else tail - h

/-- The number of elements that the consumer computes from a head. -/
def countSlots (size head t : Nat) : Nat :=
  if head ≥ t then head - t else u32 (head + size - t)

/-- The loop of `ring_enqueue_bulk`, when `i` elements were stored. -/
def storeLoop (batch : List α) (h i : Nat) : BulkProducer α :=
  if i < batch.length then .storing batch h i else .publishing batch h

/-- The loop of `ring_dequeue_burst`, when some elements were loaded. -/
def fetchLoop (len t : Nat) (val : List α) : BulkConsumer α :=
  if val.length < len then .fetching len t val else .releasing t val

/-- The accesses of `ring_enqueue_bulk`. -/
def enqueueStep (s : BulkState α) : Option (BulkState α) :=
  match s.producer with
  | .idle => none
  | .reloading batch h =>
      let free := freeSlots s.ring.size s.ring.tail h
      some { s with
        ring := { s.ring with cacheFree := free }
        producer := if free < batch.length then .idle else storeLoop batch h 0 }
  | .storing batch h i =>
      batch[i]?.map fun element =>
        { s with
          ring := { s.ring with data := fun slot => if slot = h then element else s.ring.data slot }
          producer := storeLoop batch (nextSlot s.ring.size h) (i + 1)
          stored := s.stored ++ [h] }
  | .publishing batch h =>
      some { s with
        ring := { s.ring with head := h, cacheFree := s.ring.cacheFree - batch.length }
        producer := .idle
        enqueued := s.enqueued ++ batch }

/-- The accesses of `ring_dequeue_burst`. -/
def dequeueStep (s : BulkState α) : Option (BulkState α) :=
  match s.consumer with
  | .idle => none
  | .reloading len t before =>
      let count := countSlots s.ring.size s.ring.head t
      if count = 0 then
        some { s with
          ring := { s.ring with cacheCount := 0 }
          consumer := .idle
          empties := if 0 < len then s.empties ++ [(before, s.dequeued.length)] else s.empties }
      else
        some { s with
          ring := { s.ring with cacheCount := count }
          consumer := fetchLoop (min len count) t [] }
  | .fetching len t val =>
      some { s with
        consumer := fetchLoop len (nextSlot s.ring.size t) (val ++ [s.ring.data t]) }
  | .releasing t val =>
      some { s with
        ring := { s.ring with tail := t, cacheCount := s.ring.cacheCount - val.length }
        consumer := .idle
        dequeued := s.dequeued ++ val }

/-- One step of the producer or of the consumer. -/
def bulkStep (s : BulkState α) : BulkAct α → Option (BulkState α)
  | .enqueueBulk batch =>
      match s.producer with
      | .idle =>
          some { s with
            producer :=
              if s.ring.cacheFree < batch.length then .reloading batch s.ring.head
              else storeLoop batch s.ring.head 0 }
      | _ => none
  | .produce => enqueueStep s
  | .dequeueBurst len =>
      match s.consumer with
      | .idle =>
          some { s with
            consumer :=
              if s.ring.cacheCount = 0 then .reloading len s.ring.tail s.enqueued.length
              else fetchLoop (min len s.ring.cacheCount) s.ring.tail [] }
      | _ => none
  | .consume => dequeueStep s

/-- A ring that nobody has used yet. -/
def BulkState.fresh (q : BulkRing α) : BulkState α :=
  ⟨q, .idle, .idle, [], [], [], []⟩

/-- A ring made by `ring_create`, with one producer and one consumer. -/
def bulkMachine (α : Type u) (size : Nat) : Machine (BulkState α) (BulkAct α) where
  init s := ∃ data, s = .fresh (ringCreate size data)
  step := bulkStep

/-! ## What the ring is for -/

/-- The next slot to be written does not hold an element that was not dequeued. -/
def NothingOverwritten (s : BulkState α) : Prop :=
  match s.producer with
  | .storing _ h _ => h ∉ s.stored.drop s.dequeued.length
  | _ => True

/-- First in, first out: what was dequeued came first, nothing is overwritten, and a call that
returns nothing finds everything dequeued that was there before. -/
structure IsFifo (s : BulkState α) : Prop where
  ordered : s.dequeued <+: s.enqueued
  kept : NothingOverwritten s
  drained : ∀ call ∈ s.empties, call.1 ≤ call.2

/-- The next access of the producer does not fill the ring: the head it stores behind a batch
is not the tail. The counter of its loop stays in its range. -/
def BulkProducer.LeavesRoom (tail : Nat) : BulkProducer α → Prop
  | storing _ _ i => i + 1 < 2 ^ 31
  | publishing batch h => batch.length = 0 ∨ h ≠ tail
  | _ => True

instance (tail : Nat) : ∀ producer : BulkProducer α, Decidable (producer.LeavesRoom tail)
  | .idle => inferInstanceAs (Decidable True)
  | .reloading _ _ => inferInstanceAs (Decidable True)
  | .storing _ _ _ => inferInstanceAs (Decidable (_ < _))
  | .publishing _ _ => inferInstanceAs (Decidable (_ ∨ _))

/-- The counter of the loop of the consumer stays in its range. -/
def BulkConsumer.InRange : BulkConsumer α → Prop
  | fetching _ _ val => val.length + 1 < 2 ^ 31
  | _ => True

instance : ∀ consumer : BulkConsumer α, Decidable consumer.InRange
  | .idle => inferInstanceAs (Decidable True)
  | .reloading _ _ _ => inferInstanceAs (Decidable True)
  | .fetching _ _ _ => inferInstanceAs (Decidable (_ < _))
  | .releasing _ _ => inferInstanceAs (Decidable True)

/-- A step that does not fill the ring. -/
def NeverFull (s : BulkState α) : BulkAct α → Prop
  | .produce => s.producer.LeavesRoom s.ring.tail
  | .consume => s.consumer.InRange
  | _ => True

instance (s : BulkState α) : ∀ act, Decidable (NeverFull s act)
  | .produce => inferInstanceAs (Decidable (s.producer.LeavesRoom s.ring.tail))
  | .consume => inferInstanceAs (Decidable s.consumer.InRange)
  | .enqueueBulk _ => inferInstanceAs (Decidable True)
  | .dequeueBurst _ => inferInstanceAs (Decidable True)

/-! ## Positions and counts -/

section

variable {size : Nat}

/-- A position goes on like the count it stands for. -/
theorem nextSlot_mod (positive : 0 < size) (small : size < 2 ^ 32) (count : Nat) :
    nextSlot size (count % size) = (count + 1) % size := by
  have hlt : count % size < size := Nat.mod_lt _ positive
  rw [nextSlot, u32_of_lt (by omega)]
  split_ifs with hend
  · rw [← Nat.mod_add_mod, hend, Nat.mod_self]
  · rw [mod_add_eq_of_lt (by omega)]

/-- Below a full ring, the free slots are counted right. -/
theorem freeSlots_le {first last : Nat} (small : size < 2 ^ 32) (ordered : first ≤ last)
    (notFull : last < first + size) :
    last + freeSlots size (first % size) (last % size) ≤ first + size := by
  have hlast : last % size < size := Nat.mod_lt _ (by omega)
  have hfirst : first % size < size := Nat.mod_lt _ (by omega)
  rw [freeSlots]
  split_ifs with hless hsame
  · have hbetween := sub_of_mod_lt ordered notFull hless
    rw [u32_of_lt (by omega)]
    omega
  · have hempty := eq_of_mod_eq_of_lt ordered notFull hsame
    omega
  · have hlarger : last % size < first % size := by omega
    by_contra hmore
    have hpoint : (last + (first % size - last % size)) % size = first % size := by
      rw [mod_add_eq_of_lt (by omega)]
      omega
    have hturn : (first + size) % size = first % size := Nat.add_mod_right _ _
    have hequal := eq_of_mod_eq_of_lt
      (show first + size ≤ last + (first % size - last % size) by omega) (by omega)
      (hturn.trans hpoint.symm)
    omega

/-- Below a full ring, the elements are counted right. -/
theorem countSlots_eq {first last : Nat} (small : size < 2 ^ 32) (ordered : first ≤ last)
    (notFull : last < first + size) :
    countSlots size (last % size) (first % size) = last - first := by
  have hlast : last % size < size := Nat.mod_lt _ (by omega)
  have hfirst : first % size < size := Nat.mod_lt _ (by omega)
  rw [countSlots]
  split_ifs with hge
  · rcases Nat.eq_or_lt_of_le hge with hsame | hless
    · have hempty := eq_of_mod_eq_of_lt ordered notFull hsame
      omega
    · exact sub_of_mod_lt ordered notFull hless
  · have hlarger : last % size < first % size := by omega
    rw [u32_of_lt (by omega)]
    have hpoint : (first + (last % size + size - first % size)) % size = last % size := by
      rw [← Nat.mod_add_mod]
      have hsum : first % size + (last % size + size - first % size) = last % size + size := by
        omega
      rw [hsum, Nat.add_mod_right, Nat.mod_mod]
    rcases Nat.le_total (first + (last % size + size - first % size)) last with hle | hle
    · have hequal := eq_of_mod_eq_of_lt hle (by omega) hpoint
      omega
    · have hequal := eq_of_mod_eq_of_lt hle (by omega) hpoint.symm
      omega

end

/-! ## The invariant -/

/-- Everything that was written into the array. -/
def BulkState.written (s : BulkState α) : List α := s.enqueued ++ s.producer.pending

/-- What the producer knows at each point. -/
def BulkProducerInv (s : BulkState α) : Prop :=
  match s.producer with
  | .idle => True
  | .reloading _ h => h = s.enqueued.length % s.ring.size
  | .storing batch h i =>
      i < batch.length ∧ batch.length ≤ s.ring.cacheFree ∧
        h = (s.enqueued.length + i) % s.ring.size
  | .publishing batch h =>
      batch.length ≤ s.ring.cacheFree ∧ h = (s.enqueued.length + batch.length) % s.ring.size

/-- The elements that the consumer has loaded are the next ones. -/
def LoadedInv (s : BulkState α) (t : Nat) (val : List α) : Prop :=
  val = (s.enqueued.drop s.dequeued.length).take val.length ∧
    t = (s.dequeued.length + val.length) % s.ring.size

/-- What the consumer knows at each point. -/
def BulkConsumerInv (s : BulkState α) : Prop :=
  match s.consumer with
  | .idle => True
  | .reloading _ t before => t = s.dequeued.length % s.ring.size ∧ before ≤ s.enqueued.length
  | .fetching len t val => val.length < len ∧ len ≤ s.ring.cacheCount ∧ LoadedInv s t val
  | .releasing t val => val.length ≤ s.ring.cacheCount ∧ LoadedInv s t val

/-- The invariant of a ring that is never full. -/
structure BulkInv (s : BulkState α) : Prop where
  size_pos : 0 < s.ring.size
  size_lt : s.ring.size < 2 ^ 32
  head_eq : s.ring.head = s.enqueued.length % s.ring.size
  tail_eq : s.ring.tail = s.dequeued.length % s.ring.size
  notFull : s.enqueued.length < s.dequeued.length + s.ring.size
  free_le : s.enqueued.length + s.ring.cacheFree ≤ s.dequeued.length + s.ring.size
  count_le : s.dequeued.length + s.ring.cacheCount ≤ s.enqueued.length
  stored_eq : s.stored = (List.range s.written.length).map (· % s.ring.size)
  content_eq : ∀ j, s.dequeued.length ≤ j → j < s.written.length →
    s.written[j]? = some (s.ring.data (j % s.ring.size))
  ordered : s.dequeued <+: s.enqueued
  drained : ∀ call ∈ s.empties, call.1 ≤ call.2
  producer_inv : BulkProducerInv s
  consumer_inv : BulkConsumerInv s

variable {s : BulkState α} {batch val : List α} {h i t len : Nat}

theorem pending_storeLoop (batch : List α) (h i : Nat) :
    (storeLoop batch h i).pending = batch.take i := by
  rw [storeLoop]
  split_ifs with hmore
  · rfl
  · exact (List.take_of_length_le (Nat.le_of_not_lt hmore)).symm

theorem bulkProducerInv_storeLoop (stands : s.producer = storeLoop batch h i)
    (stored : i ≤ batch.length) (fits : batch.length ≤ s.ring.cacheFree)
    (place : h = (s.enqueued.length + i) % s.ring.size) : BulkProducerInv s := by
  rw [storeLoop] at stands
  rw [BulkProducerInv]
  split_ifs at stands with hmore
  · rw [stands]
    exact ⟨hmore, fits, place⟩
  · obtain rfl : i = batch.length := Nat.le_antisymm stored (Nat.le_of_not_lt hmore)
    rw [stands]
    exact ⟨fits, place⟩

theorem bulkConsumerInv_fetchLoop (stands : s.consumer = fetchLoop len t val)
    (loaded : val.length ≤ len) (known : len ≤ s.ring.cacheCount) (next : LoadedInv s t val) :
    BulkConsumerInv s := by
  rw [fetchLoop] at stands
  rw [BulkConsumerInv]
  split_ifs at stands with hmore
  · rw [stands]
    exact ⟨hmore, known, next⟩
  · rw [stands]
    exact ⟨loaded.trans known, next⟩

namespace BulkInv

theorem dequeued_le (inv : BulkInv s) : s.dequeued.length ≤ s.enqueued.length :=
  inv.ordered.length_le

/-- A slot that is free is none of those that hold an element. -/
theorem mod_ne_of_free (inv : BulkInv s) {j k : Nat} (held : s.dequeued.length ≤ j)
    (earlier : j < k) (free : k < s.enqueued.length + s.ring.cacheFree) :
    j % s.ring.size ≠ k % s.ring.size := by
  have hfree := inv.free_le
  exact (mod_ne_of_lt earlier (by omega)).symm

/-! ### The producer -/

/-- Another place in the code, with nothing stored before and after. -/
theorem setProducer (inv : BulkInv s) (producer : BulkProducer α)
    (before : s.producer.pending = []) (after : producer.pending = [])
    (known : BulkProducerInv { s with producer := producer }) :
    BulkInv { s with producer := producer } := by
  have hwritten : ({ s with producer := producer } : BulkState α).written = s.written := by
    rw [BulkState.written, BulkState.written, before, after]
  exact { inv with
    stored_eq := by rw [hwritten]; exact inv.stored_eq
    content_eq := by rw [hwritten]; exact inv.content_eq
    producer_inv := known }

/-- The loop is entered with enough room. -/
theorem beginStore (inv : BulkInv s) (before : s.producer.pending = [])
    (fits : batch.length ≤ s.ring.cacheFree) (place : h = s.enqueued.length % s.ring.size) :
    BulkInv { s with producer := storeLoop batch h 0 } := by
  refine inv.setProducer _ before ?_ (bulkProducerInv_storeLoop rfl (Nat.zero_le _) fits place)
  rw [pending_storeLoop, List.take_zero]

/-- The tail is loaded. -/
theorem reloadTail (inv : BulkInv s) (hp : s.producer = .reloading batch h) :
    BulkInv { s with
      ring := { s.ring with cacheFree := freeSlots s.ring.size s.ring.tail h }
      producer := .idle } := by
  have hprod := inv.producer_inv
  simp only [BulkProducerInv, hp] at hprod
  have hfree : s.enqueued.length + freeSlots s.ring.size s.ring.tail h ≤
      s.dequeued.length + s.ring.size := by
    rw [hprod, inv.tail_eq]
    exact freeSlots_le inv.size_lt inv.dequeued_le inv.notFull
  have hidle := inv.setProducer .idle (by rw [hp]; rfl) rfl trivial
  exact { hidle with free_le := hfree, producer_inv := trivial }

/-- An element is stored. -/
theorem store (inv : BulkInv s) (hp : s.producer = .storing batch h i) {element : α}
    (taken : batch[i]? = some element) :
    BulkInv { s with
      ring := { s.ring with data := fun slot => if slot = h then element else s.ring.data slot }
      producer := storeLoop batch (nextSlot s.ring.size h) (i + 1)
      stored := s.stored ++ [h] } := by
  have hprod := inv.producer_inv
  simp only [BulkProducerInv, hp] at hprod
  obtain ⟨hmore, hfits, rfl⟩ := hprod
  have hbefore : s.written = s.enqueued ++ batch.take i := by
    rw [BulkState.written, hp]
    rfl
  have hlength : s.written.length = s.enqueued.length + i := by
    rw [hbefore, List.length_append, List.length_take]
    omega
  have hafter : s.enqueued ++ (storeLoop batch
      (nextSlot s.ring.size ((s.enqueued.length + i) % s.ring.size)) (i + 1)).pending =
      s.written ++ [element] := by
    rw [pending_storeLoop, List.take_add_one, taken, hbefore, List.append_assoc]
    rfl
  refine { inv with
    stored_eq := ?_, content_eq := ?_, producer_inv := ?_, consumer_inv := inv.consumer_inv }
  · rw [BulkState.written, hafter, List.length_append, List.length_singleton, List.range_succ,
      List.map_append, List.map_singleton, hlength, ← hlength, ← inv.stored_eq, hlength]
  · intro j hheld hj
    rw [BulkState.written, hafter] at hj ⊢
    rw [List.length_append, List.length_singleton] at hj
    rcases Nat.eq_or_lt_of_le (Nat.le_of_lt_succ hj) with rfl | hearlier
    · rw [List.getElem?_concat_length, hlength]
      exact congrArg some (if_pos rfl).symm
    · rw [List.getElem?_append_left hearlier, inv.content_eq j hheld hearlier]
      have hother := inv.mod_ne_of_free hheld
        (show j < s.enqueued.length + i by omega) (by omega)
      exact congrArg some (if_neg hother).symm
  · refine bulkProducerInv_storeLoop rfl hmore hfits ?_
    rw [nextSlot_mod inv.size_pos inv.size_lt]
    rfl

/-- What the consumer has loaded stays the next when more is enqueued. -/
theorem consumerInv_append (inv : BulkInv s) {target : BulkState α}
    (consumer_eq : target.consumer = s.consumer) (ring_eq : target.ring.size = s.ring.size)
    (count_eq : target.ring.cacheCount = s.ring.cacheCount)
    (dequeued_eq : target.dequeued = s.dequeued)
    (enqueued_eq : target.enqueued = s.enqueued ++ batch) : BulkConsumerInv target := by
  have hcons := inv.consumer_inv
  have hcount := inv.count_le
  have hloaded {t : Nat} {val : List α} (known : val.length ≤ s.ring.cacheCount)
      (next : LoadedInv s t val) : LoadedInv target t val := by
    obtain ⟨hval, hplace⟩ := next
    refine ⟨?_, by rw [dequeued_eq, ring_eq, hplace]⟩
    rw [enqueued_eq, dequeued_eq, List.drop_append_of_le_length inv.dequeued_le,
      List.take_append_of_le_length (by rw [List.length_drop]; omega)]
    exact hval
  rw [BulkConsumerInv] at hcons ⊢
  rw [consumer_eq]
  cases hc : s.consumer with
  | idle => trivial
  | reloading len t before =>
      rw [hc] at hcons
      rw [dequeued_eq, ring_eq, enqueued_eq, List.length_append]
      exact ⟨hcons.1, hcons.2.trans (Nat.le_add_right _ _)⟩
  | fetching len t val =>
      rw [hc] at hcons
      rw [count_eq]
      exact ⟨hcons.1, hcons.2.1, hloaded (hcons.1.le.trans hcons.2.1) hcons.2.2⟩
  | releasing t val =>
      rw [hc] at hcons
      rw [count_eq]
      exact ⟨hcons.1, hloaded hcons.1 hcons.2⟩

/-- The head is stored. -/
theorem publish (inv : BulkInv s) (hp : s.producer = .publishing batch h)
    (room : s.producer.LeavesRoom s.ring.tail) :
    BulkInv { s with
      ring := { s.ring with head := h, cacheFree := s.ring.cacheFree - batch.length }
      producer := .idle
      enqueued := s.enqueued ++ batch } := by
  have hprod := inv.producer_inv
  simp only [BulkProducerInv, hp] at hprod
  obtain ⟨hfits, hplace⟩ := hprod
  have hfree := inv.free_le
  have hordered := inv.dequeued_le
  have hwritten : s.enqueued ++ batch ++ [] = s.written := by
    rw [List.append_nil, BulkState.written, hp]
    rfl
  have hnotFull : s.enqueued.length + batch.length < s.dequeued.length + s.ring.size := by
    rw [hp] at room
    rcases room with hempty | hroom
    · have hbefore := inv.notFull
      omega
    · -- with all its slots taken the ring would have its head at the tail
      rcases Nat.eq_or_lt_of_le
        (show s.enqueued.length + batch.length ≤ s.dequeued.length + s.ring.size by omega) with
        hfull | hless
      · rw [hfull, Nat.add_mod_right, ← inv.tail_eq] at hplace
        exact absurd hplace hroom
      · exact hless
  have hlength : (s.enqueued ++ batch).length = s.enqueued.length + batch.length :=
    List.length_append
  refine { inv with
    head_eq := hplace.trans (by rw [hlength])
    notFull := hlength.trans_lt hnotFull
    free_le := ?_, count_le := ?_, stored_eq := ?_, content_eq := ?_
    ordered := inv.ordered.trans (List.prefix_append _ _)
    producer_inv := trivial, consumer_inv := ?_ }
  · rw [hlength]
    exact (by omega : s.enqueued.length + batch.length + (s.ring.cacheFree - batch.length) ≤
      s.dequeued.length + s.ring.size)
  · rw [hlength]
    exact inv.count_le.trans (Nat.le_add_right _ _)
  · rw [BulkState.written]
    exact hwritten ▸ inv.stored_eq
  · rw [BulkState.written]
    exact hwritten ▸ inv.content_eq
  · exact inv.consumerInv_append rfl rfl rfl rfl rfl

/-! ### The consumer -/

/-- Another place in the code of the consumer. -/
theorem setConsumer (inv : BulkInv s) (consumer : BulkConsumer α)
    (known : BulkConsumerInv { s with consumer := consumer }) :
    BulkInv { s with consumer := consumer } :=
  { inv with consumer_inv := known }

/-- The loop is entered with some elements known. -/
theorem beginFetch (inv : BulkInv s) (place : t = s.dequeued.length % s.ring.size)
    (known : len ≤ s.ring.cacheCount) : BulkInv { s with consumer := fetchLoop len t [] } :=
  inv.setConsumer _ (bulkConsumerInv_fetchLoop rfl (Nat.zero_le _) known ⟨rfl, place⟩)

/-- The head is loaded: the number of elements is right. -/
theorem countSlots_head (inv : BulkInv s) (place : t = s.dequeued.length % s.ring.size) :
    countSlots s.ring.size s.ring.head t = s.enqueued.length - s.dequeued.length := by
  rw [inv.head_eq, place]
  exact countSlots_eq inv.size_lt inv.dequeued_le inv.notFull

/-- An element is loaded. -/
theorem fetch (inv : BulkInv s) (hc : s.consumer = .fetching len t val) :
    BulkInv { s with
      consumer := fetchLoop len (nextSlot s.ring.size t) (val ++ [s.ring.data t]) } := by
  have hcons := inv.consumer_inv
  simp only [BulkConsumerInv, hc] at hcons
  obtain ⟨hmore, hknown, hval, rfl⟩ := hcons
  have hcount := inv.count_le
  have hplace : s.dequeued.length + val.length < s.enqueued.length := by omega
  have helement : s.enqueued[s.dequeued.length + val.length]? =
      some (s.ring.data ((s.dequeued.length + val.length) % s.ring.size)) := by
    have hcontent := inv.content_eq (s.dequeued.length + val.length) (Nat.le_add_right _ _)
      (by rw [BulkState.written, List.length_append]; omega)
    rwa [BulkState.written, List.getElem?_append_left hplace] at hcontent
  refine inv.setConsumer _ (bulkConsumerInv_fetchLoop rfl ?_ hknown ⟨?_, ?_⟩)
  · rw [List.length_append, List.length_singleton]
    exact hmore
  · rw [List.length_append, List.length_singleton, List.take_add_one, List.getElem?_drop, helement,
      ← hval]
    rfl
  · rw [List.length_append, List.length_singleton, nextSlot_mod inv.size_pos inv.size_lt]
    rfl

/-- The tail is stored. -/
theorem release (inv : BulkInv s) (hc : s.consumer = .releasing t val) :
    BulkInv { s with
      ring := { s.ring with tail := t, cacheCount := s.ring.cacheCount - val.length }
      consumer := .idle
      dequeued := s.dequeued ++ val } := by
  have hcons := inv.consumer_inv
  simp only [BulkConsumerInv, hc] at hcons
  obtain ⟨hknown, hval, hplace⟩ := hcons
  have hlength : (s.dequeued ++ val).length = s.dequeued.length + val.length :=
    List.length_append
  have hfree := inv.free_le
  have hcount := inv.count_le
  have hnotFull := inv.notFull
  refine { inv with
    tail_eq := hplace.trans (by rw [hlength])
    notFull := ?_, free_le := ?_, count_le := ?_, content_eq := ?_, ordered := ?_
    producer_inv := inv.producer_inv, consumer_inv := trivial }
  · rw [hlength]
    exact (by omega : s.enqueued.length < s.dequeued.length + val.length + s.ring.size)
  · rw [hlength]
    exact (by omega :
      s.enqueued.length + s.ring.cacheFree ≤ s.dequeued.length + val.length + s.ring.size)
  · rw [hlength]
    exact (by omega :
      s.dequeued.length + val.length + (s.ring.cacheCount - val.length) ≤ s.enqueued.length)
  · intro j hheld hj
    rw [hlength] at hheld
    exact inv.content_eq j (by omega) hj
  · obtain ⟨rest, hrest⟩ := inv.ordered
    rw [hval, ← hrest, List.drop_left, List.prefix_append_right_inj]
    exact List.take_prefix _ _

/-! ### Runs -/

/-- A new ring is never full. -/
theorem fresh {size : Nat} (positive : 1 ≤ size) (small : size < 2 ^ 32) (data : Nat → α) :
    BulkInv (.fresh (ringCreate size data)) where
  size_pos := positive
  size_lt := small
  head_eq := (Nat.zero_mod _).symm
  tail_eq := (Nat.zero_mod _).symm
  notFull := Nat.lt_of_lt_of_eq positive (Nat.zero_add _).symm
  free_le := le_refl _
  count_le := le_refl _
  stored_eq := rfl
  content_eq := fun _ _ => nofun
  ordered := List.prefix_rfl
  drained := fun _ => nofun
  producer_inv := trivial
  consumer_inv := trivial

theorem enqueueStep_inv (inv : BulkInv s) {target : BulkState α}
    (room : s.producer.LeavesRoom s.ring.tail) (enabled : enqueueStep s = some target) :
    BulkInv target := by
  have hprod := inv.producer_inv
  rw [enqueueStep] at enabled
  cases hp : s.producer with
  | idle =>
      rw [hp] at enabled
      cases enabled
  | reloading batch h =>
      simp only [BulkProducerInv, hp] at hprod enabled
      have hloaded := inv.reloadTail hp
      split_ifs at enabled with hfull
      · cases enabled
        exact hloaded
      · cases enabled
        exact hloaded.beginStore rfl (Nat.le_of_not_lt hfull) hprod
  | storing batch h i =>
      simp only [hp] at enabled
      obtain ⟨element, htaken, rfl⟩ := Option.map_eq_some_iff.mp enabled
      exact inv.store hp htaken
  | publishing batch h =>
      simp only [hp] at enabled
      cases enabled
      exact inv.publish hp room

theorem dequeueStep_inv (inv : BulkInv s) {target : BulkState α}
    (enabled : dequeueStep s = some target) : BulkInv target := by
  have hcons := inv.consumer_inv
  rw [dequeueStep] at enabled
  cases hc : s.consumer with
  | idle =>
      rw [hc] at enabled
      cases enabled
  | reloading len t before =>
      simp only [BulkConsumerInv, hc] at hcons enabled
      have hcount := inv.countSlots_head hcons.1
      have hordered := inv.dequeued_le
      rw [hcount] at enabled
      have hloaded : BulkInv { s with
          ring := { s.ring with cacheCount := s.enqueued.length - s.dequeued.length }
          consumer := .idle } :=
        { inv with
          count_le := (by omega :
            s.dequeued.length + (s.enqueued.length - s.dequeued.length) ≤ s.enqueued.length)
          producer_inv := inv.producer_inv
          consumer_inv := trivial }
      split_ifs at enabled with hempty hasked
      · cases enabled
        rw [hempty] at hloaded
        refine { hloaded with drained := ?_, producer_inv := inv.producer_inv }
        intro call hcall
        rcases List.mem_append.mp hcall with hearlier | hlast
        · exact inv.drained call hearlier
        · obtain rfl := List.mem_singleton.mp hlast
          exact hcons.2.trans (Nat.sub_eq_zero_iff_le.mp hempty)
      · cases enabled
        rw [hempty] at hloaded
        exact hloaded
      · cases enabled
        exact hloaded.beginFetch hcons.1 (Nat.min_le_right _ _)
  | fetching len t val =>
      simp only [hc] at enabled
      cases enabled
      exact inv.fetch hc
  | releasing t val =>
      simp only [hc] at enabled
      cases enabled
      exact inv.release hc

/-- Every step that does not fill the ring keeps the invariant. -/
theorem step (inv : BulkInv s) {act : BulkAct α} {target : BulkState α}
    (room : NeverFull s act) (enabled : bulkStep s act = some target) : BulkInv target := by
  cases act with
  | enqueueBulk batch =>
      cases hp : s.producer with
      | idle =>
          simp only [bulkStep, hp] at enabled
          have hnothing : s.producer.pending = [] := by
            rw [hp]
            rfl
          split_ifs at enabled with hlittle
          · cases enabled
            exact inv.setProducer _ hnothing rfl inv.head_eq
          · cases enabled
            exact inv.beginStore hnothing (Nat.le_of_not_lt hlittle) inv.head_eq
      | reloading | storing | publishing =>
          simp only [bulkStep, hp] at enabled
          cases enabled
  | produce => exact inv.enqueueStep_inv room enabled
  | dequeueBurst len =>
      cases hc : s.consumer with
      | idle =>
          simp only [bulkStep, hc] at enabled
          split_ifs at enabled with hunknown
          · cases enabled
            exact inv.setConsumer _ ⟨inv.tail_eq, le_refl _⟩
          · cases enabled
            exact inv.beginFetch inv.tail_eq (Nat.min_le_right _ _)
      | reloading | fetching | releasing =>
          simp only [bulkStep, hc] at enabled
          cases enabled
  | consume => exact inv.dequeueStep_inv enabled

/-- The invariant is what a queue should be. -/
theorem isFifo (inv : BulkInv s) : IsFifo s := by
  refine ⟨inv.ordered, ?_, inv.drained⟩
  rw [NothingOverwritten]
  have hprod := inv.producer_inv
  cases hp : s.producer with
  | storing batch h i =>
      simp only [BulkProducerInv, hp] at hprod
      obtain ⟨hmore, hfits, rfl⟩ := hprod
      intro held
      have hlength : s.written.length = s.enqueued.length + i := by
        rw [BulkState.written, hp, List.length_append]
        exact congrArg _ (List.length_take_of_le hmore.le)
      rw [inv.stored_eq, ← List.map_drop, List.mem_map] at held
      obtain ⟨j, hj, hsame⟩ := held
      obtain ⟨k, hk, rfl⟩ := List.mem_drop_iff_getElem.mp hj
      rw [List.getElem_range] at hsame
      rw [List.length_range] at hk
      exact inv.mod_ne_of_free (Nat.le_add_right _ k) (by omega) (by omega) hsame
  | idle | reloading | publishing => trivial

end BulkInv

/-- **The bulk ring is a queue as long as it is never full.** In every run of one producer and
one consumer in which no batch fills the ring, the elements come out in the order in which they
were put in, none is overwritten before, and nothing is returned only when everything that was
there has been taken. -/
theorem bulkRing_isFifo {size : Nat} (positive : 1 ≤ size) (small : size < 2 ^ 32)
    {s : BulkState α} (reached : (bulkMachine α size).ReachableWhen NeverFull s) : IsFifo s := by
  have hinv : BulkInv s := by
    refine reached.invariant BulkInv ?_ ?_
    · rintro state ⟨data, rfl⟩
      exact .fresh positive small data
    · intro state act target inv room enabled
      exact inv.step room enabled
  exact hinv.isFifo

/-- A batch of one goes through a ring of two slots. -/
def throughTwoSlots : BulkState Nat :=
  ((bulkMachine Nat 2).restrict NeverFull).after
    [.enqueueBulk [7], .produce, .produce, .dequeueBurst 4, .consume, .consume, .consume]
    (.fresh (ringCreate 2 fun _ => 0))

/-- The element comes out again. -/
theorem bulkRing_isFifo_two :
    (1 ≤ 2 ∧ 2 < 2 ^ 32 ∧ (bulkMachine Nat 2).ReachableWhen NeverFull throughTwoSlots) ∧
      throughTwoSlots.dequeued = [7] ∧ IsFifo throughTwoSlots := by
  have hreached : (bulkMachine Nat 2).ReachableWhen NeverFull throughTwoSlots :=
    Machine.reachableWhen_after ⟨_, rfl⟩ (by decide)
  exact ⟨⟨by decide, by decide, hreached⟩, by decide,
    bulkRing_isFifo (by decide) (by decide) hreached⟩

/-- A ring of one slot that holds an element looks empty to the consumer. -/
theorem not_isFifo_full :
    ¬∀ size, 1 ≤ size → size < 2 ^ 32 →
      ∀ s : BulkState Nat, (bulkMachine Nat size).Reachable s → IsFifo s := by
  intro holds
  have hreached : (bulkMachine Nat 1).Reachable
      ((bulkMachine Nat 1).after
        [.enqueueBulk [7], .produce, .produce, .dequeueBurst 1, .consume]
        (.fresh (ringCreate 1 fun _ => 0))) :=
    Machine.reachable_after ⟨_, rfl⟩ (by decide)
  have hdrained := (holds 1 (by decide) (by decide) _ hreached).drained (1, 0) (by decide)
  exact absurd hdrained (by decide)

end MmtProbe.Capture
