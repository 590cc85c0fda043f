/-
# The single-producer single-consumer packet ring

`data_spsc_ring_t` couples an array of packet slots with a Lamport queue of slot
numbers, `lock_free_spsc_ring_t`.  The producer owns `_head` and a stale copy of
`_tail`; the consumer owns `_tail` and a stale copy of `_head`.

Both sides are small programs whose every access to `_head`, `_tail`, `_data` or
to one byte of an element is a step of its own, so that an interleaving of the
two is a list of labels.  The private copies are only read and written by their
owner and are folded into the step that uses them.

The history fields (`pushed`, `reads`, `released`, `used`) record what happened
and are never consulted by a step.
-/

import MmtProbe.Math.Machine
import MmtProbe.Math.Word

namespace MmtProbe.Capture

open MmtProbe.Math

universe u

/-- The shared memory of one ring: the fields of `lock_free_spsc_ring_t`, its
array of slot numbers, and the bytes of the elements that `data_spsc_ring_t`
points to. -/
structure DataSpscRing (β : Type u) where
  /-- `_size` -/
  size : Nat
  /-- Number of bytes allocated for each element. -/
  elementSize : Nat
  /-- `_head` -/
  head : Nat
  /-- `_tail` -/
  tail : Nat
  /-- `_cached_head`, private to the consumer. -/
  cachedHead : Nat
  /-- `_cached_tail`, private to the producer. -/
  cachedTail : Nat
  /-- `_fifo_index->_data` -/
  data : Nat → Nat
  /-- The byte of an element at an offset. -/
  elements : Nat → Nat → β

namespace DataSpscRing

variable {β : Type u}

/-- The bytes of one element, in order. -/
def content (q : DataSpscRing β) (element : Nat) : List β :=
  (List.range q.elementSize).map (q.elements element)

/-- Store one byte of one element. -/
def writeElement (q : DataSpscRing β) (element offset : Nat) (byte : β) : DataSpscRing β :=
  { q with elements := fun e o =>
      if e = element ∧ o = offset then byte else q.elements e o }

/-- The slots between `_tail` and `_head`, in ring order: pushed and not yet
given back by the consumer. -/
def unreleasedSlots (q : DataSpscRing β) : List Nat :=
  (List.range ((q.head + q.size - q.tail) % q.size)).map fun i => (q.tail + i) % q.size

end DataSpscRing

/-- `data_spsc_ring_init`: refuse an empty ring or empty elements, otherwise
allocate two slots more than asked for.  The allocated arrays keep whatever
bytes they had.  The loop that allocates the elements counts in an `int`, which is not
modelled: for sizes from 2^31 - 2 on, where that count overflows, it is assumed that
every element is allocated all the same. -/
def dataSpscRingInit {β : Type u} (size elementSize : Nat) (data : Nat → Nat)
    (elements : Nat → Nat → β) : Option (DataSpscRing β) :=
  if size < 1 ∨ elementSize = 0 then none
  else some
    { size := u32 (size + 2), elementSize := elementSize, head := 0, tail := 0,
      cachedHead := 0, cachedTail := 0, data := data, elements := elements }

/-- Where the producer stands. `tmp` is the element it was given, `val` and `h`
are the two loads of `_head` made by one push. -/
inductive Producer
  | /-- Between two rounds. -/
    idle
  | /-- Holding the element that `data_spsc_ring_get_tmp_element` returned. -/
    filling (tmp : Nat)
  | /-- Inside `queue_push`, its argument evaluated. -/
    pushing (tmp val : Nat)
  | /-- The ring looks full from the stale tail, which must be loaded again. -/
    reloading (tmp val h : Nat)
  | /-- Not full: about to store `_data[h]`. -/
    storing (tmp val h : Nat)
  | /-- About to store `_head`. -/
    publishing (tmp val h : Nat)
  deriving DecidableEq

/-- Where the consumer stands. `t` is the loaded `_tail`, `n` the size of a bulk
window and `i` the position inside it, `e` the element being read. -/
inductive Consumer (β : Type u)
  | /-- Between two operations. -/
    idle
  | /-- The ring looks empty from the stale head, which must be loaded again. -/
    reloading (bulk : Bool) (t : Nat)
  | /-- Bulk window: about to load `_data[t + i]`. -/
    fetching (t n i : Nat)
  | /-- Bulk window: reading the bytes of its `i`-th element. -/
    reading (t n i e : Nat) (buffer : List β)
  | /-- Bulk window entirely read: about to store `_tail`. -/
    releasing (t n : Nat)
  | /-- `queue_pop`: about to load `_data[t]`. -/
    popFetching (t : Nat)
  | /-- `queue_pop`: about to store `_tail`. -/
    popReleasing (t e : Nat)
  | /-- Reading the bytes of a popped element. -/
    popReading (e : Nat) (buffer : List β)

/-- The element a consumer has obtained and not yet entirely read. -/
def Consumer.element? {β : Type u} : Consumer β → Option Nat
  | .reading _ _ _ e _ => some e
  | .popReleasing _ e => some e
  | .popReading e _ => some e
  | _ => none

/-- A ring with its two users, and what happened so far. -/
structure RingState (β : Type u) where
  ring : DataSpscRing β
  producer : Producer
  consumer : Consumer β
  /-- The contents that were successfully pushed, in push order. -/
  pushed : List (List β)
  /-- The contents the consumer has entirely read, in order. -/
  reads : List (List β)
  /-- How many slots the consumer has given back. -/
  released : Nat
  /-- Every index used on `_data`, the slot numbers and the element pointers. -/
  used : List Nat

/-- What the producer may do next: ask for an element, write one byte of it, or
take the next step of `data_spsc_ring_push_tmp_element`. -/
inductive ProducerAct (β : Type u)
  | getTmpElement
  | write (offset : Nat) (byte : β)
  | push

/-- What the consumer may do next: begin one of its two operations, or take the
next step of the one it is in. -/
inductive ConsumerAct
  | popBulk
  | pop
  | advance

/-- A label of the ring: one step of one of its two users. -/
inductive RingAct (β : Type u)
  | producer (act : ProducerAct β)
  | consumer (act : ConsumerAct)

variable {β : Type u}

/-- The slot `queue_push` compares with the tail, `( h + 3 ) % _size`. -/
def pushLimit (size h : Nat) : Nat := u32 (h + 3) % size

/-- One step of the producer: `data_spsc_ring_get_tmp_element`, a store into the
element, or one access of `queue_push`. -/
def producerStep (s : RingState β) : ProducerAct β → Option (RingState β)
  | .getTmpElement =>
      match s.producer with
      | .idle | .filling _ =>
          some { s with producer := .filling s.ring.head, used := s.ring.head :: s.used }
      | _ => none
  | .write offset byte =>
      match s.producer with
      | .filling tmp =>
          if offset < s.ring.elementSize then
            some { s with ring := s.ring.writeElement tmp offset byte }
          else none
      | _ => none
  | .push =>
      match s.producer with
      | .idle => none
      | .filling tmp => some { s with producer := .pushing tmp s.ring.head }
      | .pushing tmp val =>
          if pushLimit s.ring.size s.ring.head = s.ring.cachedTail then
            some { s with producer := .reloading tmp val s.ring.head }
          else some { s with producer := .storing tmp val s.ring.head }
      | .reloading tmp val h =>
          -- QUEUE_FULL gives the element back to the caller, who may push it again
          if pushLimit s.ring.size h = s.ring.tail then
            some { s with
              ring := { s.ring with cachedTail := s.ring.tail }
              producer := .filling tmp }
          else
            some { s with
              ring := { s.ring with cachedTail := s.ring.tail }
              producer := .storing tmp val h }
      | .storing tmp val h =>
          some { s with
            ring := { s.ring with data := fun slot => if slot = h then val else s.ring.data slot }
            producer := .publishing tmp val h
            used := h :: s.used }
      | .publishing tmp _ h =>
          some { s with
            ring := { s.ring with head := u32 (h + 1) % s.ring.size }
            producer := .idle
            pushed := s.pushed ++ [s.ring.content tmp] }

/-- The window of `queue_pop_bulk`: up to the cached head, or up to the end of
the array when the head has wrapped.  The count is returned as an `int`, and a
caller that does not get a positive one reads nothing. -/
def bulkWindow (q : DataSpscRing β) (t : Nat) : Consumer β :=
  let n := if q.cachedHead > t then q.cachedHead - t else q.size - t
  if 0 < int32 n then .fetching t n 0 else .idle

/-- One step of the consumer: the accesses of `queue_pop_bulk`, of the loop over
its window and of `queue_update_tail`, or those of `data_spsc_ring_pop`. -/
def consumerStep (s : RingState β) : ConsumerAct → Option (RingState β)
  | .popBulk =>
      match s.consumer with
      | .idle =>
          if s.ring.cachedHead = s.ring.tail then
            some { s with consumer := .reloading true s.ring.tail }
          else some { s with consumer := bulkWindow s.ring s.ring.tail }
      | _ => none
  | .pop =>
      match s.consumer with
      | .idle =>
          if s.ring.cachedHead = s.ring.tail then
            some { s with consumer := .reloading false s.ring.tail }
          else some { s with consumer := .popFetching s.ring.tail }
      | _ => none
  | .advance =>
      match s.consumer with
      | .idle => none
      | .reloading bulk t =>
          let ring := { s.ring with cachedHead := s.ring.head }
          if ring.cachedHead = t then some { s with ring := ring, consumer := .idle }
          else if bulk then some { s with ring := ring, consumer := bulkWindow ring t }
          else some { s with ring := ring, consumer := .popFetching t }
      | .fetching t n i =>
          let slot := u32 (t + i)
          some { s with
            consumer := .reading t n i (s.ring.data slot) []
            used := s.ring.data slot :: slot :: s.used }
      | .reading t n i e buffer =>
          let buffer := buffer ++ [s.ring.elements e buffer.length]
          if buffer.length < s.ring.elementSize then
            some { s with consumer := .reading t n i e buffer }
          else if i + 1 < n then
            some { s with consumer := .fetching t n (i + 1), reads := s.reads ++ [buffer] }
          else some { s with consumer := .releasing t n, reads := s.reads ++ [buffer] }
      | .releasing t n =>
          some { s with
            ring := { s.ring with tail := u32 (t + n) % s.ring.size }
            consumer := .idle
            released := s.released + n }
      | .popFetching t =>
          some { s with
            consumer := .popReleasing t (s.ring.data t)
            used := t :: s.used }
      | .popReleasing t e =>
          some { s with
            ring := { s.ring with tail := u32 (t + 1) % s.ring.size }
            consumer := .popReading e []
            released := s.released + 1
            used := e :: s.used }
      | .popReading e buffer =>
          let buffer := buffer ++ [s.ring.elements e buffer.length]
          if buffer.length < s.ring.elementSize then
            some { s with consumer := .popReading e buffer }
          else some { s with consumer := .idle, reads := s.reads ++ [buffer] }

/-- The state of a ring that nobody has used yet. -/
def RingState.fresh (q : DataSpscRing β) : RingState β :=
  { ring := q, producer := .idle, consumer := .idle, pushed := [], reads := [],
    released := 0, used := [] }

/-- A ring built by `data_spsc_ring_init` and shared by one producer and one
consumer. -/
def ringMachine (β : Type u) (size elementSize : Nat) :
    Machine (RingState β) (RingAct β) where
  init s := ∃ data elements q,
    dataSpscRingInit size elementSize data elements = some q ∧ s = .fresh q
  step s
    | .producer act => producerStep s act
    | .consumer act => consumerStep s act

/-! ## What a ring is for -/

/-- Lossless first-in first-out delivery: the contents read are, in order, the
first ones pushed. -/
def Lossless (s : RingState β) : Prop := s.reads <+: s.pushed

/-- Every index used on `_data` is inside the array. -/
def IndicesInRange (s : RingState β) : Prop := ∀ i ∈ s.used, i < s.ring.size

/-- The element at `_head`, which the producer may be writing, is neither the
one the consumer is reading nor one it may still obtain. -/
def HeadIsPrivate (s : RingState β) : Prop :=
  (∀ e, s.consumer.element? = some e → e ≠ s.ring.head) ∧
    ∀ slot ∈ s.ring.unreleasedSlots, s.ring.data slot ≠ s.ring.head

end MmtProbe.Capture
