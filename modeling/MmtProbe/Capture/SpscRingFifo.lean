/-
# The packet ring is a lossless queue

The positions of the ring are running counts modulo its size.  The invariant
below relates the four counts that matter: how many slots the producer believes
were released (`ct`), how many were, how many the consumer believes were pushed
(`ch`), and how many were.  They are ordered, and the push refusal keeps the
last one less than one turn ahead of the first, so positions never alias.

The refusal compares `( h + 3 ) % _size`, computed in 32 bits.  For the two
largest sizes the addition wraps, the comparison then never meets the tail, and
the producer overruns the consumer (see `SpscRingOverrun`).
-/

import MmtProbe.Capture.SpscRing

namespace MmtProbe.Capture

open MmtProbe.Math

universe u

variable {β : Type u}

namespace DataSpscRing

@[simp]
theorem content_length (q : DataSpscRing β) (element : Nat) :
    (q.content element).length = q.elementSize := by simp [content]

theorem content_getElem? (q : DataSpscRing β) (element : Nat) {offset : Nat}
    (inside : offset < q.elementSize) :
    (q.content element)[offset]? = some (q.elements element offset) := by
  simp [content, inside]

/-- Writing one element leaves the others alone. -/
theorem content_writeElement_of_ne (q : DataSpscRing β) {element other : Nat}
    (offset : Nat) (byte : β) (different : other ≠ element) :
    (q.writeElement element offset byte).content other = q.content other := by
  simp [content, writeElement, different]

end DataSpscRing

/-! ## The invariant -/

/-- What the producer knows at each point: its element is the one at `_head`,
and past the test there is room for one more. -/
def ProducerInv (s : RingState β) (ct : Nat) : Prop :=
  match s.producer with
  | .idle => True
  | .filling tmp => tmp = s.ring.head
  | .pushing tmp val => tmp = s.ring.head ∧ val = s.ring.head
  | .reloading tmp val h => tmp = s.ring.head ∧ val = s.ring.head ∧ h = s.ring.head
  | .storing tmp val h =>
      tmp = s.ring.head ∧ val = s.ring.head ∧ h = s.ring.head ∧
        s.pushed.length + 4 ≤ ct + s.ring.size
  | .publishing tmp val h =>
      tmp = s.ring.head ∧ val = s.ring.head ∧ h = s.ring.head ∧
        s.pushed.length + 4 ≤ ct + s.ring.size ∧ s.ring.data s.ring.head = s.ring.head

/-- A read in progress: the bytes obtained so far are the first ones of the
element that is next in push order. -/
def ReadInv (s : RingState β) (e : Nat) (buffer : List β) : Prop :=
  e = s.reads.length % s.ring.size ∧ buffer.length < s.ring.elementSize ∧
    buffer = (s.ring.content e).take buffer.length

/-- A bulk window that starts at the tail, lies below the known head and does
not pass the end of the array. -/
def WindowInv (s : RingState β) (ch t n i : Nat) : Prop :=
  t = s.ring.tail ∧ s.reads.length = s.released + i ∧ s.released + n ≤ ch ∧
    t + n ≤ s.ring.size

/-- What the consumer knows at each point. -/
def ConsumerInv (s : RingState β) (ch : Nat) : Prop :=
  match s.consumer with
  | .idle => s.reads.length = s.released
  | .reloading _ t => s.reads.length = s.released ∧ t = s.ring.tail
  | .fetching t n i => WindowInv s ch t n i ∧ i < n
  | .reading t n i e buffer => WindowInv s ch t n i ∧ i < n ∧ ReadInv s e buffer
  | .releasing t n => WindowInv s ch t n n
  | .popFetching t => t = s.ring.tail ∧ s.reads.length = s.released ∧ s.released < ch
  | .popReleasing t e =>
      t = s.ring.tail ∧ s.reads.length = s.released ∧ s.released < ch ∧
        e = s.reads.length % s.ring.size
  | .popReading e buffer => s.reads.length + 1 = s.released ∧ ReadInv s e buffer

/-- The ring invariant, for a count `ct` behind the cached tail and a count `ch`
behind the cached head. -/
structure RingInv (s : RingState β) (ct ch : Nat) : Prop where
  size_ge : 3 ≤ s.ring.size
  size_le : s.ring.size + 3 ≤ 2 ^ 32
  element_pos : 0 < s.ring.elementSize
  ct_le : ct ≤ s.released
  released_le : s.released ≤ ch
  ch_le : ch ≤ s.pushed.length
  pushed_le : s.pushed.length + 3 ≤ ct + s.ring.size
  head_eq : s.ring.head = s.pushed.length % s.ring.size
  tail_eq : s.ring.tail = s.released % s.ring.size
  cachedTail_eq : s.ring.cachedTail = ct % s.ring.size
  cachedHead_eq : s.ring.cachedHead = ch % s.ring.size
  data_eq : ∀ j, s.released ≤ j → j < s.pushed.length →
    s.ring.data (j % s.ring.size) = j % s.ring.size
  content_eq : ∀ j, s.reads.length ≤ j → j < s.pushed.length →
    s.pushed[j]? = some (s.ring.content (j % s.ring.size))
  reads_eq : s.reads <+: s.pushed
  used_lt : IndicesInRange s
  producer_inv : ProducerInv s ct
  consumer_inv : ConsumerInv s ch

namespace RingInv

variable {s : RingState β} {ct ch : Nat}

/-- The consumer keeps at most one released element in its hands. -/
theorem released_le_reads (inv : RingInv s ct ch) : s.released ≤ s.reads.length + 1 := by
  have h := inv.consumer_inv
  unfold ConsumerInv at h
  cases hc : s.consumer <;> simp only [hc, WindowInv] at h <;> omega

theorem size_pos (inv : RingInv s ct ch) : 0 < s.ring.size := by
  have := inv.size_ge
  omega

theorem head_lt (inv : RingInv s ct ch) : s.ring.head < s.ring.size := by
  rw [inv.head_eq]
  exact Nat.mod_lt _ inv.size_pos

theorem tail_lt (inv : RingInv s ct ch) : s.ring.tail < s.ring.size := by
  rw [inv.tail_eq]
  exact Nat.mod_lt _ inv.size_pos

/-- The position of an element that is queued, or that the consumer still reads,
is not the head: the two counts are less than one turn apart. -/
theorem mod_ne_head (inv : RingInv s ct ch) {j : Nat} (lower : s.reads.length ≤ j)
    (upper : j < s.pushed.length) : j % s.ring.size ≠ s.ring.head := by
  have hreads := inv.released_le_reads
  have hct := inv.ct_le
  have hpushed := inv.pushed_le
  rw [inv.head_eq]
  exact (mod_ne_of_lt upper (by omega)).symm

/-- The refusal test of `queue_push` on counts: as long as `h + 3` fits in 32
bits, it compares the number of pushed elements with a full turn. -/
theorem pushLimit_eq_iff (inv : RingInv s ct ch) {c : Nat} (lower : c ≤ s.pushed.length)
    (upper : s.pushed.length + 3 ≤ c + s.ring.size) :
    pushLimit s.ring.size s.ring.head = c % s.ring.size ↔
      s.pushed.length + 3 = c + s.ring.size := by
  have hlt := inv.head_lt
  have hsize := inv.size_le
  have hlimit : pushLimit s.ring.size s.ring.head = (s.pushed.length + 3) % s.ring.size := by
    rw [pushLimit, u32_of_lt (by omega), inv.head_eq, Nat.mod_add_mod]
  rw [hlimit]
  constructor
  · intro same
    by_contra hne
    have := eq_of_mod_eq_of_lt (by omega : c ≤ s.pushed.length + 3)
      (by omega : s.pushed.length + 3 < c + s.ring.size) same.symm
    omega
  · intro full
    rw [full, Nat.add_mod_right]

/-- The consumer sees an empty ring exactly when the head it knows is its own
tail. -/
theorem cachedHead_eq_tail_iff (inv : RingInv s ct ch) :
    s.ring.cachedHead = s.ring.tail ↔ s.released = ch := by
  have hlower := inv.released_le
  have hct := inv.ct_le
  have hch := inv.ch_le
  have hpushed := inv.pushed_le
  rw [inv.cachedHead_eq, inv.tail_eq]
  constructor
  · intro same
    exact eq_of_mod_eq_of_lt hlower (by omega) same.symm
  · intro same
    rw [same]

/-- One more index is used. -/
theorem used_cons (inv : RingInv s ct ch) {index : Nat} (inside : index < s.ring.size) :
    ∀ other ∈ index :: s.used, other < s.ring.size := by
  intro other hmem
  rcases List.mem_cons.mp hmem with rfl | hmem
  · exact inside
  · exact inv.used_lt other hmem

end RingInv

/-! ## The producer keeps the invariant -/

/-- Filling the element at `_head` disturbs no element that is queued or being
read. -/
theorem RingInv.write {s : RingState β} {ct ch : Nat} (inv : RingInv s ct ch)
    (offset : Nat) (byte : β) :
    RingInv { s with ring := s.ring.writeElement s.ring.head offset byte } ct ch := by
  have hcontent (j : Nat) (lower : s.reads.length ≤ j) (upper : j < s.pushed.length) :
      (s.ring.writeElement s.ring.head offset byte).content (j % s.ring.size) =
        s.ring.content (j % s.ring.size) :=
    s.ring.content_writeElement_of_ne offset byte (inv.mod_ne_head lower upper)
  refine { inv with content_eq := ?_, consumer_inv := ?_ }
  · intro j lower upper
    exact (inv.content_eq j lower upper).trans (congrArg some (hcontent j lower upper).symm)
  · have hcons := inv.consumer_inv
    have hch := inv.ch_le
    have hreleased := inv.released_le
    unfold ConsumerInv at hcons ⊢
    cases hc : s.consumer with
    | reading t n i e buffer =>
        simp only [hc, WindowInv, ReadInv] at hcons ⊢
        obtain ⟨hwindow, hi, rfl, hlen, hbuffer⟩ := hcons
        exact ⟨hwindow, hi, rfl, hlen, hbuffer.trans
          (congrArg (List.take _) (hcontent _ le_rfl (by omega)).symm)⟩
    | popReading e buffer =>
        simp only [hc, ReadInv] at hcons ⊢
        obtain ⟨hread, rfl, hlen, hbuffer⟩ := hcons
        exact ⟨hread, rfl, hlen, hbuffer.trans
          (congrArg (List.take _) (hcontent _ le_rfl (by omega)).symm)⟩
    | _ =>
        simp only [hc] at hcons ⊢
        exact hcons

/-- Storing a slot number at `_head` changes no slot between tail and head. -/
theorem RingInv.store {s : RingState β} {ct ch tmp val h : Nat} (inv : RingInv s ct ch)
    (hp : s.producer = .storing tmp val h) :
    RingInv { s with
      ring := { s.ring with data := fun slot => if slot = h then val else s.ring.data slot }
      producer := .publishing tmp val h
      used := h :: s.used } ct ch := by
  have hprod := inv.producer_inv
  simp only [ProducerInv, hp] at hprod
  obtain ⟨rfl, rfl, rfl, hroom⟩ := hprod
  refine { inv with data_eq := ?_, used_lt := ?_, producer_inv := ?_ }
  · intro j (lower : s.released ≤ j) (upper : j < s.pushed.length)
    have hct := inv.ct_le
    have hne : j % s.ring.size ≠ s.ring.head := by
      rw [inv.head_eq]
      exact (mod_ne_of_lt upper (by omega)).symm
    simp only [hne, if_false]
    exact inv.data_eq j lower upper
  · intro i hi
    rcases List.mem_cons.mp hi with rfl | hi
    · exact inv.head_lt
    · exact inv.used_lt i hi
  · simp only [ProducerInv, if_true]
    exact ⟨trivial, trivial, trivial, hroom, trivial⟩

/-- Publishing the next head appends one element to the queue. -/
theorem RingInv.publish {s : RingState β} {ct ch tmp val h : Nat} (inv : RingInv s ct ch)
    (hp : s.producer = .publishing tmp val h) :
    RingInv { s with
      ring := { s.ring with head := u32 (h + 1) % s.ring.size }
      producer := .idle
      pushed := s.pushed ++ [s.ring.content tmp] } ct ch := by
  have hprod := inv.producer_inv
  simp only [ProducerInv, hp] at hprod
  obtain ⟨rfl, -, rfl, hroom, hdata⟩ := hprod
  have hlt := inv.head_lt
  have hsize := inv.size_le
  have hch := inv.ch_le
  have hlength : (s.pushed ++ [s.ring.content s.ring.head]).length = s.pushed.length + 1 := by
    simp
  refine { inv with
    ch_le := ?_, pushed_le := ?_, head_eq := ?_, data_eq := ?_, content_eq := ?_,
    reads_eq := ?_, producer_inv := trivial, consumer_inv := ?_ }
  · rw [hlength]
    omega
  · rw [hlength]
    omega
  · rw [hlength, u32_of_lt (by omega), inv.head_eq, Nat.mod_add_mod]
  · intro j lower upper
    rw [hlength] at upper
    rcases Nat.lt_succ_iff_lt_or_eq.mp upper with upper | rfl
    · exact inv.data_eq j lower upper
    · rw [← inv.head_eq]
      exact hdata
  · intro j lower upper
    rw [hlength] at upper
    rcases Nat.lt_succ_iff_lt_or_eq.mp upper with upper | rfl
    · rw [List.getElem?_append_left upper]
      exact inv.content_eq j lower upper
    · rw [List.getElem?_concat_length, ← inv.head_eq]
      rfl
  · exact inv.reads_eq.trans (List.prefix_append _ _)
  · exact inv.consumer_inv

/-- Every step of the producer keeps the invariant. -/
theorem producerStep_inv {s target : RingState β} {act : ProducerAct β} {ct ch : Nat}
    (inv : RingInv s ct ch) (enabled : producerStep s act = some target) :
    ∃ ct', RingInv target ct' ch := by
  have hprod := inv.producer_inv
  have hct := inv.ct_le
  have hch := inv.ch_le
  have hreleased := inv.released_le
  have hpushed := inv.pushed_le
  cases act with
  | getTmpElement =>
      have hused : IndicesInRange { s with
          producer := .filling s.ring.head, used := s.ring.head :: s.used } :=
        inv.used_cons inv.head_lt
      cases hp : s.producer <;>
        simp only [producerStep, hp, reduceCtorEq, Option.some.injEq] at enabled
      all_goals
        subst enabled
        exact ⟨ct, { inv with used_lt := hused, producer_inv := rfl }⟩
  | write offset byte =>
      cases hp : s.producer <;> simp only [producerStep, hp, reduceCtorEq] at enabled
      rename_i tmp
      simp only [ProducerInv, hp] at hprod
      subst hprod
      have hwrite := inv.write offset byte
      rw [hp] at hwrite
      split at enabled
      · cases enabled
        exact ⟨ct, hwrite⟩
      · cases enabled
  | push =>
      cases hp : s.producer with
      | idle => simp [producerStep, hp] at enabled
      | filling tmp =>
          simp only [ProducerInv, hp] at hprod
          simp only [producerStep, hp, Option.some.injEq] at enabled
          subst enabled
          exact ⟨ct, { inv with producer_inv := ⟨hprod, rfl⟩ }⟩
      | pushing tmp val =>
          simp only [ProducerInv, hp] at hprod
          simp only [producerStep, hp] at enabled
          split at enabled
          · cases enabled
            exact ⟨ct, { inv with producer_inv := ⟨hprod.1, hprod.2, rfl⟩ }⟩
          · rename_i hroom
            rw [inv.cachedTail_eq, inv.pushLimit_eq_iff (by omega) hpushed] at hroom
            cases enabled
            exact ⟨ct, { inv with
              producer_inv := ⟨hprod.1, hprod.2, rfl, by dsimp only; omega⟩ }⟩
      | reloading tmp val h =>
          -- the tail is loaded again, so its count catches up with `released`
          simp only [ProducerInv, hp] at hprod
          obtain ⟨htmp, hval, rfl⟩ := hprod
          simp only [producerStep, hp] at enabled
          have hnew : s.pushed.length + 3 ≤ s.released + s.ring.size := by omega
          split at enabled
          · cases enabled
            exact ⟨s.released, { inv with
              ct_le := le_rfl, pushed_le := hnew, cachedTail_eq := inv.tail_eq,
              producer_inv := htmp }⟩
          · rename_i hroom
            rw [inv.tail_eq, inv.pushLimit_eq_iff (by omega) hnew] at hroom
            cases enabled
            exact ⟨s.released, { inv with
              ct_le := le_rfl, pushed_le := hnew, cachedTail_eq := inv.tail_eq,
              producer_inv := ⟨htmp, hval, rfl, by dsimp only; omega⟩ }⟩
      | storing tmp val h =>
          simp only [producerStep, hp, Option.some.injEq] at enabled
          subst enabled
          exact ⟨ct, inv.store hp⟩
      | publishing tmp val h =>
          simp only [producerStep, hp, Option.some.injEq] at enabled
          subst enabled
          exact ⟨ct, inv.publish hp⟩

/-! ## The consumer keeps the invariant -/

/-- A list that agrees with a longer one up to a point still does after one more
of its entries. -/
theorem prefix_concat_of_getElem? {α : Type u} {short long : List α} {x : α}
    (isPrefix : short <+: long) (next : long[short.length]? = some x) :
    short ++ [x] <+: long := by
  obtain ⟨rest, rfl⟩ := isPrefix
  rw [List.getElem?_append_right le_rfl, Nat.sub_self] at next
  cases rest with
  | nil => simp at next
  | cons y rest =>
      obtain rfl : y = x := by simpa using next
      exact ⟨rest, by simp⟩

/-- Reading bytes in order builds up the content of an element. -/
theorem DataSpscRing.take_concat_element (q : DataSpscRing β) (element : Nat) {offset : Nat}
    (inside : offset < q.elementSize) :
    (q.content element).take offset ++ [q.elements element offset] =
      (q.content element).take (offset + 1) := by
  rw [List.take_add_one, q.content_getElem? element inside]
  rfl

/-- One more byte of the element being read. -/
theorem ReadInv.buffer_next {s : RingState β} {e : Nat} {buffer : List β}
    (read : ReadInv s e buffer) :
    buffer ++ [s.ring.elements e buffer.length] =
      (s.ring.content e).take (buffer.length + 1) := by
  obtain ⟨-, hlen, hbuffer⟩ := read
  rw [← s.ring.take_concat_element e hlen, ← hbuffer]

namespace RingInv

variable {s : RingState β} {ct ch : Nat}

/-- A finished read delivers the next pushed content. -/
theorem reads_concat (inv : RingInv s ct ch) {e : Nat} {buffer : List β}
    (read : ReadInv s e buffer) (queued : s.reads.length < s.pushed.length)
    (done : ¬ (buffer ++ [s.ring.elements e buffer.length]).length < s.ring.elementSize) :
    s.reads ++ [buffer ++ [s.ring.elements e buffer.length]] <+: s.pushed := by
  have hwhole : buffer ++ [s.ring.elements e buffer.length] = s.ring.content e := by
    rw [read.buffer_next]
    apply List.take_of_length_le
    simpa using done
  refine prefix_concat_of_getElem? inv.reads_eq ?_
  rw [hwhole, read.1]
  exact inv.content_eq _ le_rfl queued

/-- An idle consumer may open a bulk window over the elements it knows of. -/
theorem window (inv : RingInv s ct ch) (hc : s.consumer = .idle) (some_known : s.released < ch) :
    RingInv { s with consumer := bulkWindow s.ring s.ring.tail } ct ch := by
  have hcons := inv.consumer_inv
  simp only [ConsumerInv, hc] at hcons
  have hct := inv.ct_le
  have hch := inv.ch_le
  have hpushed := inv.pushed_le
  have htail := inv.tail_lt
  refine { inv with consumer_inv := ?_ }
  simp only [bulkWindow, inv.cachedHead_eq]
  by_cases hwrap : ch % s.ring.size > s.ring.tail
  · -- the known head is ahead of the tail inside the array
    have hhead : ch % s.ring.size < s.ring.size := Nat.mod_lt _ inv.size_pos
    have hn : ch % s.ring.size - s.ring.tail = ch - s.released := by
      rw [inv.tail_eq] at hwrap ⊢
      exact sub_of_mod_lt some_known.le (by omega) hwrap
    simp only [if_pos hwrap]
    split
    · simp only [ConsumerInv, WindowInv, true_and]
      omega
    · exact hcons
  · -- the known head has wrapped: take everything up to the end of the array
    have hend : s.released + (s.ring.size - s.ring.tail) ≤ ch := by
      rw [inv.tail_eq] at hwrap ⊢
      exact le_of_mod_le some_known (by omega) hwrap
    simp only [if_neg hwrap]
    split
    · simp only [ConsumerInv, WindowInv, true_and]
      omega
    · exact hcons

/-- Loading `_head` again brings the known count up to date. -/
theorem reload (inv : RingInv s ct ch) {bulk : Bool} {t : Nat}
    (hc : s.consumer = .reloading bulk t) :
    RingInv { s with ring := { s.ring with cachedHead := s.ring.head }, consumer := .idle }
      ct s.pushed.length := by
  have hcons := inv.consumer_inv
  simp only [ConsumerInv, hc] at hcons
  exact { inv with
    released_le := inv.released_le.trans inv.ch_le, ch_le := le_rfl,
    cachedHead_eq := inv.head_eq, consumer_inv := hcons.1 }

/-- A slot of the window holds its own number, and names the next element. -/
theorem data_slot (inv : RingInv s ct ch) {t n i : Nat} (hwindow : WindowInv s ch t n i)
    (inside : i < n) :
    u32 (t + i) = s.reads.length % s.ring.size ∧
      s.ring.data (u32 (t + i)) = s.reads.length % s.ring.size := by
  obtain ⟨rfl, hreads, hknown, hend⟩ := hwindow
  have hch := inv.ch_le
  have hsize := inv.size_le
  have hslot : u32 (s.ring.tail + i) = s.reads.length % s.ring.size := by
    rw [u32_of_lt (by omega), hreads, inv.tail_eq]
    refine (mod_add_eq_of_lt ?_).symm
    rw [← inv.tail_eq]
    omega
  refine ⟨hslot, ?_⟩
  rw [hslot]
  exact inv.data_eq _ (by omega) (by omega)

/-- The tail moves behind the elements that are released. -/
theorem tail_add (inv : RingInv s ct ch) {n : Nat} (short : s.ring.tail + n < 2 ^ 32) :
    u32 (s.ring.tail + n) % s.ring.size = (s.released + n) % s.ring.size := by
  rw [u32_of_lt short, inv.tail_eq, Nat.mod_add_mod]

/-- Slots behind released ones keep their numbers. -/
theorem data_eq_of_released (inv : RingInv s ct ch) (n : Nat) :
    ∀ j, s.released + n ≤ j → j < s.pushed.length →
      s.ring.data (j % s.ring.size) = j % s.ring.size :=
  fun j lower upper => inv.data_eq j ((Nat.le_add_right _ _).trans lower) upper

/-- The index of the next element of a bulk is loaded. -/
theorem fetch (inv : RingInv s ct ch) {t n i : Nat} (hc : s.consumer = .fetching t n i) :
    RingInv { s with
      consumer := .reading t n i (s.ring.data (u32 (t + i))) []
      used := s.ring.data (u32 (t + i)) :: u32 (t + i) :: s.used } ct ch := by
  have hcons := inv.consumer_inv
  simp only [ConsumerInv, hc] at hcons
  obtain ⟨hwindow, hi⟩ := hcons
  obtain ⟨hslot, hdata⟩ := inv.data_slot hwindow hi
  have hlt : s.reads.length % s.ring.size < s.ring.size := Nat.mod_lt _ inv.size_pos
  refine { inv with used_lt := ?_, consumer_inv := ⟨hwindow, hi, hdata, inv.element_pos, rfl⟩ }
  intro index hmem
  rcases List.mem_cons.mp hmem with rfl | hmem
  · rw [hdata]
    exact hlt
  · exact inv.used_cons (by rw [hslot]; exact hlt) index hmem

/-- The elements of a bulk are released together. -/
theorem release (inv : RingInv s ct ch) {t n : Nat} (hc : s.consumer = .releasing t n) :
    RingInv { s with
      ring := { s.ring with tail := u32 (t + n) % s.ring.size }
      consumer := .idle
      released := s.released + n } ct ch := by
  have hcons := inv.consumer_inv
  have hsize := inv.size_le
  simp only [ConsumerInv, hc, WindowInv] at hcons
  obtain ⟨rfl, hreads, hknown, hend⟩ := hcons
  exact { inv with
    ct_le := inv.ct_le.trans (Nat.le_add_right _ _)
    released_le := hknown
    tail_eq := inv.tail_add (by omega)
    data_eq := inv.data_eq_of_released n
    consumer_inv := hreads }

/-- The index of one element is loaded. -/
theorem popFetch (inv : RingInv s ct ch) {t : Nat} (hc : s.consumer = .popFetching t) :
    RingInv { s with
      consumer := .popReleasing t (s.ring.data t)
      used := t :: s.used } ct ch := by
  have hcons := inv.consumer_inv
  have hch := inv.ch_le
  simp only [ConsumerInv, hc] at hcons
  obtain ⟨rfl, hreads, hknown⟩ := hcons
  have hdata : s.ring.data s.ring.tail = s.reads.length % s.ring.size := by
    rw [inv.tail_eq, hreads]
    exact inv.data_eq _ le_rfl (by omega)
  exact { inv with
    used_lt := inv.used_cons inv.tail_lt
    consumer_inv := ⟨rfl, hreads, hknown, hdata⟩ }

/-- One element is released before it is read. -/
theorem popRelease (inv : RingInv s ct ch) {t e : Nat} (hc : s.consumer = .popReleasing t e) :
    RingInv { s with
      ring := { s.ring with tail := u32 (t + 1) % s.ring.size }
      consumer := .popReading e []
      released := s.released + 1
      used := e :: s.used } ct ch := by
  have hcons := inv.consumer_inv
  have hsize := inv.size_le
  have htail := inv.tail_lt
  simp only [ConsumerInv, hc] at hcons
  obtain ⟨rfl, hreads, hknown, rfl⟩ := hcons
  exact { inv with
    ct_le := inv.ct_le.trans (Nat.le_add_right _ _)
    released_le := hknown
    tail_eq := inv.tail_add (by omega)
    data_eq := inv.data_eq_of_released 1
    used_lt := inv.used_cons (Nat.mod_lt _ inv.size_pos)
    consumer_inv := ⟨congrArg (· + 1) hreads, rfl, inv.element_pos, rfl⟩ }

variable {target : RingState β}

/-- The head was loaded, and the consumer goes on if there is something to take. -/
theorem reloadStep (inv : RingInv s ct ch) {bulk : Bool} {t : Nat}
    (hc : s.consumer = .reloading bulk t) (enabled : consumerStep s .advance = some target) :
    ∃ ch', RingInv target ct ch' := by
  have hcons := inv.consumer_inv
  have hch := inv.ch_le
  have hreleased := inv.released_le
  have hreload := inv.reload hc
  have hnew := hreload.cachedHead_eq_tail_iff
  simp only [ConsumerInv, hc] at hcons
  obtain ⟨hreads, rfl⟩ := hcons
  simp only [consumerStep, hc] at enabled hnew
  split at enabled
  · cases enabled
    exact ⟨_, hreload⟩
  · rename_i hne
    rw [hnew] at hne
    split at enabled
    · cases enabled
      exact ⟨_, hreload.window rfl (by dsimp only; omega)⟩
    · cases enabled
      exact ⟨_, { hreload with consumer_inv := ⟨rfl, hreads, by dsimp only; omega⟩ }⟩

/-- One more byte of an element of a burst is read; the last one ends the element. -/
theorem readStep (inv : RingInv s ct ch) {t n i e : Nat} {buffer : List β}
    (hc : s.consumer = .reading t n i e buffer) (enabled : consumerStep s .advance = some target) :
    ∃ ch', RingInv target ct ch' := by
  have hcons := inv.consumer_inv
  have hch := inv.ch_le
  simp only [ConsumerInv, hc] at hcons
  obtain ⟨hwindow, hi, hread⟩ := hcons
  have hnext := hread.buffer_next
  have hqueued : s.reads.length < s.pushed.length := by
    have := hwindow.2.1
    have := hwindow.2.2.1
    omega
  simp only [consumerStep, hc] at enabled
  split at enabled
  · rename_i hmore
    cases enabled
    exact ⟨ch, { inv with
      consumer_inv := ⟨hwindow, hi, hread.1, hmore, by simpa using hnext⟩ }⟩
  · rename_i hdone
    have hprefix := inv.reads_concat hread hqueued hdone
    have hcontent : ∀ j, s.reads.length + 1 ≤ j → j < s.pushed.length →
        s.pushed[j]? = some (s.ring.content (j % s.ring.size)) :=
      fun j lower upper => inv.content_eq j (by omega) upper
    obtain ⟨rfl, hreads, hknown, hend⟩ := hwindow
    split at enabled
    · rename_i hagain
      cases enabled
      refine ⟨ch, { inv with
        content_eq := by simpa using hcontent, reads_eq := hprefix,
        consumer_inv := ⟨⟨rfl, ?_, hknown, hend⟩, hagain⟩ }⟩
      simp only [List.length_append, List.length_singleton]
      omega
    · cases enabled
      refine ⟨ch, { inv with
        content_eq := by simpa using hcontent, reads_eq := hprefix,
        consumer_inv := ⟨rfl, ?_, hknown, hend⟩ }⟩
      simp only [List.length_append, List.length_singleton]
      omega

/-- One more byte of a single element is read, which is released already. -/
theorem popReadStep (inv : RingInv s ct ch) {e : Nat} {buffer : List β}
    (hc : s.consumer = .popReading e buffer) (enabled : consumerStep s .advance = some target) :
    ∃ ch', RingInv target ct ch' := by
  have hcons := inv.consumer_inv
  have hch := inv.ch_le
  have hreleased := inv.released_le
  simp only [ConsumerInv, hc] at hcons
  obtain ⟨hreads, hread⟩ := hcons
  have hnext := hread.buffer_next
  simp only [consumerStep, hc] at enabled
  split at enabled
  · rename_i hmore
    cases enabled
    exact ⟨ch, { inv with
      consumer_inv := ⟨hreads, hread.1, hmore, by simpa using hnext⟩ }⟩
  · rename_i hdone
    have hprefix := inv.reads_concat hread (by omega) hdone
    cases enabled
    refine ⟨ch, { inv with content_eq := ?_, reads_eq := hprefix, consumer_inv := ?_ }⟩
    · intro j lower upper
      simp only [List.length_append, List.length_singleton] at lower
      exact inv.content_eq j (by omega) upper
    · simpa [ConsumerInv] using hreads

end RingInv

/-- Every step of the consumer keeps the invariant. -/
theorem consumerStep_inv {s target : RingState β} {act : ConsumerAct} {ct ch : Nat}
    (inv : RingInv s ct ch) (enabled : consumerStep s act = some target) :
    ∃ ch', RingInv target ct ch' := by
  have hcons := inv.consumer_inv
  have hch := inv.ch_le
  have hreleased := inv.released_le
  have hempty := inv.cachedHead_eq_tail_iff
  cases act with
  | popBulk =>
      cases hc : s.consumer <;> simp only [consumerStep, hc, reduceCtorEq] at enabled
      simp only [ConsumerInv, hc] at hcons
      split at enabled
      · cases enabled
        exact ⟨ch, { inv with consumer_inv := ⟨hcons, rfl⟩ }⟩
      · rename_i hne
        rw [hempty] at hne
        cases enabled
        exact ⟨ch, inv.window hc (by omega)⟩
  | pop =>
      cases hc : s.consumer <;> simp only [consumerStep, hc, reduceCtorEq] at enabled
      simp only [ConsumerInv, hc] at hcons
      split at enabled
      · cases enabled
        exact ⟨ch, { inv with consumer_inv := ⟨hcons, rfl⟩ }⟩
      · rename_i hne
        rw [hempty] at hne
        cases enabled
        exact ⟨ch, { inv with consumer_inv := ⟨rfl, hcons, by dsimp only; omega⟩ }⟩
  | advance =>
      cases hc : s.consumer with
      | idle => simp [consumerStep, hc] at enabled
      | reloading bulk t => exact inv.reloadStep hc enabled
      | fetching t n i =>
          simp only [consumerStep, hc, Option.some.injEq] at enabled
          subst enabled
          exact ⟨ch, inv.fetch hc⟩
      | reading t n i e buffer => exact inv.readStep hc enabled
      | releasing t n =>
          simp only [consumerStep, hc, Option.some.injEq] at enabled
          subst enabled
          exact ⟨ch, inv.release hc⟩
      | popFetching t =>
          simp only [consumerStep, hc, Option.some.injEq] at enabled
          subst enabled
          exact ⟨ch, inv.popFetch hc⟩
      | popReleasing t e =>
          simp only [consumerStep, hc, Option.some.injEq] at enabled
          subst enabled
          exact ⟨ch, inv.popRelease hc⟩
      | popReading e buffer => exact inv.popReadStep hc enabled

/-! ## Every interleaving -/

/-- A freshly built ring meets the invariant when `h + 3` cannot wrap. -/
theorem ringInv_fresh {size elementSize : Nat} {data : Nat → Nat} {elements : Nat → Nat → β}
    {q : DataSpscRing β} (built : dataSpscRingInit size elementSize data elements = some q)
    (bounded : size + 4 < 2 ^ 32) : RingInv (.fresh q) 0 0 := by
  unfold dataSpscRingInit at built
  split at built
  · cases built
  · rename_i hvalid
    rw [u32_of_lt (by omega)] at built
    cases built
    refine
      { size_ge := ?_, size_le := ?_, element_pos := ?_, ct_le := le_rfl,
        released_le := le_rfl, ch_le := le_rfl, pushed_le := ?_, head_eq := rfl,
        tail_eq := rfl, cachedTail_eq := rfl, cachedHead_eq := rfl,
        data_eq := ?_, content_eq := ?_, reads_eq := List.prefix_rfl, used_lt := ?_,
        producer_inv := trivial, consumer_inv := rfl }
    · simp only [RingState.fresh]
      omega
    · simp only [RingState.fresh]
      omega
    · simp only [RingState.fresh]
      omega
    · simp only [RingState.fresh, List.length_nil]
      omega
    · intro j _ upper
      exact absurd upper (Nat.not_lt_zero j)
    · intro j _ upper
      exact absurd upper (Nat.not_lt_zero j)
    · intro i hmem
      exact absurd hmem List.not_mem_nil

/-- Whatever the interleaving, a ring whose `h + 3` cannot wrap keeps the
invariant. -/
theorem ringInv_of_reachable {size elementSize : Nat} (bounded : size + 4 < 2 ^ 32)
    {s : RingState β} (reached : (ringMachine β size elementSize).Reachable s) :
    ∃ ct ch, RingInv s ct ch := by
  refine reached.invariant (fun state => ∃ ct ch, RingInv state ct ch) ?_ ?_
  · rintro _ ⟨data, elements, q, built, rfl⟩
    exact ⟨0, 0, ringInv_fresh built bounded⟩
  · rintro state label target ⟨ct, ch, inv⟩ enabled
    cases label with
    | producer act =>
        obtain ⟨ct', inv'⟩ := producerStep_inv inv enabled
        exact ⟨ct', ch, inv'⟩
    | consumer act =>
        obtain ⟨ch', inv'⟩ := consumerStep_inv inv enabled
        exact ⟨ct, ch', inv'⟩

/-- The number of slots between tail and head is the number of elements pushed
and not released. -/
theorem RingInv.unreleased_count {s : RingState β} {ct ch : Nat} (inv : RingInv s ct ch) :
    (s.ring.head + s.ring.size - s.ring.tail) % s.ring.size = s.pushed.length - s.released := by
  have hct := inv.ct_le
  have hch := inv.ch_le
  have hreleased := inv.released_le
  have hpushed := inv.pushed_le
  have htail := inv.tail_lt
  have hsub : s.released + (s.pushed.length - s.released) = s.pushed.length := by omega
  have hhead : (s.ring.tail + (s.pushed.length - s.released)) % s.ring.size = s.ring.head := by
    rw [inv.tail_eq, Nat.mod_add_mod, hsub, inv.head_eq]
  by_cases hwrap : s.ring.tail + (s.pushed.length - s.released) < s.ring.size
  · rw [Nat.mod_eq_of_lt hwrap] at hhead
    have hsum : s.ring.head + s.ring.size - s.ring.tail =
        (s.pushed.length - s.released) + s.ring.size := by omega
    rw [hsum, Nat.add_mod_right, Nat.mod_eq_of_lt (by omega)]
  · rw [Nat.mod_eq_sub_mod (by omega), Nat.mod_eq_of_lt (by omega)] at hhead
    have hsum : s.ring.head + s.ring.size - s.ring.tail = s.pushed.length - s.released := by
      omega
    rw [hsum, Nat.mod_eq_of_lt (by omega)]

/-- The element at `_head` belongs to the producer alone. -/
theorem RingInv.headIsPrivate {s : RingState β} {ct ch : Nat} (inv : RingInv s ct ch) :
    HeadIsPrivate s := by
  have hch := inv.ch_le
  have hct := inv.ct_le
  have hreleased := inv.released_le
  have hpushed := inv.pushed_le
  constructor
  · intro e hobtained
    have hcons := inv.consumer_inv
    unfold ConsumerInv at hcons
    cases hc : s.consumer <;> simp only [hc, Consumer.element?, reduceCtorEq] at hobtained hcons
    all_goals obtain rfl : _ = e := Option.some.inj hobtained
    · obtain ⟨⟨-, hreads, hknown, -⟩, hi, rfl, -⟩ := hcons
      exact inv.mod_ne_head le_rfl (by omega)
    · obtain ⟨-, hreads, hknown, rfl⟩ := hcons
      exact inv.mod_ne_head le_rfl (by omega)
    · obtain ⟨hreads, rfl, -⟩ := hcons
      exact inv.mod_ne_head le_rfl (by omega)
  · intro slot hmem
    simp only [DataSpscRing.unreleasedSlots, List.mem_map, List.mem_range,
      inv.unreleased_count] at hmem
    obtain ⟨i, hi, rfl⟩ := hmem
    rw [inv.tail_eq, Nat.mod_add_mod, inv.data_eq _ (by omega) (by omega), inv.head_eq]
    exact (mod_ne_of_lt (by omega) (by omega)).symm

end MmtProbe.Capture
