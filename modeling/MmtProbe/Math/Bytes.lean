/-
# Byte memories with checked accesses

A block of memory is a list of bytes and a pointer into it is an offset.  Every
access says whether it stays inside the block: an access outside is a `Fault`,
not a default value, so a result about a program that reads and writes through
pointers also says that it keeps to the memory it was given.

The lemmas describe a memory around the accessed place, in the form
`before ++ byte :: after` with `before.length` as the pointer.
-/

import Mathlib.Algebra.Order.Ring.Int
import Mathlib.Data.List.TakeWhile

namespace MmtProbe.Math

/-- Why an execution over a block of memory does not return. -/
inductive Fault where
  /-- A read outside the block. -/
  | load (address : Nat)
  /-- A write outside the block. -/
  | store (address : Nat)
  /-- A loop was followed for more rounds than it was given. -/
  | rounds
deriving DecidableEq, Repr

/-- Subtraction of two `size_t` values. -/
def sizeSub (a b : Nat) : Nat := (a + 2 ^ 64 - b) % 2 ^ 64

/-- The address of `pointer[index]`, with the wrap-around of 64-bit pointers. -/
def index (pointer offset : Nat) : Nat := (pointer + offset) % 2 ^ 64

/-- The bytes of a text, without a NUL behind them. -/
def bytesOf (text : String) : List UInt8 := text.toByteArray.data.toList

/-- Read one byte. -/
def load (memory : List UInt8) (address : Nat) : Except Fault UInt8 :=
  match memory[address]? with
  | some byte => .ok byte
  | none => .error (.load address)

/-- Write one byte. -/
def store (memory : List UInt8) (address : Nat) (byte : UInt8) : Except Fault (List UInt8) :=
  if address < memory.length then .ok (memory.set address byte) else .error (.store address)

/-- Read bytes one after the other until one of them meets `stop`. -/
def scanBytes (stop : UInt8 → Bool) : List UInt8 → Nat → Except Fault Nat
  | [], address => .error (.load address)
  | byte :: bytes, address =>
      if stop byte then .ok address else scanBytes stop bytes (address + 1)

/-- The address of the first byte from `address` on that meets `stop`. -/
def scan (stop : UInt8 → Bool) (memory : List UInt8) (address : Nat) : Except Fault Nat :=
  scanBytes stop (memory.drop address) address

/-- What a C function sees of a sequence of bytes: those before the first NUL. -/
def cstring (bytes : List UInt8) : List UInt8 := bytes.takeWhile (· != 0)

/-- Read the NUL-terminated string at an address. -/
def loadString (memory : List UInt8) (address : Nat) : Except Fault (List UInt8) :=
  (scan (· == 0) memory address).map fun stop => (memory.drop address).take (stop - address)

/-- Read a number of bytes. -/
def loadBytes (memory : List UInt8) (address count : Nat) : Except Fault (List UInt8) :=
  if address + count ≤ memory.length then .ok ((memory.drop address).take count)
  else .error (.load memory.length)

/-- The two bytes of a 16-bit word, on a little-endian machine. -/
def bytes16 (word : Nat) : List UInt8 := [UInt8.ofNat word, UInt8.ofNat (word / 2 ^ 8)]

/-- Read a 16-bit word. -/
def load16 (memory : List UInt8) (address : Nat) : Except Fault Nat := do
  let low ← load memory address
  let high ← load memory (address + 1)
  return low.toNat + 2 ^ 8 * high.toNat

/-! ## Accesses around a known place -/

variable {before body after : List UInt8} {byte : UInt8}

/-- Going on after a step that returned. -/
theorem bind_ok {ε α β : Type} (result : α) (next : α → Except ε β) :
    (Except.ok result >>= next) = next result := rfl

/-- A sequence of two steps returns when both of them do. -/
theorem bind_eq_ok_iff {ε α β : Type} {first : Except ε α} {next : α → Except ε β} {result : β} :
    (first >>= next) = .ok result ↔ ∃ middle, first = .ok middle ∧ next middle = .ok result := by
  cases first with
  | error reason => simp [bind, Except.bind]
  | ok middle => simp [bind_ok]

/-- A sequence of two steps fails when one of them does. -/
theorem bind_eq_error_iff {ε α β : Type} {first : Except ε α} {next : α → Except ε β}
    {reason : ε} : (first >>= next) = .error reason ↔
      first = .error reason ∨ ∃ middle, first = .ok middle ∧ next middle = .error reason := by
  cases first with
  | error given => simp [bind, Except.bind]
  | ok middle => simp [bind_ok]

/-- Changing the result does not change a failure. -/
theorem map_eq_error_iff {ε α β : Type} {change : α → β} {first : Except ε α} {reason : ε} :
    first.map change = .error reason ↔ first = .error reason := by
  cases first with
  | error given => simp [Except.map]
  | ok middle => simp [Except.map]

/-- A changed result comes from a result. -/
theorem map_eq_ok_iff {ε α β : Type} {change : α → β} {first : Except ε α} {result : β} :
    first.map change = .ok result ↔ ∃ middle, first = .ok middle ∧ change middle = result := by
  cases first with
  | error reason => simp [Except.map]
  | ok middle => simp [Except.map]

theorem sizeSub_of_le {a b : Nat} (fits : a < 2 ^ 64) (ordered : b ≤ a) :
    sizeSub a b = a - b := by
  unfold sizeSub
  omega

theorem index_of_lt {pointer offset : Nat} (fits : pointer + offset < 2 ^ 64) :
    index pointer offset = pointer + offset := Nat.mod_eq_of_lt fits

@[simp]
theorem load_append (before after : List UInt8) (byte : UInt8) :
    load (before ++ byte :: after) before.length = .ok byte := by
  simp [load]

@[simp]
theorem store_append (before after : List UInt8) (old byte : UInt8) :
    store (before ++ old :: after) before.length byte = .ok (before ++ byte :: after) := by
  simp [store]

/-- Reading the byte behind a known part of the memory. -/
@[simp]
theorem load_append_append (before body after : List UInt8) (byte : UInt8) :
    load (before ++ (body ++ byte :: after)) (before.length + body.length) = .ok byte := by
  simpa using load_append (before ++ body) after byte

/-- Writing the byte behind a known part of the memory. -/
@[simp]
theorem store_append_append (before body after : List UInt8) (old byte : UInt8) :
    store (before ++ (body ++ old :: after)) (before.length + body.length) byte =
      .ok (before ++ (body ++ byte :: after)) := by
  simpa using store_append (before ++ body) after old byte

theorem scanBytes_append {stop : UInt8 → Bool} (passed : ∀ b ∈ body, stop b = false)
    (stops : stop byte = true) (address : Nat) :
    scanBytes stop (body ++ byte :: after) address = .ok (address + body.length) := by
  induction body generalizing address with
  | nil => simp [scanBytes, stops]
  | cons b body ih =>
      have hb : stop b = false := passed b List.mem_cons_self
      have hrest := ih (fun x hx => passed x (List.mem_cons_of_mem _ hx)) (address + 1)
      rw [List.cons_append, scanBytes, hb, List.length_cons]
      simpa [Nat.add_assoc, Nat.add_comm 1] using hrest

/-- A scan stops at the first byte that meets its condition. -/
theorem scan_append {stop : UInt8 → Bool} (passed : ∀ b ∈ body, stop b = false)
    (stops : stop byte = true) :
    scan stop (before ++ (body ++ byte :: after)) before.length =
      .ok (before.length + body.length) := by
  rw [scan, List.drop_left]
  exact scanBytes_append passed stops _

/-- A scan that meets no byte of its condition reads beyond the block. -/
theorem scan_append_end {stop : UInt8 → Bool} (passed : ∀ b ∈ body, stop b = false) :
    scan stop (before ++ body) before.length = .error (.load (before.length + body.length)) := by
  rw [scan, List.drop_left]
  generalize before.length = address
  induction body generalizing address with
  | nil => rfl
  | cons b body ih =>
      have hb : stop b = false := passed b List.mem_cons_self
      have hrest := ih (fun x hx => passed x (List.mem_cons_of_mem _ hx)) (address + 1)
      rw [scanBytes, hb, List.length_cons]
      simpa [Nat.add_assoc, Nat.add_comm 1] using hrest

/-- A scan that has a byte of its condition ahead of it stops there at the latest. -/
theorem exists_scan (stop : UInt8 → Bool) {memory : List UInt8} {address last : Nat}
    (ahead : address ≤ last) (found : memory[last]? = some byte) (stops : stop byte = true) :
    ∃ place, scan stop memory address = .ok place ∧ address ≤ place ∧ place ≤ last := by
  have hscan : ∀ (bytes : List UInt8) (distance address : Nat), bytes[distance]? = some byte →
      ∃ place, scanBytes stop bytes address = .ok place ∧ address ≤ place ∧
        place ≤ address + distance := by
    intro bytes
    induction bytes with
    | nil =>
        intro distance address hfound
        simp at hfound
    | cons b bytes ih =>
        intro distance address hfound
        by_cases hb : stop b = true
        · exact ⟨address, by simp [scanBytes, hb], Nat.le_refl _, Nat.le_add_right _ _⟩
        · cases distance with
          | zero => exact absurd (by simpa using hfound) (fun h : b = byte => hb (h ▸ stops))
          | succ distance =>
              obtain ⟨place, hplace, hlow, hhigh⟩ :=
                ih distance (address + 1) (by simpa using hfound)
              exact ⟨place, by simpa [scanBytes, hb] using hplace, by omega, by omega⟩
  obtain ⟨place, hplace, hlow, hhigh⟩ := hscan (memory.drop address) (last - address) address
    (by rwa [List.getElem?_drop, Nat.add_sub_cancel' ahead])
  exact ⟨place, hplace, hlow, by omega⟩

/-- A read in front of a place that is in the block. -/
theorem exists_load {memory : List UInt8} {address last : Nat} (ahead : address ≤ last)
    (found : memory[last]? = some byte) : ∃ value, load memory address = .ok value ∧
      memory[address]? = some value := by
  have hlast : last < memory.length := (List.getElem?_eq_some_iff.mp found).1
  have hinside : address < memory.length := Nat.lt_of_le_of_lt ahead hlast
  exact ⟨memory[address], by simp [load, hinside], List.getElem?_eq_getElem hinside⟩

/-- A byte in front of a NUL that is not the NUL itself is not the last one. -/
theorem lt_of_ne_nul {memory : List UInt8} {address last : Nat} (ahead : address ≤ last)
    (terminated : memory[last]? = some 0) (found : memory[address]? = some byte)
    (other : byte ≠ 0) : address < last := by
  refine Nat.lt_of_le_of_ne ahead ?_
  rintro rfl
  rw [terminated] at found
  exact other (Option.some.inj found).symm

theorem cstring_eq_self (plain : (0 : UInt8) ∉ body) : cstring body = body := by
  rw [cstring, List.takeWhile_eq_self_iff]
  intro b hb
  have hne : b ≠ 0 := fun h => plain (h ▸ hb)
  simpa using hne

theorem length_cstring_le (bytes : List UInt8) : (cstring bytes).length ≤ bytes.length :=
  (List.takeWhile_prefix _).length_le

/-- Reading a string that is closed by a NUL gives what C sees of it. -/
theorem loadString_append (before body after : List UInt8) :
    loadString (before ++ (body ++ 0 :: after)) before.length = .ok (cstring body) := by
  obtain ⟨rest, hrest⟩ : ∃ rest, body ++ 0 :: after = cstring body ++ 0 :: rest := by
    induction body with
    | nil => exact ⟨after, rfl⟩
    | cons b body ih =>
        by_cases hb : b = 0
        · subst hb
          exact ⟨body ++ 0 :: after, rfl⟩
        · obtain ⟨rest, hrest⟩ := ih
          exact ⟨rest, by simp [cstring, hb, hrest]⟩
  have hpassed : ∀ b ∈ cstring body, (b == 0) = false := fun b hb => by
    have := List.mem_takeWhile_imp hb
    simpa using this
  rw [loadString, hrest, scan_append hpassed rfl]
  simp [Except.map]

/-- A string that is closed by a NUL at the beginning of a block. -/
theorem loadString_front {text : List UInt8} (plain : (0 : UInt8) ∉ text) (after : List UInt8) :
    loadString (text ++ 0 :: after) 0 = .ok text := by
  have hread := loadString_append [] text after
  rwa [cstring_eq_self plain] at hread

theorem loadBytes_append (before body after : List UInt8) :
    loadBytes (before ++ (body ++ after)) before.length body.length = .ok body := by
  simp [loadBytes]

theorem load16_append {word : Nat} (fits : word < 2 ^ 16) (before after : List UInt8) :
    load16 (before ++ (bytes16 word ++ after)) before.length = .ok word := by
  have hlow : load (before ++ (bytes16 word ++ after)) before.length
      = .ok (UInt8.ofNat word) := load_append _ _ _
  have hhigh : load (before ++ (bytes16 word ++ after)) (before.length + 1)
      = .ok (UInt8.ofNat (word / 2 ^ 8)) := by
    have := load_append (before ++ [UInt8.ofNat word]) after (UInt8.ofNat (word / 2 ^ 8))
    simpa [bytes16] using this
  simp only [load16, hlow, hhigh, bind, Except.bind, pure, Except.pure]
  simp only [UInt8.toNat_ofNat', Except.ok.injEq]
  omega

/-! ## Lines of text -/

/-- The text made of some lines, each of them ended by a newline. -/
def unlines (lines : List (List UInt8)) : List UInt8 := lines.flatMap (· ++ [10])

@[simp]
theorem unlines_nil : unlines [] = [] := rfl

@[simp]
theorem unlines_cons (line : List UInt8) (lines : List (List UInt8)) :
    unlines (line :: lines) = line ++ 10 :: unlines lines := by
  simp [unlines]

/-- A text made of lines ends with a newline. -/
theorem exists_unlines_eq_concat (line : List UInt8) (lines : List (List UInt8)) :
    ∃ front, unlines (line :: lines) = front ++ [10] := by
  induction lines generalizing line with
  | nil => exact ⟨line, by simp⟩
  | cons following lines ih =>
      obtain ⟨front, hfront⟩ := ih following
      exact ⟨line ++ 10 :: front, by rw [unlines_cons, hfront]; simp⟩

theorem length_le_length_unlines (lines : List (List UInt8)) :
    lines.length ≤ (unlines lines).length := by
  induction lines with
  | nil => exact Nat.zero_le _
  | cons line lines ih =>
      rw [unlines_cons, List.length_append, List.length_cons, List.length_cons]
      omega

theorem length_le_of_mem_lines {line : List UInt8} {lines : List (List UInt8)}
    (listed : line ∈ lines) : line.length ≤ (unlines lines).length := by
  obtain ⟨first, rest, rfl⟩ := List.append_of_mem listed
  simp only [unlines, List.flatMap_append, List.flatMap_cons, List.length_append]
  omega

/-- Every text that ends with a newline is made of lines. -/
theorem exists_unlines (bytes : List UInt8) :
    ∃ line lines, bytes ++ [10] = unlines (line :: lines) ∧
      ∀ l ∈ line :: lines, (10 : UInt8) ∉ l := by
  induction bytes with
  | nil => exact ⟨[], [], rfl, by simp⟩
  | cons b bytes ih =>
      obtain ⟨line, lines, htext, hfree⟩ := ih
      by_cases hb : b = 10
      · refine ⟨[], line :: lines, by simp [hb, htext], ?_⟩
        simpa using hfree
      · refine ⟨b :: line, lines, by simp [htext], ?_⟩
        rw [List.forall_mem_cons] at hfree ⊢
        rw [List.mem_cons, not_or]
        exact ⟨⟨fun h => hb h.symm, hfree.1⟩, hfree.2⟩

/-- The first place of a byte splits a text in one way only. -/
theorem split_injective {left left' right right' : List UInt8} (hleft : byte ∉ left)
    (hleft' : byte ∉ left') (same : left ++ byte :: right = left' ++ byte :: right') :
    left = left' ∧ right = right' := by
  have htake : ∀ {bytes rest : List UInt8}, byte ∉ bytes →
      (bytes ++ byte :: rest).takeWhile (· != byte) = bytes := fun {bytes rest} absent => by
    rw [List.takeWhile_append_of_pos fun b hb => by
      have : b ≠ byte := fun h => absent (h ▸ hb)
      simpa using this]
    simp
  have hprefix := congrArg (List.takeWhile (· != byte)) same
  rw [htake hleft, htake hleft'] at hprefix
  subst hprefix
  simpa using same

/-- A text is made of lines in one way only. -/
theorem unlines_injective {first second : List (List UInt8)}
    (hfirst : ∀ l ∈ first, (10 : UInt8) ∉ l) (hsecond : ∀ l ∈ second, (10 : UInt8) ∉ l)
    (same : unlines first = unlines second) : first = second := by
  induction first generalizing second with
  | nil =>
      cases second with
      | nil => rfl
      | cons line lines => simp at same
  | cons line lines ih =>
      cases second with
      | nil => simp at same
      | cons line' lines' =>
          simp only [List.forall_mem_cons] at hfirst hsecond
          rw [unlines_cons, unlines_cons] at same
          obtain ⟨hline, hlines⟩ := split_injective hfirst.1 hsecond.1 same
          rw [hline, ih hfirst.2 hsecond.2 hlines]

end MmtProbe.Math
