/-
# Attributes of the event reports

An event report names its event and its attributes by a protocol and an attribute with a
dot between them.  `_parse_dpi_protocol_attribute` goes to the dot and only then asks
whether it has come to the end of the string, but nothing stops it there.  So the message
about an attribute that is not well-formatted is never printed: a string without a dot,
such as the default of an event, is read beyond its NUL.

The memory ends with the NUL of the string, and a read behind it is a fault.
-/

import MmtProbe.Math.Buffer

namespace MmtProbe.Configure

open MmtProbe.Math

/-! ## The code -/

/-- Why a configuration is not loaded. -/
inductive Halt where
  /-- An access outside a string. -/
  | fault (reason : Fault)
  /-- The process is ended with a message. -/
  | abort (message : List UInt8)
deriving DecidableEq, Repr

/-- `dpi_protocol_attribute_t` -/
structure DpiProtocolAttribute where
  protoName : List UInt8
  attributeName : List UInt8
deriving DecidableEq, Repr

/-- `str[index]`, with an index of type `int`. -/
def charAt (str : List UInt8) (index : Int) : Except Fault UInt8 :=
  if 0 ≤ index then load str index.toNat else .error (.load (index % 2 ^ 64).toNat)

/-- `index ++`; the largest `int` is followed by the smallest one. -/
def nextIndex (index : Int) : Int := Int.bmod (index + 1) (2 ^ 32)

/-- The loop that goes to the dot. -/
def findDot (str : List UInt8) : Nat → Int → Except Fault Int
  | 0, _ => .error .rounds
  | rounds + 1, index => do
      let byte ← charAt str index
      if byte ≠ 46 then findDot str rounds (nextIndex index) else return index

/-- `mmt_strndup`: one byte more is copied, and then replaced by the NUL. -/
def mmtStrndup (str : List UInt8) (size : Nat) : Except Fault (List UInt8) := do
  let copy ← loadBytes str 0 (size + 1)
  store copy size 0

/-- "Attribute [%s] is not well-formatted" -/
def notWellFormatted (str : CString) : List UInt8 :=
  bytesOf "Attribute [" ++ (str.bytes ++
    bytesOf "] is not well-formatted (must be in form proto.att, e.g., HTTP.METHOD)")

/-- The two names around the place of the dot. -/
def namesAround (str : List UInt8) (index : Nat) : Except Fault DpiProtocolAttribute := do
  let protoName ← mmtStrndup str index
  let attributeName ← loadString str (index + 1)
  return ⟨cstring protoName, attributeName⟩

/-- `_parse_dpi_protocol_attribute` -/
def parseDpiProtocolAttribute (str : CString) : Except Halt DpiProtocolAttribute := do
  let memory := str.bytes ++ [0]
  -- every round but the last one reads a byte of the string
  let index ← (findDot memory (memory.length + 1) 0).mapError .fault
  let byte ← (charAt memory index).mapError .fault
  if byte = 0 then .error (.abort (notWellFormatted str))
  else (namesAround memory index.toNat).mapError .fault

/-- `_parse_attributes_helper`; the number of strings is stored in 16 bits. -/
def parseAttributesHelper (strings : List CString) : Except Halt (List DpiProtocolAttribute) :=
  (strings.take (strings.length % 2 ^ 16)).mapM parseDpiProtocolAttribute

/-- The attributes of an `event-report` block. -/
def parseEventBlock (event : CString) (attributes : List CString) :
    Except Halt (DpiProtocolAttribute × List DpiProtocolAttribute) := do
  let event ← parseDpiProtocolAttribute event
  let attributes ← parseAttributesHelper attributes
  return (event, attributes)

/-! ## What is wanted -/

/-- A string is parsed without a read behind it: into what is before its first dot and what
is behind it, or, without a dot, into the message. -/
structure ParsesWithin (str : CString) : Prop where
  names : ∀ protoName attributeName, str.bytes = protoName ++ 46 :: attributeName →
    46 ∉ protoName → parseDpiProtocolAttribute str = .ok ⟨protoName, attributeName⟩
  refused : 46 ∉ str.bytes →
    parseDpiProtocolAttribute str = .error (.abort (notWellFormatted str))

/-- A dot is found before an `int` is too small to count the characters. -/
def HasDot (str : CString) : Prop := 46 ∈ str.bytes.take (2 ^ 31)

instance (str : CString) : Decidable (HasDot str) :=
  inferInstanceAs (Decidable (46 ∈ str.bytes.take (2 ^ 31)))

/-! ## The loop -/

variable {str : List UInt8} {n : Nat}

theorem charAt_natCast (str : List UInt8) (n : Nat) : charAt str n = load str n :=
  if_pos (Int.natCast_nonneg n)

theorem nextIndex_natCast (small : n + 1 < 2 ^ 31) : nextIndex n = (n + 1 : Nat) := by
  rw [nextIndex, Int.bmod_eq_of_le (by omega) (by omega)]
  rfl

/-- Characters that are no dots are passed, one in each round. -/
theorem findDot_pass (passed : ∀ byte ∈ str.take n, byte ≠ 46) (inside : n ≤ str.length)
    (small : n < 2 ^ 31) (rounds : Nat) :
    findDot str (rounds + n) 0 = findDot str rounds n := by
  induction n generalizing rounds with
  | zero => rfl
  | succ n ih =>
      have hlt : n < str.length := inside
      have hload : load str n = .ok str[n] := by rw [load, List.getElem?_eq_getElem hlt]
      have hne : str[n] ≠ 46 := by
        apply passed
        rw [List.take_succ_eq_append_getElem hlt]
        exact List.mem_append_right _ List.mem_cons_self
      have hfirst : ∀ byte ∈ str.take n, byte ≠ 46 := fun byte listed =>
        passed byte (List.take_subset_take_left str (Nat.le_succ n) listed)
      have hrounds : rounds + (n + 1) = rounds + 1 + n := by omega
      rw [hrounds, ih hfirst (by omega) (by omega), findDot, charAt_natCast, hload, bind_ok,
        if_pos hne, nextIndex_natCast small]

/-- The loop ends at the first dot. -/
theorem findDot_eq {before after : List UInt8} (noDot : 46 ∉ before)
    (small : before.length < 2 ^ 31) (rounds : Nat) :
    findDot (before ++ 46 :: after) (rounds + 1 + before.length) 0 = .ok (before.length : Int) := by
  have hpassed : ∀ byte ∈ (before ++ 46 :: after).take before.length, byte ≠ 46 := by
    intro byte listed
    rw [List.take_left] at listed
    exact ne_of_mem_of_not_mem listed noDot
  rw [findDot_pass hpassed (by rw [List.length_append]; omega) small, findDot, charAt_natCast,
    load_append, bind_ok]
  rfl

/-- Without a dot that it can count to, the loop leaves the string. -/
theorem exists_findDot_error (passed : ∀ byte ∈ str.take (2 ^ 31), byte ≠ 46) :
    ∃ reason, findDot str (str.length + 1) 0 = .error reason := by
  by_cases hshort : str.length < 2 ^ 31
  · -- the end of the string is passed
    have hload : load str str.length = .error (.load str.length) := by
      rw [load, List.getElem?_eq_none (Nat.le_refl _)]
    have hpass := findDot_pass (fun byte listed => passed byte
      (List.take_subset_take_left str (Nat.le_of_lt hshort) listed)) (Nat.le_refl _) hshort 1
    rw [Nat.add_comm, hpass, findDot, charAt_natCast, hload]
    exact ⟨_, rfl⟩
  · -- behind the largest `int` comes a negative one
    have hlt : 2 ^ 31 - 1 < str.length := by omega
    have hload : load str (2 ^ 31 - 1) = .ok str[2 ^ 31 - 1] := by
      rw [load, List.getElem?_eq_getElem hlt]
    have hne : str[2 ^ 31 - 1] ≠ 46 := by
      apply passed
      rw [List.mem_take_iff_getElem]
      exact ⟨2 ^ 31 - 1, by omega, rfl⟩
    have hnext : nextIndex ((2 ^ 31 - 1 : Nat) : Int) = -2 ^ 31 := by decide
    have hrounds : ∃ rounds, str.length + 1 = rounds + 2 + (2 ^ 31 - 1) :=
      ⟨str.length - 1 - (2 ^ 31 - 1), by omega⟩
    rcases hrounds with ⟨rounds, hrounds⟩
    have hpass := findDot_pass (fun byte listed => passed byte
      (List.take_subset_take_left str (by omega) listed)) (Nat.le_of_lt hlt) (by omega)
      (rounds + 2)
    rw [hrounds, hpass, findDot, charAt_natCast, hload, bind_ok, if_pos hne, hnext, findDot,
      charAt, if_neg (by decide)]
    exact ⟨_, rfl⟩

/-! ## A string -/

/-- What stands before the first byte of a kind. -/
theorem takeWhile_append_cons {stop : UInt8} {before : List UInt8} (absent : stop ∉ before)
    (after : List UInt8) : (before ++ stop :: after).takeWhile (· != stop) = before := by
  have hpassed : ∀ byte ∈ before, (byte != stop) = true := fun byte listed =>
    bne_iff_ne.mpr (ne_of_mem_of_not_mem listed absent)
  rw [List.takeWhile_append_of_pos hpassed, List.takeWhile_cons_of_neg (by simp),
    List.append_nil]

theorem namesAround_eq {before after : List UInt8} (plainBefore : (0 : UInt8) ∉ before)
    (plainAfter : (0 : UInt8) ∉ after) :
    namesAround (before ++ 46 :: (after ++ [0])) before.length = .ok ⟨before, after⟩ := by
  have hcopy : loadBytes (before ++ 46 :: (after ++ [0])) 0 (before.length + 1) =
      .ok (before ++ [46]) := by
    have hfits : 0 + (before.length + 1) ≤ (before ++ 46 :: (after ++ [0])).length := by
      simp only [List.length_append, List.length_cons]
      omega
    rw [loadBytes, if_pos hfits, List.drop_zero, List.take_length_add_append]
    rfl
  have hclose : store (before ++ [46]) before.length 0 = .ok (before ++ [0]) :=
    store_append before [] 46 0
  have hproto : cstring (before ++ [0]) = before := takeWhile_append_cons plainBefore []
  have hatt : loadString (before ++ 46 :: (after ++ [0])) (before.length + 1) = .ok after := by
    have hread := loadString_append (before ++ [46]) after []
    rw [List.length_append, List.length_singleton, List.append_assoc, List.singleton_append,
      cstring_eq_self plainAfter] at hread
    exact hread
  rw [namesAround, mmtStrndup, hcopy, bind_ok, hclose, bind_ok, hatt, bind_ok, hproto]
  rfl

/-- A string with a dot is cut there. -/
theorem parse_eq_ok {str : CString} {before after : List UInt8}
    (split : str.bytes = before ++ 46 :: after) (noDot : 46 ∉ before)
    (small : before.length < 2 ^ 31) : parseDpiProtocolAttribute str = .ok ⟨before, after⟩ := by
  have hplain := str.plain
  rw [split, List.mem_append, List.mem_cons, not_or, not_or] at hplain
  have hmemory : str.bytes ++ [0] = before ++ 46 :: (after ++ [0]) := by
    rw [split, List.append_assoc, List.cons_append]
  have hrounds : (before ++ 46 :: (after ++ [0])).length + 1 =
      after.length + 2 + 1 + before.length := by
    simp only [List.length_append, List.length_cons, List.length_nil]
    omega
  have hdot : findDot (before ++ 46 :: (after ++ [0]))
      ((before ++ 46 :: (after ++ [0])).length + 1) 0 = .ok (before.length : Int) := by
    rw [hrounds]
    exact findDot_eq noDot small _
  simp only [parseDpiProtocolAttribute, hmemory, hdot, mapError_ok, bind_ok, charAt_natCast,
    load_append, show ¬(46 : UInt8) = 0 by decide, if_false, Int.toNat_natCast,
    namesAround_eq hplain.1 hplain.2.2]

/-- A string without a dot is read behind its NUL. -/
theorem exists_parse_fault {str : CString} (noDot : ¬HasDot str) :
    ∃ reason, parseDpiProtocolAttribute str = .error (.fault reason) := by
  have hpassed : ∀ byte ∈ (str.bytes ++ [0]).take (2 ^ 31), byte ≠ 46 := by
    intro byte listed
    rw [List.take_append, List.mem_append] at listed
    rcases listed with hbyte | hnul
    · exact ne_of_mem_of_not_mem hbyte noDot
    · rw [List.mem_singleton.mp (List.mem_of_mem_take hnul)]
      decide
  rcases exists_findDot_error hpassed with ⟨reason, herror⟩
  refine ⟨reason, ?_⟩
  rw [parseDpiProtocolAttribute, herror]
  rfl

/-- The split at the first dot. -/
theorem HasDot.exists_split {str : CString} (hasDot : HasDot str) :
    ∃ before after, str.bytes = before ++ 46 :: after ∧ 46 ∉ before ∧
      before.length < 2 ^ 31 := by
  rcases List.eq_append_cons_of_mem hasDot with ⟨before, after, hsplit, hnoDot⟩
  have hlength := congrArg List.length hsplit
  rw [List.length_take, List.length_append, List.length_cons] at hlength
  refine ⟨before, after ++ str.bytes.drop (2 ^ 31), ?_, hnoDot, by omega⟩
  rw [← List.cons_append, ← List.append_assoc, ← hsplit, List.take_append_drop]

/-- The parser keeps to the string exactly when there is a dot to stop it. -/
theorem parsesWithin_iff (str : CString) : ParsesWithin str ↔ HasDot str := by
  constructor
  · intro within
    by_contra hnoDot
    rcases exists_parse_fault hnoDot with ⟨reason, hfault⟩
    by_cases hdot : 46 ∈ str.bytes
    · rcases List.eq_append_cons_of_mem hdot with ⟨before, after, hsplit, hbefore⟩
      have hnames := within.names before after hsplit hbefore
      rw [hfault] at hnames
      cases hnames
    · have hrefused := within.refused hdot
      rw [hfault] at hrefused
      cases hrefused
  · intro hasDot
    rcases hasDot.exists_split with ⟨before, after, hsplit, hbefore, hsmall⟩
    refine ⟨?_, ?_⟩
    · intro protoName attributeName hnames hnoDot
      have hsame : before = protoName := by
        rw [← takeWhile_append_cons hbefore after, ← hsplit, hnames,
          takeWhile_append_cons hnoDot]
      rw [hsame] at hsmall
      exact parse_eq_ok hnames hnoDot hsmall
    · intro hnone
      exact absurd (List.mem_of_mem_take hasDot) hnone

/-- The default of an event is read behind its end. -/
theorem not_parsesWithin_default :
    parseDpiProtocolAttribute (.ofText "") = .error (.fault (.load 1)) ∧
      ¬ParsesWithin (.ofText "") := by
  refine ⟨by decide +kernel, ?_⟩
  intro within
  have hrefused := within.refused (by decide +kernel)
  revert hrefused
  decide +kernel

/-! ## A block -/

theorem parse_isOk_iff (str : CString) :
    (parseDpiProtocolAttribute str).isOk = true ↔ HasDot str := by
  constructor
  · intro hok
    by_contra hnoDot
    rcases exists_parse_fault hnoDot with ⟨reason, hfault⟩
    rw [hfault] at hok
    cases hok
  · intro hasDot
    rcases hasDot.exists_split with ⟨before, after, hsplit, hbefore, hsmall⟩
    rw [parse_eq_ok hsplit hbefore hsmall]
    rfl

/-- An `event-report` block is parsed when its event and all its attributes have a dot. -/
theorem exists_parseEventBlock {event : CString} {attributes : List CString}
    (hasDot : HasDot event) (allDots : ∀ str ∈ attributes, HasDot str) :
    ∃ block, parseEventBlock event attributes = .ok block := by
  have hlist : ∀ strings : List CString, (∀ str ∈ strings, HasDot str) →
      ∃ names, strings.mapM parseDpiProtocolAttribute = .ok names := by
    intro strings
    induction strings with
    | nil => exact fun _ => ⟨[], rfl⟩
    | cons str strings ih =>
        intro hdots
        have hfirst := (parse_isOk_iff str).mpr (hdots str List.mem_cons_self)
        rcases ih fun s listed => hdots s (List.mem_cons_of_mem _ listed) with ⟨rest, hrest⟩
        cases hparse : parseDpiProtocolAttribute str with
        | error reason =>
            rw [hparse] at hfirst
            cases hfirst
        | ok name => exact ⟨name :: rest, by rw [List.mapM_cons, hparse, hrest]; rfl⟩
  rcases hasDot.exists_split with ⟨before, after, hsplit, hbefore, hsmall⟩
  rcases hlist (attributes.take (attributes.length % 2 ^ 16)) fun str listed =>
    allDots str (List.mem_of_mem_take listed) with ⟨names, hnames⟩
  refine ⟨(⟨before, after⟩, names), ?_⟩
  rw [parseEventBlock, parse_eq_ok hsplit hbefore hsmall, bind_ok, parseAttributesHelper, hnames]
  rfl

end MmtProbe.Configure
