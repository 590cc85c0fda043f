/-
# Writing runs of bytes into a block of memory

A function that formats text writes one byte after the other, sometimes from the
last one to the first one.  What it leaves behind is one run of bytes in an
otherwise unchanged block: `splice memory address bytes`.  The lemmas put writes
together, in both directions, so that a formatter is described by the text it
writes.
-/

import MmtProbe.Math.Bytes

namespace MmtProbe.Math

/-- A string of C: its characters, none of which is the NUL that ends it. -/
structure CString where
  bytes : List UInt8
  plain : (0 : UInt8) ∉ bytes
deriving DecidableEq

/-- What C sees of a sequence of bytes. -/
def CString.of (bytes : List UInt8) : CString where
  bytes := cstring bytes
  plain := fun listed => by simpa using List.mem_takeWhile_imp listed

/-- A string literal. -/
def CString.ofText (text : String) : CString := .of (bytesOf text)

/-- A block of memory in which `bytes` were written at an address. -/
def splice (memory : List UInt8) (address : Nat) (bytes : List UInt8) : List UInt8 :=
  memory.take address ++ (bytes ++ memory.drop (address + bytes.length))

/-- Write a number of bytes, as `memcpy` does. -/
def storeBytes (memory : List UInt8) (address : Nat) (bytes : List UInt8) :
    Except Fault (List UInt8) :=
  if address + bytes.length ≤ memory.length then .ok (splice memory address bytes)
  else .error (.store memory.length)

/-- A change of the reason does not change a result. -/
theorem mapError_ok {ε ε' α : Type} (change : ε → ε') (result : α) :
    (Except.ok result : Except ε α).mapError change = .ok result := rfl

variable {memory x y : List UInt8} {address : Nat} {byte : UInt8}

@[simp]
theorem splice_nil (memory : List UInt8) (address : Nat) : splice memory address [] = memory := by
  simp [splice]

@[simp]
theorem length_splice (fits : address + x.length ≤ memory.length) :
    (splice memory address x).length = memory.length := by
  simp only [splice, List.length_append, List.length_take, List.length_drop]
  omega

/-- Two writes, the second one right behind the first one. -/
theorem splice_splice (fits : address + (x.length + y.length) ≤ memory.length) :
    splice (splice memory address x) (address + x.length) y = splice memory address (x ++ y) := by
  have htake : (memory.take address).length = address := by
    rw [List.length_take]
    omega
  have hlength : (memory.take address ++ x).length = address + x.length := by
    rw [List.length_append, htake]
  have hfront : splice memory address x =
      (memory.take address ++ x) ++ memory.drop (address + x.length) := by
    rw [splice, List.append_assoc]
  rw [hfront, splice, ← hlength, List.take_left, ← List.drop_drop, List.drop_left, hlength,
    List.drop_drop]
  simp [splice, Nat.add_assoc]

/-- Two writes, the second one right before the first one. -/
theorem splice_splice_before (fits : address + (x.length + y.length) ≤ memory.length) :
    splice (splice memory (address + x.length) y) address x = splice memory address (x ++ y) := by
  have htake : (memory.take (address + x.length)).length = address + x.length := by
    rw [List.length_take]
    omega
  rw [splice, splice, List.take_append_of_le_length (by omega), List.take_take,
    Nat.min_eq_left (by omega), List.drop_append, htake, Nat.sub_self, List.drop_zero,
    List.drop_eq_nil_of_le (by omega)]
  simp [splice, Nat.add_assoc]

/-- Writing one byte is a run of length one. -/
theorem store_eq_splice (inside : address < memory.length) (byte : UInt8) :
    store memory address byte = .ok (splice memory address [byte]) := by
  rw [store, if_pos inside, splice, List.set_eq_take_append_cons_drop, if_pos inside]
  rfl

/-- One more byte behind those that were written. -/
theorem store_splice (x : List UInt8) (fits : address + (x.length + 1) ≤ memory.length)
    (byte : UInt8) :
    store (splice memory address x) (address + x.length) byte =
      .ok (splice memory address (x ++ [byte])) := by
  have hlength : (splice memory address x).length = memory.length := length_splice (by omega)
  rw [store_eq_splice (by omega), splice_splice (by rw [List.length_singleton]; omega)]

/-- One of the bytes that were written is replaced. -/
theorem store_splice_inside (x y : List UInt8)
    (fits : address + (x.length + (y.length + 1)) ≤ memory.length) (old byte : UInt8) :
    store (splice memory address (x ++ old :: y)) (address + x.length) byte =
      .ok (splice memory address (x ++ byte :: y)) := by
  have hbefore : (memory.take address ++ x).length = address + x.length := by
    rw [List.length_append, List.length_take]
    omega
  have hsplit : ∀ b : UInt8, splice memory address (x ++ b :: y) = (memory.take address ++ x) ++
      b :: (y ++ memory.drop (address + (x.length + (y.length + 1)))) := by
    intro b
    simp [splice]
  rw [hsplit old, hsplit byte, ← hbefore]
  exact store_append _ _ _ _

theorem storeBytes_eq_splice (fits : address + x.length ≤ memory.length) :
    storeBytes memory address x = .ok (splice memory address x) := if_pos fits

theorem load_splice (fits : address + x.length ≤ memory.length) {offset : Nat}
    (inside : x[offset]? = some byte) :
    load (splice memory address x) (address + offset) = .ok byte := by
  have htake : (memory.take address).length = address := by
    rw [List.length_take]
    omega
  have hlt : offset < x.length := (List.getElem?_eq_some_iff.mp inside).1
  rw [load, splice, List.getElem?_append_right (by omega), htake, Nat.add_sub_cancel_left,
    List.getElem?_append_left hlt, inside]

/-- A text that was written with a NUL behind it is read up to its first NUL. -/
theorem loadString_splice_cstring (fits : address + (x.length + 1) ≤ memory.length) :
    loadString (splice memory address (x ++ [0])) address = .ok (cstring x) := by
  have htake : (memory.take address).length = address := by
    rw [List.length_take]
    omega
  have hsplit : splice memory address (x ++ [0]) =
      memory.take address ++ (x ++ 0 :: memory.drop (address + (x.length + 1))) := by
    simp [splice]
  have hread := loadString_append (memory.take address) x (memory.drop (address + (x.length + 1)))
  rw [htake] at hread
  rw [hsplit, hread]

/-- A text without a NUL is read back as a C string. -/
theorem loadString_splice (fits : address + (x.length + 1) ≤ memory.length)
    (plain : (0 : UInt8) ∉ x) : loadString (splice memory address (x ++ [0])) address = .ok x := by
  rw [loadString_splice_cstring fits, cstring_eq_self plain]

/-- What was written at the beginning of a buffer is followed by what it held before. -/
theorem splice_zero (memory bytes : List UInt8) :
    splice memory 0 bytes = bytes ++ memory.drop bytes.length := by
  simp [splice]

/-- Nothing is left of a buffer that was written as a whole. -/
theorem splice_zero_full {memory bytes : List UInt8} (whole : memory.length = bytes.length) :
    splice memory 0 bytes = bytes := by
  rw [splice_zero, ← whole, List.drop_length, List.append_nil]

theorem store_splice_zero {memory : List UInt8} (written : List UInt8)
    (fits : written.length + 1 ≤ memory.length) (byte : UInt8) :
    store (splice memory 0 written) written.length byte =
      .ok (splice memory 0 (written ++ [byte])) := by
  have hstore := @store_splice memory 0 written (by omega) byte
  rwa [Nat.zero_add] at hstore

/-! ## Numbers in memory -/

/-- The bytes of a number, on a little-endian machine. -/
def littleEndian : Nat → Nat → List UInt8
  | 0, _ => []
  | width + 1, n => UInt8.ofNat n :: littleEndian width (n / 256)

/-- The number some bytes stand for. -/
def littleValue (bytes : List UInt8) : Nat := bytes.foldr (fun byte n => byte.toNat + 256 * n) 0

@[simp]
theorem length_littleEndian (width n : Nat) : (littleEndian width n).length = width := by
  induction width generalizing n with
  | zero => rfl
  | succ width ih => rw [littleEndian, List.length_cons, ih]

theorem littleValue_littleEndian {width n : Nat} (fits : n < 256 ^ width) :
    littleValue (littleEndian width n) = n := by
  induction width generalizing n with
  | zero =>
      have hzero : n = 0 := by simpa using fits
      rw [hzero]
      rfl
  | succ width ih =>
      have hdiv : n / 256 < 256 ^ width := by
        rw [Nat.div_lt_iff_lt_mul (by decide), ← Nat.pow_succ]
        exact fits
      have hcons : littleValue (littleEndian (width + 1) n) =
          (UInt8.ofNat n).toNat + 256 * littleValue (littleEndian width (n / 256)) := rfl
      rw [hcons, ih hdiv, UInt8.toNat_ofNat']
      omega

end MmtProbe.Math
