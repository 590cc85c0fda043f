/-
# The string builder

`string_builder.h` formats every report line and every file name of the probe.
Each `append_*` function writes one element at a place of a buffer, with the room
that is left behind this place, and returns how many characters it wrote;
`STRING_BUILDER` and `STRING_BUILDER_WITH_SEPARATOR` apply them one after the
other and close the text with a NUL.

The functions are modelled over a block of memory in which every access is
checked.
-/

import MmtProbe.Math.Buffer
import MmtProbe.Math.Decimal
import MmtProbe.Math.Word
import MmtProbe.Dpi.SessionStat

namespace MmtProbe.Lib

open MmtProbe.Math MmtProbe.Dpi

/-- Why a formatting function does not return. -/
inductive Stop where
  /-- An access outside the buffer. -/
  | fault (reason : Fault)
  /-- An `ASSERT` that does not hold: the process is ended by `abort`. -/
  | abort
deriving DecidableEq, Repr

/-! ## One element -/

/-- `append_char` -/
def appendChar (memory : List UInt8) (dst dstSize : Nat) (c : UInt8) :
    Except Fault (Nat × List UInt8) :=
  if dstSize = 0 then .ok (0, memory)
  else do
    let memory ← store memory dst c
    return (1, memory)

/-- `append_string_without_quote` -/
def appendStringWithoutQuote (memory : List UInt8) (dst dstSize : Nat) (src : CString) :
    Except Fault (Nat × List UInt8) :=
  if dstSize = 0 then .ok (0, memory)
  else do
    let srcSize := if src.bytes.length > dstSize then dstSize else src.bytes.length
    let memory ← storeBytes memory dst (src.bytes.take srcSize)
    return (srcSize, memory)

/-- `append_string` -/
def appendString (memory : List UInt8) (dst dstSize : Nat) (src : CString) :
    Except Fault (Nat × List UInt8) :=
  if dstSize < 2 then .ok (0, memory)
  else if dstSize = 2 then do
    let memory ← store memory dst 34
    let memory ← store memory (dst + 1) 34
    return (2, memory)
  else do
    let srcSize := if src.bytes.length > dstSize - 2 then dstSize - 2 else src.bytes.length
    let memory ← store memory dst 34
    let memory ← (if srcSize ≠ 0 then storeBytes memory (dst + 1) (src.bytes.take srcSize)
      else .ok memory : Except Fault (List UInt8))
    let memory ← store memory (dst + (srcSize + 1)) 34
    return (srcSize + 2, memory)

/-- `append_hex` -/
def appendHex (memory : List UInt8) (dst dstSize : Nat) (val : UInt8) :
    Except Fault (Nat × List UInt8) :=
  if dstSize < 2 then .ok (0, memory)
  else do
    let digits := bytesOf "0123456789ABCDEF"
    let high ← load digits (val.toNat / 2 ^ 4)
    let memory ← store memory dst high
    let low ← load digits (val.toNat % 2 ^ 4)
    let memory ← store memory (dst + 1) low
    return (2, memory)

/-- One byte of `append_mac`, with the character behind it. -/
def appendMacByte (dst : Nat) (val next : UInt8) (sofar : Nat × List UInt8) :
    Except Fault (Nat × List UInt8) := do
  let (written, memory) ← appendHex sofar.2 (dst + sofar.1) 2 val
  let memory ← store memory (dst + (sofar.1 + written)) next
  return (sofar.1 + written + 1, memory)

/-- `append_mac` -/
def appendMac (memory : List UInt8) (dst dstSize : Nat) (t : Vector UInt8 6) :
    Except Fault (Nat × List UInt8) :=
  if dstSize < 19 then .ok (0, memory)
  else do
    let memory ← store memory dst 34
    let sofar ← appendMacByte dst t[0] 58 (1, memory)
    let sofar ← appendMacByte dst t[1] 58 sofar
    let sofar ← appendMacByte dst t[2] 58 sofar
    let sofar ← appendMacByte dst t[3] 58 sofar
    let sofar ← appendMacByte dst t[4] 58 sofar
    appendMacByte dst t[5] 34 sofar

/-- The six pairs of digits of a MAC address, without the quotes. -/
def macDigits (t : Vector UInt8 6) : List UInt8 :=
  let colon : List UInt8 := [58]
  hexText t[0] ++ colon ++ hexText t[1] ++ colon ++ hexText t[2] ++ colon ++
    hexText t[3] ++ colon ++ hexText t[4] ++ colon ++ hexText t[5]

/-- The table `digit_pairs` of `append_number`. -/
def digitPairs : List UInt8 := bytesOf
  ("00010203040506070809" ++ "10111213141516171819" ++ "20212223242526272829" ++
   "30313233343536373839" ++ "40414243444546474849" ++ "50515253545556575859" ++
   "60616263646566676869" ++ "70717273747576777879" ++ "80818283848586878889" ++
   "90919293949596979899")

/-- The number of digits of `append_number`; it is right from ten on. -/
def numberSize (val : Nat) : Nat :=
  if val ≥ 1000 then
    if val ≥ 100000 then
      if val ≥ 10000000 then
        if val ≥ 1000000000 then
          if val ≥ 100000000000 then
            if val ≥ 10000000000000 then
              if val ≥ 1000000000000000 then
                if val ≥ 100000000000000000 then
                  if val ≥ 10000000000000000000 then 20
                  else if val ≥ 1000000000000000000 then 19
                  else 18
                else if val ≥ 10000000000000000 then 17
                else 16
              else if val ≥ 100000000000000 then 15
              else 14
            else if val ≥ 1000000000000 then 13
            else 12
          else if val ≥ 10000000000 then 11
          else 10
        else if val ≥ 100000000 then 9
        else 8
      else if val ≥ 1000000 then 7
      else 6
    else if val ≥ 10000 then 5
    else 4
  else if val ≥ 100 then 3
  else 2

/-- The first loop of `append_number`: two digits at a time, from the last ones on.
The pointer and the value behind the loop are returned with the memory. -/
def appendPairs : Nat → List UInt8 → Nat → Nat → Except Fault (List UInt8 × Nat × Nat)
  | 0, _, _, _ => .error .rounds
  | rounds + 1, memory, c, val =>
      if val ≥ 100 then do
        let pos := val % 100
        let pair ← loadBytes digitPairs (2 * pos) 2
        let memory ← storeBytes memory (sizeSub c 1) pair
        appendPairs rounds memory (sizeSub c 2) (val / 100)
      else .ok (memory, c, val)

/-- The second loop of `append_number`: what is left, digit by digit. -/
def appendDigits : Nat → List UInt8 → Nat → Nat → Except Fault (List UInt8)
  | 0, _, _, _ => .error .rounds
  | rounds + 1, memory, c, val =>
      if val > 0 then do
        let memory ← store memory c (UInt8.ofNat (48 + val % 10))
        appendDigits rounds memory (sizeSub c 1) (val / 10)
      else .ok memory

/-- `append_number` -/
def appendNumber (memory : List UInt8) (dst dstSize : Nat) (val : UInt64) :
    Except Fault (Nat × List UInt8) :=
  if val.toNat < 10 ∧ dstSize > 0 then do
    let memory ← store memory dst (UInt8.ofNat (48 + val.toNat))
    return (1, memory)
  else
    let size := numberSize val.toNat
    if size > dstSize then .ok (0, memory)
    else do
      -- a value of 64 bits has at most 20 digits
      let (memory, c, rest) ← appendPairs 20 memory (dst + (size - 1)) val.toNat
      let memory ← appendDigits 20 memory c rest
      return (size, memory)

/-- The byte `p[i]` of a 32-bit address in memory, on a little-endian machine. -/
def ipByte (ip : UInt32) (i : Nat) : UInt8 := UInt8.ofNat (ip.toNat / 2 ^ (8 * i))

/-- One number of `append_ipv4`, behind the `valid` characters that are there. -/
def appendIpByte (dst dstSize : Nat) (val : UInt8) (sofar : Nat × List UInt8) :
    Except Fault (Nat × List UInt8) := do
  let (written, memory) ← appendNumber sofar.2 (dst + sofar.1) (sizeSub dstSize sofar.1)
    val.toUInt64
  return (sofar.1 + written, memory)

/-- The dot of `append_ipv4`. -/
def appendIpDot (dst : Nat) (sofar : Nat × List UInt8) : Except Fault (Nat × List UInt8) := do
  let memory ← store sofar.2 (dst + sofar.1) 46
  return (sofar.1 + 1, memory)

/-- `append_ipv4` -/
def appendIpv4 (memory : List UInt8) (dst dstSize : Nat) (ip : UInt32) :
    Except Fault (Nat × List UInt8) :=
  if dstSize < 16 then .ok (0, memory)
  else do
    let sofar ← appendIpByte dst dstSize (ipByte ip 0) (0, memory)
    let sofar ← appendIpDot dst sofar
    let sofar ← appendIpByte dst dstSize (ipByte ip 1) sofar
    let sofar ← appendIpDot dst sofar
    let sofar ← appendIpByte dst dstSize (ipByte ip 2) sofar
    let sofar ← appendIpDot dst sofar
    appendIpByte dst dstSize (ipByte ip 3) sofar

/-- The microseconds of `append_timeval`: six zeros at `dst`, then the digits are
copied from `tmp` to the end of them. -/
def appendMicroseconds (memory : List UInt8) (dst : Nat) (usec : UInt64) :
    Except Fault (List UInt8) := do
  let (len, tmp) ← appendNumber (List.replicate 6 0) 0 6 usec
  let memory ← storeBytes memory dst (List.replicate 6 48)
  (List.range len).foldlM
    (fun memory i => do
      let c ← load tmp i
      store memory (dst + (i + (6 - len))) c)
    memory

/-- `append_timeval` -/
def appendTimeval (memory : List UInt8) (dst dstSize : Nat) (t : Timeval) :
    Except Stop (Nat × List UInt8) :=
  if dstSize < 12 then .ok (0, memory)
  else do
    let (offset, memory) ← (appendNumber memory dst dstSize (UInt64.ofInt t.tvSec)).mapError .fault
    if offset > 12 then .error .abort
    else if dstSize < offset + 7 then .ok (offset, memory)
    else do
      let memory ← (store memory (dst + offset) 46).mapError .fault
      let memory ← (appendMicroseconds memory (dst + offset + 1)
        (UInt64.ofInt t.tvUsec)).mapError .fault
      return (offset + 1 + 6, memory)

/-! ## Several elements -/

/-- An element of the builder: a helper macro with its argument. -/
inductive Field where
  /-- `__ARR` -/
  | arr (src : CString)
  /-- `__STR` -/
  | str (src : CString)
  /-- `__INT` -/
  | int (val : UInt64)
  /-- `__CHAR` -/
  | char (c : UInt8)
  /-- `__TIME` -/
  | time (t : Timeval)
  /-- `__HEX` -/
  | hex (val : UInt8)
  /-- `__MAC` -/
  | mac (t : Vector UInt8 6)
  /-- `__IPv4` -/
  | ipv4 (ip : UInt32)
deriving DecidableEq

/-- The call a helper macro stands for. -/
def Field.append (field : Field) (memory : List UInt8) (dst dstSize : Nat) :
    Except Stop (Nat × List UInt8) :=
  match field with
  | arr src => (appendStringWithoutQuote memory dst dstSize src).mapError .fault
  | str src => (appendString memory dst dstSize src).mapError .fault
  | int val => (appendNumber memory dst dstSize val).mapError .fault
  | char c => (appendChar memory dst dstSize c).mapError .fault
  | time t => appendTimeval memory dst dstSize t
  | hex val => (appendHex memory dst dstSize val).mapError .fault
  | mac t => (appendMac memory dst dstSize t).mapError .fault
  | ipv4 ip => (appendIpv4 memory dst dstSize ip).mapError .fault

/-- The `int` behind `dst_size - 1`. -/
def builderEnd (dstSize : Nat) : Int := Int.bmod ((dstSize : Int) - 1) (2 ^ 32)

/-- The `size_t` behind `__n - __i`. -/
def builderRoom (n : Int) (i : Nat) : Nat := ((n - i) % 2 ^ 64).toNat

/-- `__BUILDER`: an element is appended when there is room behind `__i`. -/
def builder (n : Int) (field : Field) (sofar : Nat × List UInt8) :
    Except Stop (Nat × List UInt8) :=
  if n > sofar.1 then do
    let (written, memory) ← field.append sofar.2 sofar.1 (builderRoom n sofar.1)
    return (sofar.1 + written, memory)
  else .ok sofar

/-- `__SEPARATOR`, or `__EMPTY` when there is none. -/
def builderSeparator (n : Int) (separator : Option CString) (sofar : Nat × List UInt8) :
    Except Stop (Nat × List UInt8) :=
  match separator with
  | none => .ok sofar
  | some separator => do
      let (written, memory) ← (appendStringWithoutQuote sofar.2 sofar.1
        (builderRoom n sofar.1) separator).mapError .fault
      return (sofar.1 + written, memory)

/-- `APPLY`: the elements in their order, with the separator between two of them. -/
def builderApply (n : Int) (separator : Option CString) :
    List Field → Nat × List UInt8 → Except Stop (Nat × List UInt8)
  | [], sofar => .ok sofar
  | [field], sofar => builder n field sofar
  | field :: fields, sofar => do
      let sofar ← builder n field sofar
      let sofar ← builderSeparator n separator sofar
      builderApply n separator fields sofar

/-- Both builder macros. The buffer `dst` is the block of memory. -/
def build (separator : Option CString) (valid : Nat) (dst : List UInt8) (dstSize : Nat)
    (fields : List Field) : Except Stop (Nat × List UInt8) := do
  let (i, memory) ← builderApply (builderEnd dstSize) separator fields (valid, dst)
  let memory ← (store memory i 0).mapError .fault
  return (i, memory)

/-- `STRING_BUILDER` -/
def stringBuilder (valid : Nat) (dst : List UInt8) (dstSize : Nat) (fields : List Field) :
    Except Stop (Nat × List UInt8) := build none valid dst dstSize fields

/-- `STRING_BUILDER_WITH_SEPARATOR` -/
def stringBuilderWithSeparator (valid : Nat) (dst : List UInt8) (dstSize : Nat)
    (separator : CString) (fields : List Field) : Except Stop (Nat × List UInt8) :=
  build (some separator) valid dst dstSize fields

end MmtProbe.Lib
