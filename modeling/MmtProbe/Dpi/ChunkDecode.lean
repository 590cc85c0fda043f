/-
# Decoding of chunks

`chunk_decode` of `decode.c` takes the data out of a body that was sent in chunks: the
size of a chunk in hexadecimal, a line end, the data and another line end.  It is given
the number of bytes that there are, but it reads the size by `strtol`, which is not.

The input is a block of memory that is read with checks.  The output is the list of the
stores into `buffer`, in their order.  The counters of the C function are kept as their
bits: `j` is unsigned, and `index` is an `int` when it is used as an index.

A `Chunk` is what an encoder writes.  For chunks the decoder is the inverse of the
encoder; for anything else that is followed by a NUL it returns, and it stores no more
bytes than it was given.
-/

import MmtProbe.Math.Hexadecimal
import MmtProbe.Math.Word

namespace MmtProbe.Dpi

open MmtProbe.Math

/-! ## The code -/

/-- `_is_new_line` -/
def isNewLine (memory : List UInt8) (address : Nat) : Except Fault Bool := do
  let first ← load memory address
  if first = 13 then do
    let second ← load memory (address + 1)
    return second == 10
  else return false

/-- `_get_chunk_size`: the size, which is a `long` that is stored in 32 bits, and the number
of characters that were read. -/
def getChunkSize (memory : List UInt8) (address : Nat) : Except Fault (Nat × Nat) := do
  let (val, stop) ← strtolHex memory address
  return ((val % 2 ^ 32).toNat, u32 (stop - address))

/-- The variables of `chunk_decode`, with what it stored so far. -/
structure ChunkDecoder where
  j : Nat
  index : Nat
  stores : List (Int × UInt8)

/-- How a round of the loop ends. -/
inductive ChunkRound where
  | goesOn (decoder : ChunkDecoder)
  /-- The function returns. -/
  | returns (ret : Nat) (stores : List (Int × UInt8))

/-- The stores of some bytes from an index on. -/
def storesFrom (index : Nat) (bytes : List UInt8) : List (Int × UInt8) :=
  bytes.mapIdx fun i byte => (int32 (u32 (index + i)), byte)

/-- The loop that copies the data of a chunk. -/
def ChunkDecoder.copy (decoder : ChunkDecoder) (bytes : List UInt8) : ChunkDecoder where
  j := u32 (decoder.j + bytes.length)
  index := u32 (decoder.index + bytes.length)
  stores := decoder.stores ++ storesFrom decoder.index bytes

/-- The end of a round: the line end behind the data. -/
def ChunkDecoder.closeChunk (decoder : ChunkDecoder) (memory : List UInt8) (dataLen : Nat) :
    Except Fault ChunkRound :=
  if dataLen < u32 (decoder.j + 2) then return .returns decoder.index decoder.stores
  else do
    let newLine ← isNewLine memory decoder.j
    return if newLine then .goesOn { decoder with j := u32 (decoder.j + 2) }
      else .returns decoder.index decoder.stores

/-- The part of a round behind the line of the size. -/
def ChunkDecoder.readData (decoder : ChunkDecoder) (memory : List UInt8) (dataLen : Nat)
    (chunkSize : Nat) : Except Fault ChunkRound :=
  if dataLen < decoder.j then return .returns 0 decoder.stores
  else do
    let bytes ← loadBytes memory decoder.j
      (if dataLen - decoder.j < chunkSize then dataLen - decoder.j else chunkSize)
    (decoder.copy bytes).closeChunk memory dataLen

/-- One round of the loop. -/
def ChunkDecoder.round (decoder : ChunkDecoder) (memory : List UInt8) (dataLen : Nat) :
    Except Fault ChunkRound := do
  let (chunkSize, digits) ← getChunkSize memory decoder.j
  let j := u32 (decoder.j + digits)
  if chunkSize = 0 then return .returns decoder.index decoder.stores
  else if dataLen < u32 (j + 2) then return .returns 0 decoder.stores
  else do
    let newLine ← isNewLine memory j
    if newLine then
      ({ decoder with j := u32 (j + 2) } : ChunkDecoder).readData memory dataLen chunkSize
    else return .returns 0 decoder.stores

/-- The loop of `chunk_decode`, for a number of rounds. -/
def chunkLoop (memory : List UInt8) (dataLen : Nat) :
    Nat → ChunkDecoder → Except Fault (Nat × List (Int × UInt8))
  | 0, _ => .error .rounds
  | rounds + 1, decoder =>
      if decoder.j < dataLen then do
        match ← decoder.round memory dataLen with
        | .goesOn decoder => chunkLoop memory dataLen rounds decoder
        | .returns ret stores => return (ret, stores)
      else return (decoder.index, decoder.stores)

/-- `chunk_decode`: what it returns and what it stores, when the loop ends within a number of
rounds. -/
def chunkDecode (rounds : Nat) (memory : List UInt8) (dataLen : Nat) :
    Except Fault (Nat × List (Int × UInt8)) :=
  chunkLoop memory dataLen rounds ⟨0, 0, []⟩

/-! ## Chunks -/

/-- A chunk as it is sent: its size is given by hexadecimal digits. -/
structure Chunk where
  size : List UInt8
  data : List UInt8
  digits : ∀ byte ∈ size, isHex byte = true
  sized : hexNumber size = data.length
  given : data ≠ []

/-- The end of a line. -/
def crlf : List UInt8 := [13, 10]

def Chunk.encode (chunk : Chunk) : List UInt8 := chunk.size ++ (crlf ++ (chunk.data ++ crlf))

/-- The body that is sent for some chunks. -/
def encodeChunks (chunks : List Chunk) : List UInt8 :=
  chunks.flatMap Chunk.encode ++ (48 :: (crlf ++ crlf))

/-- The body that is meant by some chunks. -/
def dechunked (chunks : List Chunk) : List UInt8 := chunks.flatMap Chunk.data

theorem Chunk.length_data_pos (chunk : Chunk) : 0 < chunk.data.length :=
  List.length_pos_iff.mpr chunk.given

theorem Chunk.size_ne_nil (chunk : Chunk) : chunk.size ≠ [] := by
  intro hnil
  have hsized := chunk.sized
  rw [hnil] at hsized
  exact absurd hsized.symm chunk.length_data_pos.ne'

@[simp]
theorem Chunk.length_encode (chunk : Chunk) :
    chunk.encode.length = chunk.size.length + 2 + chunk.data.length + 2 := by
  simp [encode, crlf]
  omega

/-- The data of chunks is shorter than their code. -/
theorem length_dechunked_le (chunks : List Chunk) :
    (dechunked chunks).length ≤ (encodeChunks chunks).length := by
  have hchunks : (dechunked chunks).length ≤ (chunks.flatMap Chunk.encode).length := by
    induction chunks with
    | nil => exact Nat.le_refl _
    | cons chunk chunks ih =>
        simp only [dechunked, List.flatMap_cons, List.length_append, chunk.length_encode] at ih ⊢
        omega
  rw [encodeChunks, List.length_append]
  omega

/-! ## What a round does with a chunk -/

section Rounds

variable {before rest text : List UInt8} {byte : UInt8} {dataLen chunkSize : Nat}
  {decoder : ChunkDecoder}

theorem isNewLine_crlf (before rest : List UInt8) :
    isNewLine (before ++ (crlf ++ rest)) before.length = .ok true := by
  have hfirst : load (before ++ (crlf ++ rest)) before.length = .ok 13 := load_append _ _ _
  have hsecond : load (before ++ (crlf ++ rest)) (before.length + 1) = .ok 10 := by
    simpa [crlf] using load_append_append before [13] rest 10
  rw [isNewLine, hfirst, bind_ok, if_pos rfl, hsecond, bind_ok]
  rfl

theorem isNewLine_of_ne (before rest : List UInt8) (other : byte ≠ 13) :
    isNewLine (before ++ byte :: rest) before.length = .ok false := by
  rw [isNewLine, load_append, bind_ok, if_neg other]
  rfl

/-- A size of 32 bits is stored as it was read. -/
theorem getChunkSize_digits (before rest : List UInt8) (given : text ≠ [])
    (digits : ∀ b ∈ text, isHex b = true) (stops : isHex byte = false)
    (noPrefix : isPrefixLetter byte = false) (fits : hexNumber text < 2 ^ 32)
      (short : text.length < 2 ^ 32) :
    getChunkSize (before ++ (text ++ byte :: rest)) before.length =
      .ok (hexNumber text, text.length) := by
  have hclamp : clampLong (hexNumber text) = hexNumber text := by
    unfold clampLong
    omega
  have hvalue : ((hexNumber text : Int) % 2 ^ 32).toNat = hexNumber text := by omega
  rw [getChunkSize, strtolHex_digits given digits stops noPrefix, bind_ok, hclamp]
  dsimp only
  rw [hvalue, Nat.add_sub_cancel_left, u32_of_lt short]
  rfl

/-- A size of zero ends the loop. -/
theorem round_zero (rest : List UInt8) (dataLen : Nat) (here : decoder.j = before.length)
    (given : text ≠ []) (digits : ∀ b ∈ text, isHex b = true) (stops : isHex byte = false)
    (noPrefix : isPrefixLetter byte = false) (zero : hexNumber text = 0)
    (short : text.length < 2 ^ 32) :
    decoder.round (before ++ (text ++ byte :: rest)) dataLen =
      .ok (.returns decoder.index decoder.stores) := by
  have hsize := getChunkSize_digits before rest given digits stops noPrefix
    (by rw [zero]; decide) short
  rw [ChunkDecoder.round, here, hsize, bind_ok]
  dsimp only
  rw [if_pos zero]
  rfl

/-- The line of a size is left behind. -/
theorem round_size (chunk : Chunk) (here : decoder.j = before.length)
    (present : before.length + chunk.size.length + 2 ≤ dataLen) (small : dataLen < 2 ^ 32)
    (fits : chunk.data.length < 2 ^ 32) :
    decoder.round (before ++ (chunk.size ++ (crlf ++ rest))) dataLen =
      ({ decoder with j := before.length + chunk.size.length + 2 } : ChunkDecoder).readData
        (before ++ (chunk.size ++ (crlf ++ rest))) dataLen chunk.data.length := by
  have hsize : getChunkSize (before ++ (chunk.size ++ (crlf ++ rest))) before.length =
      .ok (chunk.data.length, chunk.size.length) := by
    have hread : getChunkSize (before ++ (chunk.size ++ 13 :: 10 :: rest)) before.length =
        .ok (hexNumber chunk.size, chunk.size.length) :=
      getChunkSize_digits before (10 :: rest) chunk.size_ne_nil chunk.digits (by decide)
        (by decide) (by rw [chunk.sized]; exact fits) (by omega)
    rwa [chunk.sized] at hread
  have hline : isNewLine (before ++ (chunk.size ++ (crlf ++ rest)))
      (before.length + chunk.size.length) = .ok true := by
    have hread := isNewLine_crlf (before ++ chunk.size) rest
    rwa [List.append_assoc, List.length_append] at hread
  have hj : u32 (before.length + chunk.size.length) = before.length + chunk.size.length :=
    u32_of_lt (by omega)
  have hnext : u32 (before.length + chunk.size.length + 2) =
    before.length + chunk.size.length + 2 := u32_of_lt (by omega)
  rw [ChunkDecoder.round, here, hsize, bind_ok]
  dsimp only
  rw [hj, hnext, if_neg chunk.length_data_pos.ne', if_neg (by omega), hline, bind_ok]
  rfl

/-- The data that there is of a chunk is copied. -/
theorem readData_append (bytes : List UInt8) (here : decoder.j = before.length)
    (inside : before.length ≤ dataLen)
    (count : bytes.length = min chunkSize (dataLen - before.length)) :
    decoder.readData (before ++ (bytes ++ rest)) dataLen chunkSize =
      (decoder.copy bytes).closeChunk (before ++ (bytes ++ rest)) dataLen := by
  have hcount : (if dataLen - before.length < chunkSize then dataLen - before.length
      else chunkSize) = bytes.length := by
    split <;> omega
  rw [ChunkDecoder.readData, here, if_neg (by omega), hcount, loadBytes_append, bind_ok]

/-- A line end behind the data leads to the next round. -/
theorem closeChunk_crlf (here : decoder.j = before.length)
    (present : before.length + 2 ≤ dataLen) (small : dataLen < 2 ^ 32) :
    decoder.closeChunk (before ++ (crlf ++ rest)) dataLen =
      .ok (.goesOn { decoder with j := before.length + 2 }) := by
  rw [ChunkDecoder.closeChunk, here, u32_of_lt (by omega), if_neg (by omega), isNewLine_crlf,
    bind_ok]
  rfl

/-- Where there is no room for a line end, the function returns. -/
theorem closeChunk_short {memory : List UInt8} (cut : dataLen < decoder.j + 2)
    (small : decoder.j + 2 < 2 ^ 32) :
    decoder.closeChunk memory dataLen = .ok (.returns decoder.index decoder.stores) := by
  rw [ChunkDecoder.closeChunk, u32_of_lt small, if_pos cut]
  rfl

/-- The decoder behind a chunk. -/
def ChunkDecoder.after (decoder : ChunkDecoder) (chunk : Chunk) : ChunkDecoder :=
  { decoder.copy chunk.data with j := decoder.j + chunk.encode.length }

/-- A chunk that is there as a whole is decoded. -/
theorem round_chunk (rest : List UInt8) (chunk : Chunk) (here : decoder.j = before.length)
    (present : before.length + chunk.encode.length ≤ dataLen) (small : dataLen < 2 ^ 32) :
    decoder.round (before ++ (chunk.encode ++ rest)) dataLen =
      .ok (.goesOn (decoder.after chunk)) := by
  have hlength := chunk.length_encode
  have hline : before ++ (chunk.encode ++ rest) =
      before ++ (chunk.size ++ (crlf ++ (chunk.data ++ (crlf ++ rest)))) := by
    simp [Chunk.encode]
  have hdata : before ++ (chunk.encode ++ rest) =
      (before ++ chunk.size ++ crlf) ++ (chunk.data ++ (crlf ++ rest)) := by
    simp [Chunk.encode]
  have hend : before ++ (chunk.encode ++ rest) =
      (before ++ chunk.size ++ crlf ++ chunk.data) ++ (crlf ++ rest) := by
    simp [Chunk.encode]
  have hat : (before ++ chunk.size ++ crlf).length = before.length + chunk.size.length + 2 := by
    simp [crlf]
    omega
  have hatEnd : (before ++ chunk.size ++ crlf ++ chunk.data).length =
      before.length + chunk.size.length + 2 + chunk.data.length := by
    rw [List.length_append, hat]
  have hj : u32 (before.length + chunk.size.length + 2 + chunk.data.length) =
      (before ++ chunk.size ++ crlf ++ chunk.data).length := by
    rw [hatEnd, u32_of_lt (by omega)]
  rw [hline, round_size chunk here (by omega) small (by omega), ← hline, hdata,
    readData_append chunk.data hat.symm (by omega) (by omega), ← hdata, hend,
    closeChunk_crlf hj (by omega) small, hatEnd]
  rw [ChunkDecoder.after, here, hlength, ← Nat.add_assoc, ← Nat.add_assoc, ← Nat.add_assoc]
  rfl

theorem chunkLoop_succ {memory : List UInt8} (rounds : Nat) (inside : decoder.j < dataLen) :
    chunkLoop memory dataLen (rounds + 1) decoder =
      (decoder.round memory dataLen >>= fun
        | .goesOn decoder => chunkLoop memory dataLen rounds decoder
        | .returns ret stores => return (ret, stores)) := by
  rw [chunkLoop, if_pos inside]

/-- The loop goes on behind a chunk. -/
theorem chunkLoop_chunk (rest : List UInt8) (chunk : Chunk) (rounds : Nat)
    (here : decoder.j = before.length)
    (present : before.length + chunk.encode.length ≤ dataLen) (small : dataLen < 2 ^ 32) :
    chunkLoop (before ++ (chunk.encode ++ rest)) dataLen (rounds + 1) decoder =
      chunkLoop (before ++ chunk.encode ++ rest) dataLen rounds (decoder.after chunk) := by
  have hlength := chunk.length_encode
  rw [chunkLoop_succ rounds (by omega), round_chunk rest chunk here present small, bind_ok,
    List.append_assoc]

end Rounds

/-! ## What is stored for some chunks -/

@[simp]
theorem length_storesFrom (index : Nat) (bytes : List UInt8) :
    (storesFrom index bytes).length = bytes.length := by
  simp [storesFrom]

/-- Bytes that are stored in two parts. -/
theorem storesFrom_append (index : Nat) (front back : List UInt8) :
    storesFrom index (front ++ back) =
      storesFrom index front ++ storesFrom (u32 (index + front.length)) back := by
  have hindex : ∀ i, u32 (index + (i + front.length)) = u32 (u32 (index + front.length) + i) := by
    intro i
    unfold u32
    omega
  simp only [storesFrom, List.mapIdx_append, hindex]

/-- The bytes of a chunk that `int` can count are stored one behind the other. -/
theorem storesFrom_zero {bytes : List UInt8} (small : bytes.length ≤ 2 ^ 31) :
    storesFrom 0 bytes = bytes.mapIdx fun i byte => ((i : Int), byte) := by
  apply List.ext_getElem (by simp [storesFrom])
  intro i hi _
  have hlt : i < bytes.length := by simpa using hi
  have haddress : int32 (u32 (0 + i)) = i := by
    rw [Nat.zero_add, u32_of_lt (by omega), int32, if_pos (by omega)]
  simp only [storesFrom, List.getElem_mapIdx, haddress]

/-- What is counted behind a chunk. -/
theorem after_index (decoder : ChunkDecoder) (chunk : Chunk) (count : Nat) :
    u32 ((decoder.after chunk).index + count) =
      u32 (decoder.index + (chunk.data.length + count)) := by
  simp only [ChunkDecoder.after, ChunkDecoder.copy, u32]
  omega

/-- What is stored behind a chunk. -/
theorem after_stores (decoder : ChunkDecoder) (chunk : Chunk) (bytes : List UInt8) :
    (decoder.after chunk).stores ++ storesFrom (decoder.after chunk).index bytes =
      decoder.stores ++ storesFrom decoder.index (chunk.data ++ bytes) := by
  rw [storesFrom_append]
  simp [ChunkDecoder.after, ChunkDecoder.copy]

/-- The loop over some chunks that are there as a whole. -/
theorem chunkLoop_encodeChunks (chunks : List Chunk) (before rest : List UInt8)
    (decoder : ChunkDecoder) (dataLen rounds : Nat) (here : decoder.j = before.length)
    (whole : dataLen = before.length + (encodeChunks chunks).length) (small : dataLen < 2 ^ 32)
    (counted : decoder.index < 2 ^ 32) (enough : chunks.length < rounds) :
    chunkLoop (before ++ (encodeChunks chunks ++ rest)) dataLen rounds decoder =
      .ok (u32 (decoder.index + (dechunked chunks).length),
        decoder.stores ++ storesFrom decoder.index (dechunked chunks)) := by
  induction chunks generalizing before decoder rounds with
  | nil =>
      obtain ⟨rounds, rfl⟩ := Nat.exists_eq_add_one_of_ne_zero (Nat.ne_zero_of_lt enough)
      have hround : decoder.round (before ++ ([48] ++ 13 :: 10 :: (crlf ++ rest))) dataLen =
          .ok (.returns decoder.index decoder.stores) :=
        round_zero _ _ here (by simp) (List.all_eq_true.mp rfl) (by decide) (by decide) rfl
          (by decide)
      have hmemory : before ++ (encodeChunks [] ++ rest) =
          before ++ ([48] ++ 13 :: 10 :: (crlf ++ rest)) := rfl
      have hinside : decoder.j < dataLen := by
        rw [here, whole]
        exact Nat.lt_add_of_pos_right (by decide)
      rw [chunkLoop_succ rounds hinside, hmemory, hround, bind_ok]
      simp [dechunked, storesFrom, u32_of_lt counted, pure, Except.pure]
  | cons chunk chunks ih =>
      obtain ⟨rounds, rfl⟩ := Nat.exists_eq_add_one_of_ne_zero (Nat.ne_zero_of_lt enough)
      have hcode : encodeChunks (chunk :: chunks) = chunk.encode ++ encodeChunks chunks := by
        simp [encodeChunks]
      have hlength : (encodeChunks (chunk :: chunks)).length =
          chunk.encode.length + (encodeChunks chunks).length := by
        rw [hcode, List.length_append]
      have hbefore : (before ++ chunk.encode).length = before.length + chunk.encode.length :=
        List.length_append
      have hdata : dechunked (chunk :: chunks) = chunk.data ++ dechunked chunks := by
        simp [dechunked]
      rw [hcode, List.append_assoc, chunkLoop_chunk _ chunk rounds here (by omega) small, hdata,
        List.length_append, ← after_index, ← after_stores]
      exact ih (before ++ chunk.encode) (decoder.after chunk) rounds
        (by rw [hbefore, ChunkDecoder.after, here]) (by omega) (Nat.mod_lt _ (by decide))
        (by simpa using enough)

/-! ## What a round does in front of a NUL -/

section Terminated

variable {memory : List UInt8} {dataLen : Nat} {decoder : ChunkDecoder}

/-- The decoder is inside its input, and it stored no more than it passed. -/
structure ChunkDecoder.Bounded (decoder : ChunkDecoder) (dataLen : Nat) : Prop where
  inside : decoder.j ≤ dataLen
  counted : decoder.stores.length ≤ decoder.j

/-- What holds after a round that began at some place. -/
def ChunkRound.Settles (start dataLen : Nat) : ChunkRound → Prop
  | .goesOn decoder => start < decoder.j ∧ decoder.Bounded dataLen
  | .returns _ stores => stores.length ≤ dataLen

/-- A line end that is found is in front of the NUL. -/
theorem exists_isNewLine {address : Nat} (ahead : address ≤ dataLen)
    (terminated : memory[dataLen]? = some 0) : ∃ newLine,
      isNewLine memory address = .ok newLine ∧ (newLine = true → address + 2 ≤ dataLen) := by
  obtain ⟨first, hfirst, hfirstAt⟩ := exists_load ahead terminated
  rw [isNewLine, hfirst, bind_ok]
  by_cases hcr : first = 13
  · have hahead : address + 1 ≤ dataLen :=
      lt_of_ne_nul ahead terminated hfirstAt (by rw [hcr]; decide)
    obtain ⟨second, hsecond, hsecondAt⟩ := exists_load hahead terminated
    rw [if_pos hcr, hsecond, bind_ok]
    refine ⟨second == 10, rfl, fun hlf => ?_⟩
    refine lt_of_ne_nul hahead terminated hsecondAt ?_
    rintro rfl
    exact absurd hlf (by decide)
  · rw [if_neg hcr]
    exact ⟨false, rfl, fun h => absurd h Bool.false_ne_true⟩

theorem exists_closeChunk (decoder : ChunkDecoder) (small : dataLen < 2 ^ 32)
    (terminated : memory[dataLen]? = some 0) (bounded : decoder.Bounded dataLen) : ∃ outcome,
      decoder.closeChunk memory dataLen = .ok outcome ∧ outcome.Settles decoder.j dataLen := by
  have hreturns : ∀ ret, (ChunkRound.returns ret decoder.stores).Settles decoder.j dataLen :=
    fun _ => bounded.counted.trans bounded.inside
  rw [ChunkDecoder.closeChunk]
  by_cases hcut : dataLen < u32 (decoder.j + 2)
  · rw [if_pos hcut]
    exact ⟨_, rfl, hreturns _⟩
  · obtain ⟨newLine, hline, hroom⟩ := exists_isNewLine bounded.inside terminated
    rw [if_neg hcut, hline, bind_ok]
    cases newLine with
    | false => exact ⟨_, rfl, hreturns _⟩
    | true =>
        have hj : u32 (decoder.j + 2) = decoder.j + 2 :=
          u32_of_lt (Nat.lt_of_le_of_lt (hroom rfl) small)
        rw [hj]
        exact ⟨_, rfl, Nat.lt_add_of_pos_right (by decide), hroom rfl,
          bounded.counted.trans (Nat.le_add_right _ _)⟩

theorem exists_readData (decoder : ChunkDecoder) (small : dataLen < 2 ^ 32)
    (terminated : memory[dataLen]? = some 0) (bounded : decoder.Bounded dataLen) (chunkSize : Nat) :
      ∃ outcome,
      decoder.readData memory dataLen chunkSize = .ok outcome ∧
        outcome.Settles decoder.j dataLen := by
  have hlength : dataLen < memory.length := (List.getElem?_eq_some_iff.mp terminated).1
  have hinside := bounded.inside
  have hcounted := bounded.counted
  rw [ChunkDecoder.readData, if_neg (Nat.not_lt.mpr hinside)]
  generalize hcount : (if dataLen - decoder.j < chunkSize then dataLen - decoder.j
    else chunkSize) = count
  have hroom : decoder.j + count ≤ dataLen := by
    split at hcount <;> omega
  have hload : loadBytes memory decoder.j count =
      .ok ((memory.drop decoder.j).take count) := if_pos (by omega)
  have hbytes : ((memory.drop decoder.j).take count).length = count := by
    rw [List.length_take, List.length_drop]
    omega
  rw [hload, bind_ok]
  have hj : (decoder.copy ((memory.drop decoder.j).take count)).j = decoder.j + count := by
    rw [ChunkDecoder.copy, hbytes]
    exact u32_of_lt (by omega)
  have hstores : (decoder.copy ((memory.drop decoder.j).take count)).stores.length =
      decoder.stores.length + count := by
    simp only [ChunkDecoder.copy, List.length_append, length_storesFrom, hbytes]
  obtain ⟨outcome, hclose, hsettles⟩ := exists_closeChunk
    (decoder.copy ((memory.drop decoder.j).take count)) small terminated
    ⟨by omega, by omega⟩
  refine ⟨outcome, hclose, ?_⟩
  cases outcome with
  | returns ret stores => exact hsettles
  | goesOn next => exact ⟨by have := hsettles.1; omega, hsettles.2⟩

/-- A round ends, and either the function returns or the decoder comes nearer to the end. -/
theorem exists_round (small : dataLen < 2 ^ 32) (terminated : memory[dataLen]? = some 0)
    (bounded : decoder.Bounded dataLen) : ∃ outcome,
      decoder.round memory dataLen = .ok outcome ∧ outcome.Settles decoder.j dataLen := by
  have hinside := bounded.inside
  have hcounted := bounded.counted
  have hreturns : ∀ ret, (ChunkRound.returns ret decoder.stores).Settles decoder.j dataLen :=
    fun _ => hcounted.trans hinside
  obtain ⟨value, stop, hread, hlow, hhigh, -⟩ := exists_strtolHex hinside terminated
  have hj : u32 (decoder.j + u32 (stop - decoder.j)) = stop := by
    unfold u32
    omega
  rw [ChunkDecoder.round, getChunkSize, hread, bind_ok]
  simp only [bind_ok, pure, Except.pure, hj]
  generalize (value % 2 ^ 32).toNat = chunkSize
  by_cases hzero : chunkSize = 0
  · exact ⟨_, if_pos hzero, hreturns _⟩
  · rw [if_neg hzero]
    by_cases hcut : dataLen < u32 (stop + 2)
    · exact ⟨_, if_pos hcut, hreturns _⟩
    · obtain ⟨newLine, hline, hroom⟩ := exists_isNewLine hhigh terminated
      rw [if_neg hcut, hline, bind_ok]
      cases newLine with
      | false => exact ⟨_, rfl, hreturns _⟩
      | true =>
          have hnext : u32 (stop + 2) = stop + 2 :=
            u32_of_lt (Nat.lt_of_le_of_lt (hroom rfl) small)
          rw [if_pos rfl, hnext]
          obtain ⟨outcome, hdata, hsettles⟩ := exists_readData
            { decoder with j := stop + 2 } small terminated
            ⟨hroom rfl, by dsimp only; omega⟩ chunkSize
          refine ⟨outcome, hdata, ?_⟩
          cases outcome with
          | returns ret stores => exact hsettles
          | goesOn next => exact ⟨by have := hsettles.1; dsimp only at this; omega, hsettles.2⟩

/-- The loop ends in front of a NUL. -/
theorem exists_chunkLoop (small : dataLen < 2 ^ 32) (terminated : memory[dataLen]? = some 0)
    (rounds : Nat) (bounded : decoder.Bounded dataLen) (enough : dataLen - decoder.j < rounds) :
    ∃ ret stores, chunkLoop memory dataLen rounds decoder = .ok (ret, stores) ∧
      stores.length ≤ dataLen := by
  induction rounds generalizing decoder with
  | zero => exact absurd enough (Nat.not_lt_zero _)
  | succ rounds ih =>
      by_cases hinside : decoder.j < dataLen
      · obtain ⟨outcome, hround, hsettles⟩ := exists_round small terminated bounded
        rw [chunkLoop_succ rounds hinside, hround, bind_ok]
        cases outcome with
        | returns ret stores => exact ⟨ret, stores, rfl, hsettles⟩
        | goesOn next => exact ih hsettles.2 (by have := hsettles.1; omega)
      · rw [chunkLoop, if_neg hinside]
        exact ⟨_, _, rfl, bounded.counted.trans bounded.inside⟩

end Terminated

/-! ## The decoder -/

/-- The decoder is the inverse of the encoder, and for any input that a NUL follows it
returns, having stored at most as many bytes as it was given. -/
theorem chunkDecode_spec :
    (∀ (chunks : List Chunk) (after : List UInt8) (rounds : Nat),
      (encodeChunks chunks).length < 2 ^ 31 → chunks.length < rounds →
        chunkDecode rounds (encodeChunks chunks ++ after) (encodeChunks chunks).length =
          .ok ((dechunked chunks).length,
            (dechunked chunks).mapIdx fun i byte => ((i : Int), byte))) ∧
    ∀ (data after : List UInt8) (rounds : Nat), data.length < 2 ^ 32 → data.length < rounds →
      ∃ ret stores, chunkDecode rounds (data ++ 0 :: after) data.length = .ok (ret, stores) ∧
        stores.length ≤ data.length := by
  constructor
  · intro chunks after rounds small enough
    have hlength : (dechunked chunks).length ≤ (encodeChunks chunks).length :=
      length_dechunked_le chunks
    have hloop := chunkLoop_encodeChunks chunks [] after ⟨0, 0, []⟩ (encodeChunks chunks).length
      rounds rfl (Nat.zero_add _).symm (by omega) (by decide) enough
    rw [List.nil_append, Nat.zero_add, List.nil_append, u32_of_lt (by omega),
      storesFrom_zero (by omega)] at hloop
    exact hloop
  · intro data after rounds small enough
    have hterminated : (data ++ 0 :: after)[data.length]? = some 0 := by simp
    exact exists_chunkLoop small hterminated rounds ⟨Nat.zero_le _, Nat.zero_le _⟩
      (Nat.lt_of_le_of_lt (Nat.sub_le _ _) enough)

/-- A chunk of three bytes and one of ten, and an input that is no code of chunks. -/
theorem chunkDecode_three_ten :
    (∃ chunks : List Chunk, chunkDecode 3 (encodeChunks chunks ++ []) (encodeChunks chunks).length =
      .ok (13, (dechunked chunks).mapIdx fun i byte => ((i : Int), byte))) ∧
    ∃ ret stores, chunkDecode 8 ([45, 49, 13, 10, 0, 13, 10] ++ 0 :: []) 7 = .ok (ret, stores) ∧
      stores.length ≤ 7 :=
  ⟨⟨[⟨[51], [97, 98, 99], List.all_eq_true.mp rfl, rfl, by decide⟩,
      ⟨[48, 97], List.replicate 10 13, List.all_eq_true.mp rfl, rfl, by decide⟩],
    chunkDecode_spec.1 _ [] 3 (by decide) (by decide)⟩,
   chunkDecode_spec.2 [45, 49, 13, 10, 0, 13, 10] [] 8 (by decide) (by decide)⟩

end MmtProbe.Dpi
