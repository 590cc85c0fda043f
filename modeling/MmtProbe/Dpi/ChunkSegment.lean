/-
# Chunks in a segment

A body of chunks may be cut anywhere by the end of a segment: inside the digits of a
size, inside the line of a size, inside the data, or inside the line end behind it.  A
size may also have an extension, which `chunk_decode` does not know.

`dataPresent` is the data that a segment has.  The decoder stores it when every line of
a size that begins in the segment can be read; otherwise it reads beyond the segment or
it gives up and returns 0.
-/

import MmtProbe.Dpi.ChunkDecode

namespace MmtProbe.Dpi

open MmtProbe.Math

/-! ## Bodies of chunks -/

/-- Lines, each with its end. -/
def encodeLines (lines : List (List UInt8)) : List UInt8 := lines.flatMap (· ++ crlf)

/-- What may stand between the size of a chunk and the end of its line. -/
structure ChunkExtension where
  bytes : List UInt8
  separated : ∀ byte ∈ bytes.head?, isHex byte = false ∧ isPrefixLetter byte = false
  line : (13 : UInt8) ∉ bytes ∧ (10 : UInt8) ∉ bytes

/-- A chunk that may have an extension. -/
structure SentChunk where
  chunk : Chunk
  extension : ChunkExtension

/-- The last chunk, of which the size is zero, and the lines of the trailer. -/
structure LastChunk where
  zeros : Nat
  extension : ChunkExtension
  trailer : List (List UInt8)

def SentChunk.encode (sent : SentChunk) : List UInt8 :=
  sent.chunk.size ++ (sent.extension.bytes ++ (crlf ++ (sent.chunk.data ++ crlf)))

def LastChunk.encode (last : LastChunk) : List UInt8 :=
  List.replicate (last.zeros + 1) 48 ++
    (last.extension.bytes ++ (crlf ++ (encodeLines last.trailer ++ crlf)))

def encodeSent (chunks : List SentChunk) (last : LastChunk) : List UInt8 :=
  chunks.flatMap SentChunk.encode ++ last.encode

/-- The bytes of the data of chunks among the first `m` bytes of their code. -/
def dataPresent : List SentChunk → Nat → List UInt8
  | [], _ => []
  | sent :: chunks, m =>
      sent.chunk.data.take (m - (sent.chunk.size.length + sent.extension.bytes.length + 2)) ++
        dataPresent chunks (m - sent.encode.length)

/-- Every line of a size that begins among the first `m` bytes is there up to its end, and it
has no extension. Of the last one only the zeros matter, with one character behind them. -/
def SizesReadable (last : LastChunk) : List SentChunk → Nat → Prop
  | [], m => m = 0 ∨ last.zeros + 1 < m
  | sent :: chunks, m => m = 0 ∨ (sent.extension.bytes = [] ∧ sent.chunk.size.length + 2 ≤ m ∧
      SizesReadable last chunks (m - sent.encode.length))

/-- The sizes of the chunks that begin among the first `m` bytes fit `chunk_size`. -/
def SizesFit : List SentChunk → Nat → Prop
  | [], _ => True
  | sent :: chunks, m =>
      m = 0 ∨ (sent.chunk.data.length < 2 ^ 32 ∧ SizesFit chunks (m - sent.encode.length))

/-! ## Chunks that are cut -/

@[simp]
theorem SentChunk.length_encode (sent : SentChunk) : sent.encode.length =
    sent.chunk.size.length + sent.extension.bytes.length + 2 + sent.chunk.data.length + 2 := by
  simp [encode, crlf]
  omega

theorem SentChunk.encode_eq {sent : SentChunk} (bare : sent.extension.bytes = []) :
    sent.encode = sent.chunk.encode := by
  rw [encode, bare, List.nil_append, Chunk.encode]

theorem encodeSent_cons (sent : SentChunk) (chunks : List SentChunk) (last : LastChunk) :
    encodeSent (sent :: chunks) last = sent.encode ++ encodeSent chunks last := by
  simp [encodeSent]

@[simp]
theorem dataPresent_zero (chunks : List SentChunk) : dataPresent chunks 0 = [] := by
  induction chunks with
  | nil => rfl
  | cons sent chunks ih => simp [dataPresent, ih]

theorem sizesReadable_zero (last : LastChunk) (chunks : List SentChunk) :
    SizesReadable last chunks 0 := by
  cases chunks with
  | nil => exact Or.inl rfl
  | cons sent chunks => exact Or.inl rfl

/-- Where a chunk is there as a whole, the data that is there begins with its own. -/
theorem dataPresent_whole {sent : SentChunk} (chunks : List SentChunk) {m : Nat}
    (whole : sent.encode.length ≤ m) : dataPresent (sent :: chunks) m =
      sent.chunk.data ++ dataPresent chunks (m - sent.encode.length) := by
  have hlength := sent.length_encode
  rw [dataPresent, List.take_of_length_le (by omega)]

/-- Where a chunk is cut, the data that is there is a part of its own. -/
theorem dataPresent_cut {sent : SentChunk} (chunks : List SentChunk) {m : Nat}
    (cut : m < sent.encode.length) : dataPresent (sent :: chunks) m =
      sent.chunk.data.take
        (m - (sent.chunk.size.length + sent.extension.bytes.length + 2)) := by
  rw [dataPresent, Nat.sub_eq_zero_of_le cut.le, dataPresent_zero, List.append_nil]

/-- The data that is there is where the body begins. -/
theorem dataPresent_begins_body (chunks : List SentChunk) (m : Nat) :
    dataPresent chunks m <+: chunks.flatMap (·.chunk.data) := by
  induction chunks generalizing m with
  | nil => exact List.prefix_refl _
  | cons sent chunks ih =>
      rw [List.flatMap_cons]
      by_cases hwhole : sent.encode.length ≤ m
      · rw [dataPresent_whole chunks hwhole]
        exact (List.prefix_append_right_inj _).mpr (ih _)
      · rw [dataPresent_cut chunks (Nat.lt_of_not_le hwhole)]
        exact (List.take_prefix _ _).trans (List.prefix_append _ _)

/-- A body of chunks has more bytes than data, as far as it is there. -/
theorem length_dataPresent_lt (last : LastChunk) (chunks : List SentChunk) {m : Nat}
    (some_byte : 0 < m) :
    (dataPresent chunks m).length < ((encodeSent chunks last).take m).length := by
  induction chunks generalizing m with
  | nil =>
      have hlast : 0 < (encodeSent [] last).length := by
        simp [encodeSent, LastChunk.encode]
      rw [dataPresent, List.length_nil, List.length_take]
      omega
  | cons sent chunks ih =>
      have hlength := sent.length_encode
      by_cases hwhole : sent.encode.length < m
      · have hrest := ih (m := m - sent.encode.length) (by omega)
        rw [dataPresent_whole chunks hwhole.le, encodeSent_cons, List.take_append,
          List.take_of_length_le hwhole.le, List.length_append, List.length_append]
        omega
      · have hsize := List.length_pos_iff.mpr sent.chunk.size_ne_nil
        rw [dataPresent, Nat.sub_eq_zero_of_le (Nat.le_of_not_lt hwhole), dataPresent_zero,
          List.append_nil, List.length_take, List.length_take, encodeSent_cons,
          List.length_append]
        omega

section Cut

variable {before rest text : List UInt8} {byte : UInt8} {decoder : ChunkDecoder}

/-- A size that the segment ends with is not read to its end. -/
theorem round_size_end (dataLen : Nat) (here : decoder.j = before.length) (given : text ≠ [])
    (digits : ∀ b ∈ text, isHex b = true) :
    decoder.round (before ++ text) dataLen = .error (.load (before.length + text.length)) := by
  rw [ChunkDecoder.round, getChunkSize, here, strtolHex_digits_end given digits]
  rfl

/-- A size without the end of its line makes the decoder give up. -/
theorem round_bad_line (chunk : Chunk) (here : decoder.j = before.length)
    (small : (before ++ (chunk.size ++ byte :: rest)).length + 2 < 2 ^ 32)
    (fits : chunk.data.length < 2 ^ 32) (stops : isHex byte = false)
    (noPrefix : isPrefixLetter byte = false) (bad : byte ≠ 13 ∨ rest = []) :
    decoder.round (before ++ (chunk.size ++ byte :: rest))
        (before ++ (chunk.size ++ byte :: rest)).length = .ok (.returns 0 decoder.stores) := by
  have hlength : (before ++ (chunk.size ++ byte :: rest)).length =
      before.length + chunk.size.length + 1 + rest.length := by
    simp only [List.length_append, List.length_cons]
    omega
  have hsize : getChunkSize (before ++ (chunk.size ++ byte :: rest)) before.length =
      .ok (chunk.data.length, chunk.size.length) := by
    have hread := getChunkSize_digits before rest chunk.size_ne_nil
      chunk.digits stops noPrefix (by rw [chunk.sized]; exact fits) (by omega)
    rwa [chunk.sized] at hread
  have hj : u32 (before.length + chunk.size.length) = before.length + chunk.size.length :=
    u32_of_lt (by omega)
  have hnext : u32 (before.length + chunk.size.length + 2) =
    before.length + chunk.size.length + 2 := u32_of_lt (by omega)
  rw [ChunkDecoder.round, here, hsize, bind_ok]
  dsimp only
  rw [hj, hnext, if_neg chunk.length_data_pos.ne']
  rcases bad with hbyte | hrest
  · have hline := isNewLine_of_ne (before ++ chunk.size) rest hbyte
    rw [List.append_assoc, List.length_append] at hline
    rw [hline, bind_ok, if_neg Bool.false_ne_true]
    exact ite_self _
  · rw [if_pos (by rw [hlength, hrest, List.length_nil]; omega)]
    rfl

/-- Of a chunk that is cut behind the line of its size, the data that is there is stored. -/
theorem round_cut_data (chunk : Chunk) (n : Nat) (here : decoder.j = before.length)
    (cut : n < chunk.data.length + 2) (small : before.length + chunk.size.length + 4 + n < 2 ^ 32)
    (fits : chunk.data.length < 2 ^ 32) :
    decoder.round (before ++ (chunk.size ++ (crlf ++ (chunk.data ++ crlf).take n)))
        (before.length + chunk.size.length + 2 + n) =
      .ok (.returns (u32 (decoder.index + (chunk.data.take n).length))
        (decoder.stores ++ storesFrom decoder.index (chunk.data.take n))) := by
  have hline : before ++ (chunk.size ++ (crlf ++ (chunk.data ++ crlf).take n)) =
      (before ++ chunk.size ++ crlf) ++
        (chunk.data.take n ++ crlf.take (n - chunk.data.length)) := by
    simp [List.take_append]
  have hat : (before ++ chunk.size ++ crlf).length = before.length + chunk.size.length + 2 := by
    simp [crlf]
    omega
  have htaken : (chunk.data.take n).length = min n chunk.data.length := List.length_take
  rw [round_size chunk here (by omega) (by omega) fits, hline,
    readData_append _ hat.symm (by omega) (by omega)]
  have hj : ∀ decoder : ChunkDecoder, decoder.j = before.length + chunk.size.length + 2 →
      (decoder.copy (chunk.data.take n)).j =
        before.length + chunk.size.length + 2 + min n chunk.data.length := by
    intro decoder hdecoder
    rw [ChunkDecoder.copy, hdecoder, htaken]
    exact u32_of_lt (by omega)
  rw [closeChunk_short (by rw [hj _ rfl]; omega) (by rw [hj _ rfl]; omega)]
  rfl

end Cut

/-! ## What there is of a body -/

/-- The character behind a size. -/
theorem ChunkExtension.exists_behind (extension : ChunkExtension) (rest : List UInt8) :
    ∃ byte tail, extension.bytes ++ (crlf ++ rest) = byte :: tail ∧ isHex byte = false ∧
      isPrefixLetter byte = false ∧ (extension.bytes ≠ [] → byte ≠ 13) := by
  cases hbytes : extension.bytes with
  | nil => exact ⟨13, 10 :: rest, rfl, by decide, by decide, fun h => absurd rfl h⟩
  | cons first others =>
      have hclass := extension.separated first (by rw [hbytes]; rfl)
      have hcr : first ≠ 13 := by
        rintro rfl
        exact extension.line.1 (by rw [hbytes]; exact List.mem_cons_self)
      exact ⟨first, others ++ (crlf ++ rest), rfl, hclass.1, hclass.2, fun _ => hcr⟩

theorem take_encodeSent_whole {sent : SentChunk} (chunks : List SentChunk) (last : LastChunk)
    {m : Nat} (whole : sent.encode.length ≤ m) : (encodeSent (sent :: chunks) last).take m =
      sent.encode ++ (encodeSent chunks last).take (m - sent.encode.length) := by
  rw [encodeSent_cons, List.take_append, List.take_of_length_le whole]

theorem take_encodeSent_cut {sent : SentChunk} (chunks : List SentChunk) (last : LastChunk)
    {m : Nat} (cut : m ≤ sent.encode.length) :
    (encodeSent (sent :: chunks) last).take m = sent.encode.take m := by
  rw [encodeSent_cons, List.take_append_of_le_length cut]

/-- A cut inside the digits of a size. -/
theorem take_encode_digits {sent : SentChunk} {m : Nat} (cut : m ≤ sent.chunk.size.length) :
    sent.encode.take m = sent.chunk.size.take m := by
  rw [SentChunk.encode, List.take_append_of_le_length cut]

/-- A cut behind the digits of a size. What follows them is no line end when there is an
extension, and when the cut is inside the line end. -/
theorem take_encodeSent_line (sent : SentChunk) (chunks : List SentChunk) (last : LastChunk)
    {m : Nat} (behind : sent.chunk.size.length < m) :
    ∃ byte rest, (encodeSent (sent :: chunks) last).take m = sent.chunk.size ++ byte :: rest ∧
      isHex byte = false ∧ isPrefixLetter byte = false ∧
        (sent.extension.bytes ≠ [] ∨ m = sent.chunk.size.length + 1 → byte ≠ 13 ∨ rest = []) := by
  obtain ⟨byte, tail, hbehind, hhex, hprefix, hcr⟩ :=
    sent.extension.exists_behind (sent.chunk.data ++ crlf)
  have hlength := sent.length_encode
  obtain ⟨n, rfl⟩ := Nat.exists_eq_add_of_lt behind
  refine ⟨byte, tail.take n ++ (encodeSent chunks last).take
    (sent.chunk.size.length + n + 1 - sent.encode.length), ?_, hhex, hprefix, ?_⟩
  · rw [encodeSent_cons, List.take_append]
    nth_rewrite 1 [SentChunk.encode]
    rw [hbehind, List.take_append, List.take_of_length_le (by omega), Nat.add_assoc,
      Nat.add_sub_cancel_left, List.take_succ_cons, List.append_assoc, List.cons_append]
  · rintro (hextension | hn)
    · exact Or.inl (hcr hextension)
    · obtain rfl : n = 0 := by omega
      rw [Nat.sub_eq_zero_of_le (by omega)]
      exact Or.inr rfl

/-- A cut behind the line of a size. -/
theorem take_encode_data {sent : SentChunk} (bare : sent.extension.bytes = []) (n : Nat) :
    sent.encode.take (sent.chunk.size.length + 2 + n) =
      sent.chunk.size ++ (crlf ++ (sent.chunk.data ++ crlf).take n) := by
  rw [SentChunk.encode_eq bare, Chunk.encode, List.take_append,
    List.take_of_length_le (by omega), Nat.add_assoc, Nat.add_sub_cancel_left, List.take_append,
    List.take_of_length_le (show crlf.length ≤ 2 + n from Nat.le_add_right _ _)]
  rw [show 2 + n - crlf.length = n from Nat.add_sub_cancel_left 2 n]

/-- A cut inside the zeros of the last size. -/
theorem take_last_digits {last : LastChunk} {m : Nat} (cut : m ≤ last.zeros + 1) :
    (encodeSent [] last).take m = List.replicate m 48 := by
  rw [encodeSent, List.flatMap_nil, List.nil_append, LastChunk.encode,
    List.take_append_of_le_length (by rw [List.length_replicate]; exact cut), List.take_replicate,
    Nat.min_eq_left cut]

/-- A cut behind the zeros of the last size. -/
theorem take_last_line (last : LastChunk) {m : Nat} (behind : last.zeros + 1 < m) :
    ∃ byte rest, (encodeSent [] last).take m =
      List.replicate (last.zeros + 1) 48 ++ byte :: rest ∧
        isHex byte = false ∧ isPrefixLetter byte = false := by
  obtain ⟨byte, tail, hbehind, hhex, hprefix, -⟩ :=
    last.extension.exists_behind (encodeLines last.trailer ++ crlf)
  obtain ⟨n, hn⟩ := Nat.exists_eq_add_of_lt behind
  refine ⟨byte, tail.take n, ?_, hhex, hprefix⟩
  rw [encodeSent, List.flatMap_nil, List.nil_append, LastChunk.encode, hbehind, List.take_append,
    List.take_of_length_le (by rw [List.length_replicate]; exact behind.le), hn,
    List.length_replicate, Nat.add_assoc, Nat.add_sub_cancel_left, List.take_succ_cons]

theorem isHex_replicate {m : Nat} : ∀ byte ∈ List.replicate m (48 : UInt8), isHex byte = true := by
  intro byte hbyte
  rw [List.eq_of_mem_replicate hbyte]
  decide

theorem hexNumber_replicate (m : Nat) : hexNumber (List.replicate m 48) = 0 := by
  induction m with
  | zero => rfl
  | succ m ih => exact ih

/-! ## The decoder on a segment -/

section Segment

variable {last : LastChunk} {before : List UInt8} {decoder : ChunkDecoder}

/-- At the end of its input the loop ends. -/
theorem chunkLoop_end {memory : List UInt8} (rounds : Nat) (here : decoder.j = memory.length) :
    chunkLoop memory memory.length (rounds + 1) decoder = .ok (decoder.index, decoder.stores) := by
  rw [chunkLoop, if_neg (by omega)]
  rfl

theorem after_j {sent : SentChunk} (bare : sent.extension.bytes = [])
    (here : decoder.j = before.length) :
    (decoder.after sent.chunk).j = (before ++ sent.encode).length := by
  rw [ChunkDecoder.after, here, List.length_append, sent.encode_eq bare]

/-- A chunk that is there as a whole is left behind. -/
theorem chunkLoop_sent {sent : SentChunk} {rest : List UInt8} (rounds : Nat)
    (bare : sent.extension.bytes = []) (here : decoder.j = before.length)
    (small : (before ++ (sent.encode ++ rest)).length < 2 ^ 32) :
    chunkLoop (before ++ (sent.encode ++ rest)) (before ++ (sent.encode ++ rest)).length
        (rounds + 1) decoder =
      chunkLoop (before ++ sent.encode ++ rest) (before ++ sent.encode ++ rest).length rounds
        (decoder.after sent.chunk) := by
  have hlength : (before ++ (sent.encode ++ rest)).length =
      before.length + sent.encode.length + rest.length := by
    simp only [List.length_append]
    omega
  rw [List.append_assoc]
  rw [SentChunk.encode_eq bare] at hlength small ⊢
  rw [chunkLoop_chunk rest sent.chunk rounds here (by omega) small, List.append_assoc]

/-- The zeros of the last size end the loop. -/
theorem chunkLoop_last {m : Nat} (rounds : Nat) (here : decoder.j = before.length)
    (small : (before ++ (encodeSent [] last).take m).length + 2 < 2 ^ 32)
    (behind : last.zeros + 1 < m) :
    chunkLoop (before ++ (encodeSent [] last).take m)
        (before ++ (encodeSent [] last).take m).length (rounds + 1) decoder =
      .ok (decoder.index, decoder.stores) := by
  obtain ⟨byte, rest, hpart, hhex, hprefix⟩ := take_last_line last behind
  rw [hpart] at small ⊢
  have hshort : (List.replicate (last.zeros + 1) (48 : UInt8)).length < 2 ^ 32 := by
    rw [List.length_append, List.length_append] at small
    omega
  have hround := round_zero rest
    (before ++ (List.replicate (last.zeros + 1) 48 ++ byte :: rest)).length here (by simp)
    isHex_replicate hhex hprefix (hexNumber_replicate (last.zeros + 1)) hshort
  rw [chunkLoop_succ rounds (by simp [here]), hround, bind_ok]
  rfl

/-- A cut behind the line of a size ends the loop with the data that is there. -/
theorem chunkLoop_cut_data {sent : SentChunk} (chunks : List SentChunk) (n rounds : Nat)
    (bare : sent.extension.bytes = []) (here : decoder.j = before.length)
    (cut : sent.chunk.size.length + 2 + n < sent.encode.length)
    (small : before.length + (sent.chunk.size.length + 2 + n) + 2 < 2 ^ 32)
    (fits : sent.chunk.data.length < 2 ^ 32) :
    chunkLoop (before ++ (encodeSent (sent :: chunks) last).take (sent.chunk.size.length + 2 + n))
        (before ++ (encodeSent (sent :: chunks) last).take
          (sent.chunk.size.length + 2 + n)).length (rounds + 1) decoder =
      .ok (u32 (decoder.index + (sent.chunk.data.take n).length),
        decoder.stores ++ storesFrom decoder.index (sent.chunk.data.take n)) := by
  have hlength := sent.length_encode
  rw [bare, List.length_nil] at hlength
  have hall : (before ++ sent.encode.take (sent.chunk.size.length + 2 + n)).length =
      before.length + sent.chunk.size.length + 2 + n := by
    rw [List.length_append, List.length_take_of_le cut.le]
    omega
  have hround := round_cut_data sent.chunk n here (by omega) (by omega) fits
  rw [← take_encode_data bare] at hround
  rw [take_encodeSent_cut chunks last cut.le, hall, chunkLoop_succ rounds (by omega), hround,
    bind_ok]
  rfl

/-- Without data the decoder stays as it is. -/
theorem stored_nil (counted : decoder.index < 2 ^ 32) :
    (u32 (decoder.index + ([] : List UInt8).length),
      decoder.stores ++ storesFrom decoder.index []) = (decoder.index, decoder.stores) := by
  simp [storesFrom, u32_of_lt counted]

/-- Sizes that can be read lead to the data that is there. -/
theorem chunkLoop_readable (before : List UInt8) (decoder : ChunkDecoder)
    (chunks : List SentChunk) (m rounds : Nat)
    (here : decoder.j = before.length) (counted : decoder.index < 2 ^ 32)
    (small : (before ++ (encodeSent chunks last).take m).length + 2 < 2 ^ 32)
    (enough : ((encodeSent chunks last).take m).length < rounds)
    (readable : SizesReadable last chunks m) (fits : SizesFit chunks m) :
    chunkLoop (before ++ (encodeSent chunks last).take m)
        (before ++ (encodeSent chunks last).take m).length rounds decoder =
      .ok (u32 (decoder.index + (dataPresent chunks m).length),
        decoder.stores ++ storesFrom decoder.index (dataPresent chunks m)) := by
  -- a chunk that is there as a whole is the induction step, and all the rest ends the loop
  induction chunks generalizing m before decoder rounds with
  | nil =>
      obtain ⟨rounds, rfl⟩ := Nat.exists_eq_add_one_of_ne_zero (Nat.ne_zero_of_lt enough)
      rw [dataPresent, stored_nil counted]
      rcases readable with rfl | hzeros
      · rw [List.take_zero, List.append_nil, chunkLoop_end rounds here]
      · exact chunkLoop_last rounds here small hzeros
  | cons sent chunks ih =>
      obtain ⟨rounds, rfl⟩ := Nat.exists_eq_add_one_of_ne_zero (Nat.ne_zero_of_lt enough)
      have hlength := sent.length_encode
      rcases readable with rfl | ⟨hbare, hline, hreadable⟩
      · rw [dataPresent_zero, stored_nil counted, List.take_zero, List.append_nil,
          chunkLoop_end rounds here]
      · obtain ⟨hfits, hrestFits⟩ := fits.resolve_left (by omega)
        by_cases hwhole : sent.encode.length ≤ m
        · rw [take_encodeSent_whole chunks last hwhole] at small enough ⊢
          have hcount : (dataPresent (sent :: chunks) m).length = sent.chunk.data.length +
              (dataPresent chunks (m - sent.encode.length)).length := by
            rw [dataPresent_whole chunks hwhole, List.length_append]
          rw [chunkLoop_sent rounds hbare here (by omega), hcount, ← after_index,
            dataPresent_whole chunks hwhole, ← after_stores]
          rw [List.length_append] at enough
          exact ih (before ++ sent.encode) (decoder.after sent.chunk) (m - sent.encode.length)
            rounds (after_j hbare here) (Nat.mod_lt _ (by decide)) (by rwa [List.append_assoc])
            (by omega) hreadable hrestFits
        · obtain ⟨n, rfl⟩ := Nat.exists_eq_add_of_le hline
          have hcut := Nat.lt_of_not_le hwhole
          rw [take_encodeSent_cut chunks last hcut.le, List.length_append,
            List.length_take_of_le hcut.le] at small
          rw [chunkLoop_cut_data chunks n rounds hbare here hcut (by omega) hfits,
            dataPresent_cut chunks hcut, hbare, List.length_nil, Nat.add_zero,
            Nat.add_sub_cancel_left]

/-- A cut inside the digits of a size is a fault. -/
theorem chunkLoop_digits_end {text : List UInt8} (rounds : Nat) (here : decoder.j = before.length)
    (given : text ≠ []) (digits : ∀ byte ∈ text, isHex byte = true) :
    chunkLoop (before ++ text) (before ++ text).length (rounds + 1) decoder =
      .error (.load (before.length + text.length)) := by
  have hpositive := List.length_pos_iff.mpr given
  rw [chunkLoop_succ rounds (by rw [here, List.length_append]; omega),
    round_size_end _ here given digits]
  rfl

/-- A size without the end of its line is returned from with 0. -/
theorem chunkLoop_bad_line {sent : SentChunk} {chunks : List SentChunk} {m : Nat} (rounds : Nat)
    (here : decoder.j = before.length)
    (small : (before ++ (encodeSent (sent :: chunks) last).take m).length + 2 < 2 ^ 32)
    (fits : sent.chunk.data.length < 2 ^ 32) (behind : sent.chunk.size.length < m)
    (bad : sent.extension.bytes ≠ [] ∨ m = sent.chunk.size.length + 1) :
    chunkLoop (before ++ (encodeSent (sent :: chunks) last).take m)
        (before ++ (encodeSent (sent :: chunks) last).take m).length (rounds + 1) decoder =
      .ok (0, decoder.stores) := by
  obtain ⟨byte, rest, hpart, hhex, hprefix, hbad⟩ := take_encodeSent_line sent chunks last behind
  rw [hpart] at small ⊢
  rw [chunkLoop_succ rounds (by simp [here]),
    round_bad_line sent.chunk here small fits hhex hprefix (hbad bad)]
  rfl

/-- Sizes that cannot be read lead to a fault, or the decoder gives up. -/
theorem chunkLoop_unreadable (before : List UInt8) (decoder : ChunkDecoder)
    (chunks : List SentChunk) (m rounds : Nat)
    (here : decoder.j = before.length)
    (small : (before ++ (encodeSent chunks last).take m).length + 2 < 2 ^ 32)
    (enough : ((encodeSent chunks last).take m).length < rounds)
    (unreadable : ¬SizesReadable last chunks m) (fits : SizesFit chunks m) :
    (∃ fault, chunkLoop (before ++ (encodeSent chunks last).take m)
      (before ++ (encodeSent chunks last).take m).length rounds decoder = .error fault) ∨
    ∃ stores, chunkLoop (before ++ (encodeSent chunks last).take m)
      (before ++ (encodeSent chunks last).take m).length rounds decoder = .ok (0, stores) := by
  induction chunks generalizing m before decoder rounds with
  | nil =>
      obtain ⟨rounds, rfl⟩ := Nat.exists_eq_add_one_of_ne_zero (Nat.ne_zero_of_lt enough)
      rw [SizesReadable, not_or] at unreadable
      obtain ⟨hsome, hzeros⟩ := unreadable
      rw [take_last_digits (Nat.le_of_not_lt hzeros)]
      exact Or.inl ⟨_, chunkLoop_digits_end rounds here (by simpa using hsome) isHex_replicate⟩
  | cons sent chunks ih =>
      obtain ⟨rounds, rfl⟩ := Nat.exists_eq_add_one_of_ne_zero (Nat.ne_zero_of_lt enough)
      have hlength := sent.length_encode
      rw [SizesReadable, not_or] at unreadable
      obtain ⟨hsome, hunreadable⟩ := unreadable
      obtain ⟨hfits, hrestFits⟩ := fits.resolve_left hsome
      by_cases hwhole : sent.encode.length ≤ m ∧ sent.extension.bytes = []
      · obtain ⟨hwhole, hbare⟩ := hwhole
        rw [take_encodeSent_whole chunks last hwhole] at small enough ⊢
        rw [chunkLoop_sent rounds hbare here (by omega)]
        rw [List.length_append] at enough
        exact ih (before ++ sent.encode) (decoder.after sent.chunk) (m - sent.encode.length)
          rounds (after_j hbare here) (by rwa [List.append_assoc]) (by omega)
          (fun hreadable => hunreadable ⟨hbare, by omega, hreadable⟩) hrestFits
      · by_cases hdigits : m ≤ sent.chunk.size.length
        · have htaken : (sent.chunk.size.take m).length = m := List.length_take_of_le hdigits
          rw [take_encodeSent_cut chunks last (by omega), take_encode_digits hdigits]
          exact Or.inl ⟨_, chunkLoop_digits_end rounds here (List.length_pos_iff.mp (by omega))
            fun byte hbyte => sent.chunk.digits byte (List.mem_of_mem_take hbyte)⟩
        · have hbad : sent.extension.bytes ≠ [] ∨ m = sent.chunk.size.length + 1 := by
            by_contra hgood
            rw [not_or, not_not] at hgood
            have hzero : m - sent.encode.length = 0 :=
              Nat.sub_eq_zero_of_le (Nat.lt_of_not_le fun h => hwhole ⟨h, hgood.1⟩).le
            refine hunreadable ⟨hgood.1, by omega, ?_⟩
            rw [hzero]
            exact sizesReadable_zero last chunks
          exact Or.inr ⟨_, chunkLoop_bad_line rounds here small hfits
            (Nat.lt_of_not_le hdigits) hbad⟩

end Segment

end MmtProbe.Dpi
