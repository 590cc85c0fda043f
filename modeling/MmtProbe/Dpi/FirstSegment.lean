/-
# The first segment of a response

The packet that carries the header of an HTTP response may carry a part of the body, too.
`_http_response_handle` looks for the end of the header, takes what is behind it, decodes
it when it was sent in chunks, and appends it to the file.

The packet is a block of memory that ends with the payload: a read at or beyond its
length is a fault.  A header is made of lines, a body is plain or made of chunks, and a
segment has some of the bytes of the body.  The segment is cut anywhere, also inside the
line of a size, and then the decoder either reads beyond the payload or gives up; when it
gives up the handler appends the body as it was sent.
-/

import MmtProbe.Dpi.ChunkSegment
import MmtProbe.Dpi.HttpReconstruct

namespace MmtProbe.Dpi

open MmtProbe.Math MmtProbe.Lib

/-! ## The code -/

/-- The search for an empty line from `i` on, over the bytes that are left. The byte in front
is compared twice with the same character. -/
def findEmptyLine (payload : List UInt8) : Nat → Nat → Except Fault Nat
  | 0, i => .ok i
  | left + 1, i => do
      let byte ← load payload i
      if byte = 13 then do
        let previous ← load payload (i - 1)
        if previous = 10 then return i else findEmptyLine payload left (i + 1)
      else findEmptyLine payload left (i + 1)

/-- The stores into a buffer, in their order. -/
def storeAll : List UInt8 → List (Int × UInt8) → Except Fault (List UInt8)
  | buffer, [] => .ok buffer
  | buffer, (index, byte) :: stores => do
      let buffer ← store buffer (index % 2 ^ 64).toNat byte
      storeAll buffer stores

/-- What `chunk_decode` leaves at the beginning of `data_buffer`, of which it returns the
length. The buffer is on the stack, and nobody knows what is in it. -/
def decodeBody (noise : Nat → UInt8) (data : List UInt8) : Except Fault (List UInt8) := do
  let (ret, stores) ← chunkDecode (data.length + 1) data data.length
  let buffer ← storeAll ((List.range data.length).map noise) stores
  loadBytes buffer 0 ret

/-- What the last part of `_http_response_handle` appends to the file, if it gets there. -/
def firstSegment (noise : Nat → UInt8) (transferEncoding : Option TransferEncoding)
    (payload : List UInt8) : Except Fault (Option (List UInt8)) := do
  let i ← findEmptyLine payload (payload.length - 3) 3
  if payload.length ≤ u32 (i + 2) then return none
  else
    let data := payload.drop (u32 (i + 2))
    if transferEncoding = some .chunked then do
      let decoded ← decodeBody noise data
      return some (if decoded = [] then data else decoded)
    else return some data

/-! ## Responses -/

/-- The header of a response: the status line and the fields. -/
structure ResponseHeader where
  lines : List (List UInt8)
  given : lines ≠ []
  plain : ∀ line ∈ lines, line ≠ [] ∧ (13 : UInt8) ∉ line ∧ (10 : UInt8) ∉ line

def ResponseHeader.encode (header : ResponseHeader) : List UInt8 :=
  encodeLines header.lines ++ crlf

/-- A body, as it is announced by the header and sent. -/
inductive ResponseBody where
  | plain (transferEncoding : Option TransferEncoding) (other : transferEncoding ≠ some .chunked)
      (bytes : List UInt8)
  | chunked (chunks : List SentChunk) (last : LastChunk)

namespace ResponseBody

def transferEncoding : ResponseBody → Option TransferEncoding
  | plain transferEncoding _ _ => transferEncoding
  | chunked _ _ => some .chunked

def encode : ResponseBody → List UInt8
  | plain _ _ bytes => bytes
  | chunked chunks last => encodeSent chunks last

end ResponseBody

/-- A segment with the header and the first `m` bytes of the body. -/
def segment (header : ResponseHeader) (body : ResponseBody) (m : Nat) : List UInt8 :=
  header.encode ++ body.encode.take m

/-- What is appended to the file is the part of the body that is in the segment, or a part of
the data of its chunks. -/
def ResponseBody.Kept (m : Nat) (appended : List UInt8) : ResponseBody → Prop
  | plain _ _ bytes => appended = bytes.take m
  | chunked chunks _ => appended <+: chunks.flatMap (·.chunk.data) ∧
      appended.length ≤ (dataPresent chunks m).length

/-- The handler reads nothing beyond the payload, and it appends what it should. -/
def FaithfulSegment (noise : Nat → UInt8) (header : ResponseHeader) (body : ResponseBody)
    (m : Nat) : Prop :=
  ∃ appended, firstSegment noise body.transferEncoding (segment header body m) = .ok appended ∧
    body.Kept m (appended.getD [])

/-- The chunks of which the segment has a part can be decoded, and it has data of them. -/
def ResponseBody.Decodable (m : Nat) : ResponseBody → Prop
  | plain _ _ _ => True
  | chunked chunks last =>
      m = 0 ∨ (dataPresent chunks m ≠ [] ∧ SizesReadable last chunks m ∧ SizesFit chunks m)

/-! ## The end of the header -/

/-- Whether the search stops at a place. -/
def isEmptyLine (payload : List UInt8) (i : Nat) : Bool :=
  payload[i]? == some 13 && payload[i - 1]? == some 10

/-- The search stops at the first place there is, or behind the payload. -/
theorem findEmptyLine_eq (payload : List UInt8) (left i : Nat)
    (inside : i + left ≤ payload.length) : findEmptyLine payload left i =
      .ok (((List.range' i left).find? (isEmptyLine payload)).getD (i + left)) := by
  induction left generalizing i with
  | zero => rfl
  | succ left ih =>
      have hrest := ih (i + 1) (by omega)
      obtain ⟨byte, hload, hat⟩ := exists_load (Nat.le_refl i)
        (List.getElem?_eq_getElem (show i < payload.length by omega))
      obtain ⟨previous, hprevious, hbefore⟩ := exists_load (Nat.le_refl (i - 1))
        (List.getElem?_eq_getElem (show i - 1 < payload.length by omega))
      have hskip : isEmptyLine payload i = false →
          ((List.range' i (left + 1)).find? (isEmptyLine payload)).getD (i + (left + 1)) =
            ((List.range' (i + 1) left).find? (isEmptyLine payload)).getD (i + 1 + left) := by
        intro hempty
        rw [List.range'_succ, List.find?_cons_of_neg (by simp [hempty]), Nat.add_right_comm,
          Nat.add_assoc]
      rw [findEmptyLine, hload, bind_ok]
      by_cases hcr : byte = 13
      · rw [if_pos hcr, hprevious, bind_ok]
        by_cases hlf : previous = 10
        · have hempty : isEmptyLine payload i = true := by
            simp [isEmptyLine, hat, hbefore, hcr, hlf]
          rw [if_pos hlf, List.range'_succ, List.find?_cons_of_pos hempty]
          rfl
        · rw [if_neg hlf, hrest, hskip (by simp [isEmptyLine, hat, hbefore, hlf])]
      · rw [if_neg hcr, hrest, hskip (by simp [isEmptyLine, hat, hcr])]

/-- In lines without an empty one no line begins with its end. -/
theorem length_encodeLines_le {lines : List (List UInt8)} (rest : List UInt8)
    (plain : ∀ line ∈ lines, line ≠ [] ∧ (13 : UInt8) ∉ line ∧ (10 : UInt8) ∉ line) (k : Nat)
    (cr : (encodeLines lines ++ rest)[k + 1]? = some 13)
    (lf : (encodeLines lines ++ rest)[k]? = some 10) : (encodeLines lines).length ≤ k + 1 := by
  induction lines generalizing k with
  | nil => exact Nat.zero_le _
  | cons line lines ih =>
      obtain ⟨hne, hcr, hlf⟩ := plain line List.mem_cons_self
      have hplain := fun other hother => plain other (List.mem_cons_of_mem line hother)
      have hcode : encodeLines (line :: lines) ++ rest =
          line ++ ([13, 10] ++ (encodeLines lines ++ rest)) := by
        simp [encodeLines, crlf]
      have hlength : (encodeLines (line :: lines)).length =
          line.length + 2 + (encodeLines lines).length := by
        simp [encodeLines, crlf]
        omega
      rw [hcode] at cr lf
      rw [hlength]
      -- the LF is not in the line, so it is the one of its end or a later one
      have hbehind : line.length ≤ k := by
        by_contra hin
        rw [List.getElem?_append_left (by omega)] at lf
        exact hlf (List.mem_of_getElem? lf)
      obtain ⟨d, rfl⟩ := Nat.exists_eq_add_of_le hbehind
      rw [List.getElem?_append_right (by omega), Nat.add_sub_cancel_left] at lf
      rw [List.getElem?_append_right (by omega), Nat.add_assoc, Nat.add_sub_cancel_left] at cr
      rcases d with _ | _ | d
      · simp at lf
      · cases lines with
        | nil => simp [encodeLines]
        | cons next lines =>
            obtain ⟨hnextNe, hnextCr, -⟩ := hplain next List.mem_cons_self
            obtain ⟨first, others, rfl⟩ := List.exists_cons_of_ne_nil hnextNe
            simp [encodeLines] at cr
            exact absurd (List.mem_cons.mpr (Or.inl cr.symm)) hnextCr
      · have hrest := ih hplain d (by simpa using cr) (by simpa using lf)
        omega

/-- The lines of a header end with an LF. -/
theorem getElem?_encodeLines_last {lines : List (List UInt8)} (given : lines ≠ [])
    (rest : List UInt8) :
    (encodeLines lines ++ rest)[(encodeLines lines).length - 1]? = some 10 := by
  obtain ⟨front, last, rfl⟩ := (List.eq_nil_or_concat' lines).resolve_left given
  have hcode : encodeLines (front ++ [last]) = encodeLines front ++ last ++ [13] ++ [10] := by
    simp [encodeLines, crlf]
  rw [hcode, List.append_assoc, List.length_append, List.length_singleton, Nat.add_sub_cancel]
  simp

/-- A line with its end has three bytes at least. -/
theorem ResponseHeader.three_le (header : ResponseHeader) :
    3 ≤ (encodeLines header.lines).length := by
  obtain ⟨lines, given, plain⟩ := header
  obtain ⟨line, others, rfl⟩ := List.exists_cons_of_ne_nil given
  have hline := List.length_pos_iff.mpr (plain line List.mem_cons_self).1
  simp only [encodeLines, List.flatMap_cons, List.length_append, crlf, List.length_cons]
  omega

/-- The search for an empty line finds the one that ends the header. -/
theorem findEmptyLine_header (header : ResponseHeader) (rest : List UInt8) :
    findEmptyLine (header.encode ++ rest) ((header.encode ++ rest).length - 3) 3 =
      .ok (encodeLines header.lines).length := by
  have hthree := header.three_le
  have hcode : header.encode ++ rest = encodeLines header.lines ++ (13 :: 10 :: rest) := by
    simp [ResponseHeader.encode, crlf]
  have hlength : (header.encode ++ rest).length =
      (encodeLines header.lines).length + 2 + rest.length := by
    rw [hcode, List.length_append, List.length_cons, List.length_cons]
    omega
  have hfind : (List.range' 3 ((header.encode ++ rest).length - 3)).find?
      (isEmptyLine (header.encode ++ rest)) = some (encodeLines header.lines).length := by
    rw [List.find?_range'_eq_some]
    refine ⟨?_, ?_, ?_⟩
    · have hlast := getElem?_encodeLines_last header.given (13 :: 10 :: rest)
      rw [isEmptyLine, hcode, hlast]
      simp
    · rw [List.mem_range'_1]
      omega
    · intro k hlow hhigh
      rw [hcode, Bool.not_eq_true', Bool.eq_false_iff]
      intro hempty
      rw [isEmptyLine, Bool.and_eq_true, beq_iff_eq, beq_iff_eq] at hempty
      obtain ⟨k, rfl⟩ := Nat.exists_eq_add_of_le' (show 1 ≤ k by omega)
      have hle := length_encodeLines_le (13 :: 10 :: rest) header.plain k hempty.1 hempty.2
      omega
  rw [findEmptyLine_eq _ _ _ (by omega), hfind]
  rfl

/-! ## The decoded body -/

/-- The stores of some bytes fill a buffer from an index on. -/
theorem storeAll_storesFrom (bytes front back : List UInt8) (room : bytes.length ≤ back.length)
    (small : front.length + bytes.length ≤ 2 ^ 31) :
    storeAll (front ++ back) (storesFrom front.length bytes) =
      .ok (front ++ (bytes ++ back.drop bytes.length)) := by
  induction bytes generalizing front back with
  | nil => simp [storesFrom, storeAll]
  | cons byte bytes ih =>
      rw [List.length_cons] at room small
      obtain ⟨old, back, rfl⟩ := List.exists_cons_of_ne_nil
        (List.length_pos_iff.mp (Nat.lt_of_lt_of_le (Nat.succ_pos _) room))
      have hfirst : storesFrom front.length (byte :: bytes) =
          ((front.length : Int), byte) :: storesFrom (front ++ [byte]).length bytes := by
        have hsplit := storesFrom_append front.length [byte] bytes
        have haddress : storesFrom front.length [byte] = [((front.length : Int), byte)] := by
          simp only [storesFrom, List.mapIdx_cons, List.mapIdx_nil, Nat.add_zero]
          rw [u32_of_lt (by omega), int32, if_pos (by omega)]
        rw [haddress, List.length_singleton, u32_of_lt (by omega)] at hsplit
        rw [List.length_append, List.length_singleton]
        exact hsplit
      have hindex : ((front.length : Int) % 2 ^ 64).toNat = front.length := by omega
      have hrest := ih (front ++ [byte]) back (by simpa using room) (by simp; omega)
      rw [hfirst, storeAll, hindex, store_append, bind_ok]
      simpa using hrest

section Body

variable {last : LastChunk} (noise : Nat → UInt8) (chunks : List SentChunk) (m : Nat)

/-- The data that is there is decoded when its sizes can be read. -/
theorem decodeBody_readable (small : ((encodeSent chunks last).take m).length < 2 ^ 31)
    (readable : SizesReadable last chunks m) (fits : SizesFit chunks m) :
    decodeBody noise ((encodeSent chunks last).take m) = .ok (dataPresent chunks m) := by
  have hloop := chunkLoop_readable [] ⟨0, 0, []⟩ chunks m
    (((encodeSent chunks last).take m).length + 1) rfl (by decide)
    (by rw [List.nil_append]; omega) (Nat.lt_succ_self _) readable fits
  have hroom : (dataPresent chunks m).length ≤ ((encodeSent chunks last).take m).length := by
    rcases Nat.eq_zero_or_pos m with rfl | hsome
    · simp
    · exact (length_dataPresent_lt last chunks hsome).le
  have hbuffer := storeAll_storesFrom (dataPresent chunks m) []
    ((List.range ((encodeSent chunks last).take m).length).map noise) (by simpa using hroom)
    (by rw [List.length_nil]; omega)
  rw [List.nil_append, List.nil_append, Nat.zero_add, u32_of_lt (by omega)] at hloop
  rw [decodeBody, chunkDecode, hloop, bind_ok]
  dsimp only
  rw [show storesFrom 0 (dataPresent chunks m) = storesFrom ([] : List UInt8).length _ from rfl,
    ← List.nil_append (List.map noise _), hbuffer, bind_ok]
  exact loadBytes_append [] (dataPresent chunks m) _

/-- When they cannot, there is a fault or nothing is decoded. -/
theorem decodeBody_unreadable (small : ((encodeSent chunks last).take m).length < 2 ^ 31)
    (unreadable : ¬SizesReadable last chunks m) (fits : SizesFit chunks m) {decoded : List UInt8}
    (ran : decodeBody noise ((encodeSent chunks last).take m) = .ok decoded) : decoded = [] := by
  have hloop := chunkLoop_unreadable [] ⟨0, 0, []⟩ chunks m
    (((encodeSent chunks last).take m).length + 1) rfl (by rw [List.nil_append]; omega)
    (Nat.lt_succ_self _) unreadable fits
  rw [List.nil_append] at hloop
  rw [decodeBody, chunkDecode, bind_eq_ok_iff] at ran
  obtain ⟨⟨ret, stores⟩, hret, ran⟩ := ran
  obtain ⟨buffer, -, hread⟩ := bind_eq_ok_iff.mp ran
  rcases hloop with ⟨fault, hfault⟩ | ⟨stored, hzero⟩
  · rw [hfault] at hret
    cases hret
  · rw [hzero] at hret
    cases hret
    simpa [loadBytes] using hread.symm

end Body

/-- The handler behind the header of a response. -/
theorem firstSegment_header (noise : Nat → UInt8) (transferEncoding : Option TransferEncoding)
    (header : ResponseHeader) (rest : List UInt8)
    (small : (header.encode ++ rest).length < 2 ^ 31) :
    firstSegment noise transferEncoding (header.encode ++ rest) =
      if rest = [] then .ok none
      else if transferEncoding = some .chunked then
        (decodeBody noise rest).map fun decoded => some (if decoded = [] then rest else decoded)
      else .ok (some rest) := by
  have hlength : header.encode.length = (encodeLines header.lines).length + 2 := by
    simp [ResponseHeader.encode, crlf]
  have hstart : u32 ((encodeLines header.lines).length + 2) = header.encode.length := by
    rw [← hlength]
    rw [List.length_append] at small
    exact u32_of_lt (by omega)
  rw [firstSegment, findEmptyLine_header, bind_ok, hstart, List.drop_left, List.length_append]
  cases rest with
  | nil => rw [if_pos (by simp), if_pos rfl]; rfl
  | cons byte rest =>
      rw [if_neg (by simp), if_neg (List.cons_ne_nil _ _)]
      by_cases hchunked : transferEncoding = some .chunked
      · rw [if_pos hchunked, if_pos hchunked]
        cases decodeBody noise (byte :: rest) with
        | error fault => rfl
        | ok decoded => rfl
      · rw [if_neg hchunked, if_neg hchunked]
        rfl

/-! ## The first segment -/

section Faithful

variable {noise : Nat → UInt8} {header : ResponseHeader} {m : Nat}

/-- A plain body is appended as it is. -/
theorem faithfulSegment_plain {transferEncoding : Option TransferEncoding}
    (other : transferEncoding ≠ some .chunked) (bytes : List UInt8)
    (small : (segment header (.plain transferEncoding other bytes) m).length < 2 ^ 31) :
    FaithfulSegment noise header (.plain transferEncoding other bytes) m := by
  have hsegment := firstSegment_header noise transferEncoding header (bytes.take m) small
  by_cases hnone : bytes.take m = []
  · rw [if_pos hnone] at hsegment
    exact ⟨none, hsegment, hnone.symm⟩
  · rw [if_neg hnone, if_neg other] at hsegment
    exact ⟨some (bytes.take m), hsegment, rfl⟩

variable {chunks : List SentChunk} {last : LastChunk}

/-- What the handler appends for a body of chunks is in the segment as it was sent, or it was
decoded. -/
theorem firstSegment_chunked (noise : Nat → UInt8) (some_byte : 0 < m)
    (small : (segment header (.chunked chunks last) m).length < 2 ^ 31) :
    firstSegment noise (some .chunked) (segment header (.chunked chunks last) m) =
      (decodeBody noise ((encodeSent chunks last).take m)).map fun decoded =>
        some (if decoded = [] then (encodeSent chunks last).take m else decoded) := by
  have hpart : (encodeSent chunks last).take m ≠ [] :=
    List.length_pos_iff.mp (Nat.zero_lt_of_lt (length_dataPresent_lt last chunks some_byte))
  have hsegment := firstSegment_header noise (some .chunked) header
    ((encodeSent chunks last).take m) small
  rwa [if_neg hpart, if_pos rfl] at hsegment

theorem length_take_lt_of_segment
    (small : (segment header (.chunked chunks last) m).length < 2 ^ 31) :
    ((encodeSent chunks last).take m).length < 2 ^ 31 := by
  rw [segment, List.length_append] at small
  exact Nat.lt_of_le_of_lt (Nat.le_add_left _ _) small

/-- The code of chunks is too long to be taken for their data. -/
theorem not_kept_encodeSent (some_byte : 0 < m) :
    ¬(ResponseBody.chunked chunks last).Kept m ((encodeSent chunks last).take m) := by
  rintro ⟨-, hlength⟩
  exact absurd (length_dataPresent_lt last chunks some_byte) (Nat.not_lt.mpr hlength)

theorem faithfulSegment_of_readable
    (small : (segment header (.chunked chunks last) m).length < 2 ^ 31)
    (decodable : (ResponseBody.chunked chunks last).Decodable m) :
    FaithfulSegment noise header (.chunked chunks last) m := by
  rcases Nat.eq_zero_or_pos m with rfl | hsome
  · have hsegment := firstSegment_header noise (some .chunked) header
      ((encodeSent chunks last).take 0) small
    exact ⟨none, hsegment, List.nil_prefix, Nat.zero_le _⟩
  · obtain ⟨hdata, hreadable, hfits⟩ := decodable.resolve_left hsome.ne'
    have hpart := length_take_lt_of_segment small
    have hsegment := firstSegment_chunked noise hsome small
    rw [decodeBody_readable noise chunks m hpart hreadable hfits, Except.map, if_neg hdata]
      at hsegment
    exact ⟨_, hsegment, dataPresent_begins_body chunks m, Nat.le_refl _⟩

theorem readable_of_faithfulSegment
    (small : (segment header (.chunked chunks last) m).length < 2 ^ 31)
    (fits : SizesFit chunks m) (faithful : FaithfulSegment noise header (.chunked chunks last) m) :
    (ResponseBody.chunked chunks last).Decodable m := by
  rcases Nat.eq_zero_or_pos m with rfl | hsome
  · exact Or.inl rfl
  · have hpart := length_take_lt_of_segment small
    obtain ⟨appended, hran, hkept⟩ := faithful
    rw [ResponseBody.transferEncoding, firstSegment_chunked noise hsome small,
      map_eq_ok_iff] at hran
    obtain ⟨decoded, hdecoded, rfl⟩ := hran
    have hgiven : decoded ≠ [] := by
      rintro rfl
      exact not_kept_encodeSent hsome hkept
    have hreadable : SizesReadable last chunks m := by
      by_contra hunreadable
      exact hgiven (decodeBody_unreadable noise chunks m hpart hunreadable fits hdecoded)
    rw [decodeBody_readable noise chunks m hpart hreadable fits] at hdecoded
    cases hdecoded
    exact Or.inr ⟨hgiven, hreadable, fits⟩

/-- The chunks that begin in the segment have sizes of 32 bits. -/
def ResponseBody.Fits (m : Nat) : ResponseBody → Prop
  | plain _ _ _ => True
  | chunked chunks _ => SizesFit chunks m

/-- The first segment of a response is reconstructed when the chunks of which it has a part can
be decoded, and only then as long as their sizes have 32 bits. -/
theorem faithfulSegment_iff (noise : Nat → UInt8) (header : ResponseHeader) (body : ResponseBody)
    (m : Nat) (small : (segment header body m).length < 2 ^ 31) :
    (body.Decodable m → FaithfulSegment noise header body m) ∧
      (body.Fits m → FaithfulSegment noise header body m → body.Decodable m) := by
  cases body with
  | plain transferEncoding other bytes =>
      exact ⟨fun _ => faithfulSegment_plain other bytes small, fun _ _ => trivial⟩
  | chunked chunks last =>
      exact ⟨faithfulSegment_of_readable small, readable_of_faithfulSegment small⟩

end Faithful

/-- The header `HTTP/1.1 200 OK`. -/
def exampleHeader : ResponseHeader where
  lines := [[72, 84, 84, 80, 47, 49, 46, 49, 32, 50, 48, 48, 32, 79, 75]]
  given := by decide
  plain := by decide

/-- The text `hello` as a chunk, and the last chunk. -/
def exampleBody : ResponseBody :=
  .chunked
    [⟨⟨[53], [104, 101, 108, 108, 111], List.all_eq_true.mp rfl, rfl, by decide⟩,
      ⟨[], by simp, by simp⟩⟩]
    ⟨0, ⟨[], by simp, by simp⟩, []⟩

/-- A segment that ends in the data of a chunk is reconstructed, and one that ends in the line of
the last size is not. -/
theorem faithfulSegment_iff_hello :
    FaithfulSegment (fun _ => 0) exampleHeader exampleBody 5 ∧
      ¬FaithfulSegment (fun _ => 0) exampleHeader exampleBody 11 := by
  refine ⟨(faithfulSegment_iff _ exampleHeader exampleBody 5 (by decide)).1 ?_, fun hfaithful => ?_⟩
  · exact Or.inr ⟨by decide, Or.inr ⟨rfl, by decide, Or.inl rfl⟩, Or.inr ⟨by decide, trivial⟩⟩
  · have hdecodable := (faithfulSegment_iff _ exampleHeader exampleBody 11 (by decide)).2
      (Or.inr ⟨by decide, trivial⟩) hfaithful
    obtain ⟨-, hsizes, -⟩ := hdecodable.resolve_left (by decide)
    obtain ⟨-, -, hlast⟩ := hsizes.resolve_left (by decide)
    rcases hlast with hnone | hbehind
    · exact absurd hnone (by decide)
    · exact absurd hbehind (by decide)

/-- A segment that ends with the digit of the first size is read beyond its end, and of one that
ends with the line of this size the line is appended to the file. -/
theorem not_faithfulSegment_size_line :
    ¬FaithfulSegment (fun _ => 0) exampleHeader exampleBody 1 ∧
      ¬FaithfulSegment (fun _ => 0) exampleHeader exampleBody 3 := by
  have hbeyond : firstSegment (fun _ => 0) exampleBody.transferEncoding
      (segment exampleHeader exampleBody 1) = .error (.load 1) := by decide
  have hraw : firstSegment (fun _ => 0) exampleBody.transferEncoding
      (segment exampleHeader exampleBody 3) = .ok (some [53, 13, 10]) := by decide
  constructor
  · rintro ⟨appended, hran, -⟩
    rw [hbeyond] at hran
    cases hran
  · rintro ⟨appended, hran, -, hlength⟩
    rw [hraw] at hran
    cases hran
    exact absurd hlength (by decide)

/-! ## The file -/

/-- The search ends where the header does for the rest of the model. -/
theorem findEmptyLine_bodyStart (payload : List UInt8) :
    findEmptyLine payload (payload.length - 3) 3 = .ok (bodyStart payload - 2) := by
  rw [bodyStart, Nat.add_sub_cancel]
  by_cases hthree : 3 ≤ payload.length
  · rw [findEmptyLine_eq payload _ 3 (by omega), Nat.add_sub_cancel' hthree,
      Nat.max_eq_right hthree]
    rfl
  · have hnone : payload.length - 3 = 0 := by omega
    rw [hnone, Nat.max_eq_left (by omega)]
    rfl

theorem bodyStart_le (payload : List UInt8) :
    2 ≤ bodyStart payload ∧ bodyStart payload ≤ max 3 payload.length + 2 := by
  rw [bodyStart]
  refine ⟨Nat.le_add_left _ _, Nat.add_le_add_right ?_ 2⟩
  cases hfind : (List.range' 3 (payload.length - 3)).find? _ with
  | none => exact Nat.le_refl _
  | some i =>
      have hlisted := List.mem_of_find?_eq_some hfind
      rw [List.mem_range'_1] at hlisted
      rw [Option.getD_some]
      omega

/-- The decoder is the one of the rest of the model. -/
def Reconstruction.Decodes (code : Reconstruction) (noise : Nat → UInt8) : Prop :=
  ∀ data, code.chunkDecode data = decodeBody noise data

variable {code : Reconstruction} {noise : Nat → UInt8} {payload : List UInt8}
  {appended : Option (List UInt8)}

/-- The handler appends what it finds in a segment, and leaves it where the decoder does. -/
theorem firstChunk_eq_firstSegment (transferEncoding : Option TransferEncoding)
    (decodes : code.Decodes noise) (small : payload.length + 2 < 2 ^ 32) :
    firstChunk code (some payload) transferEncoding =
      firstSegment noise transferEncoding payload := by
  have hbounds := bodyStart_le payload
  have hstart : u32 (bodyStart payload - 2 + 2) = bodyStart payload := by
    rw [Nat.sub_add_cancel hbounds.1]
    exact u32_of_lt (by omega)
  rw [firstSegment, findEmptyLine_bodyStart, bind_ok, hstart, firstChunk]
  by_cases hempty : payload.length ≤ bodyStart payload
  · rw [if_pos hempty]
    exact (if_pos hempty).symm
  · rw [if_neg hempty]
    dsimp only
    rw [if_neg hempty, decodes]
    rfl

/-- The file gets it. -/
theorem startFile_of_firstSegment {world : HttpWorld} {session file : Nat} {content : HttpSession}
    {packet : HttpPacket} (decodes : code.Decodes noise) (small : payload.length + 2 < 2 ^ 32)
    (held : world.heap[session]? = some (some content)) (opened : content.file = some file)
    (isOpen : world.files[file]? = some true) (carried : packet.tcpPayload = some payload)
    (ran : firstSegment noise content.transferEncoding payload = .ok appended) :
    ∃ target, startFile code world session packet = .ok target ∧
      target.log = world.log ++ (appended.map (HttpEvent.appended file)).toList := by
  have hload : world.load session = .ok content := by rw [HttpWorld.load, held]
  have hinside : session < world.heap.length := (List.getElem?_eq_some_iff.mp held).1
  rw [startFile, hload, bind_ok, opened]
  dsimp only
  rw [HttpWorld.store, hload, bind_ok, carried, firstChunk_eq_firstSegment _ decodes small, ran]
  simp only [bind_ok, mapError_ok]
  cases appended with
  | none => exact ⟨_, rfl, by simp⟩
  | some data =>
      simp [appendData, HttpWorld.load, HttpWorld.store, HttpWorld.fwrite, hinside, isOpen, bind,
        Except.bind, pure, Except.pure]

end MmtProbe.Dpi
