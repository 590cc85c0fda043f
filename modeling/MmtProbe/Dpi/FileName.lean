/-
# The names of the reconstructed files

A request names the file of its response: the number of the session, the host and the
URI, in which characters are replaced that a file name should not have.  The response
makes the full path of it: the directory, the prefix `mmt-`, the name, the extension that
belongs to the type of the content and, as long as the content is encoded, the encoding.

Both handlers work in an array of 255 bytes.  The second call of the builder is given
what is left of the array as its size, and adds to the position where it starts, so a
long name gets no extension.
-/

import MmtProbe.Dpi.HttpReconstruct
import MmtProbe.Lib.StringBuilderText
import MmtProbe.Output.FileOutput

namespace MmtProbe.Dpi

open MmtProbe.Math MmtProbe.Lib MmtProbe.Output

/-! ## The request -/

/-- The loop of `string_format_file_name`, from the character `i` on. -/
def formatLoop (memory : List UInt8) (fileName i : Nat) : Nat → Except Fault (Nat × List UInt8)
  | 0 => .ok (i, memory)
  | left + 1 => do
      let ch ← load memory (fileName + i)
      if ch = 0 then .ok (i, memory)
      else do
        let memory ← (if formatByte ch = ch then .ok memory
          else store memory (fileName + i) (formatByte ch) : Except Fault (List UInt8))
        formatLoop memory fileName (i + 1) left

/-- `string_format_file_name`; without a size the string is read to its end. -/
def stringFormatFileNameAt (memory : List UInt8) (fileName size : Nat) :
    Except Fault (Nat × List UInt8) :=
  formatLoop memory fileName 0 (if size = 0 then 2 ^ 15 - 1 else size)

/-- A host or a URI is copied behind a dash and formatted there. -/
def appendPart (data : List UInt8) (sofar : Nat × List UInt8) :
    Except Fault (Nat × List UInt8) := do
  let memory ← store sofar.2 sofar.1 45
  let memory ← storeBytes memory (sofar.1 + 1) data
  let (length, memory) ← stringFormatFileNameAt memory (sofar.1 + 1) data.length
  return (sofar.1 + 1 + length, memory)

/-- What `_http_method_handle` does with its array: the bytes that it copies to the
`file_name` of the session. -/
def methodFileName (fileName : PathArray) (packet : HttpPacket) : Except Fault (List UInt8) := do
  let sofar ← appendNumber fileName.val 0 maxLengthFullPathFileName
    (UInt64.ofInt packet.sessionId)
  let sofar ← (match packet.host with
    | some (byte :: bytes) => appendPart ((byte :: bytes).take 50) sofar
    | _ => .ok sofar)
  let (valid, memory) ← (match packet.uri with
    | some (byte :: bytes) =>
        appendPart ((byte :: bytes).drop ((byte :: bytes).length - 100)) sofar
    | _ => .ok sofar)
  let memory ← store memory valid 0
  loadBytes memory 0 (valid + 1)

/-! ## The response -/

/-- `ident_string` -/
def ContentEncoding.identString : ContentEncoding → CString
  | gzip => .ofText "gzip"
  | compress => .ofText "compress"
  | deflate => .ofText "deflate"
  | identity => .ofText "identity"
  | br => .ofText "br"

/-- What `memcmp` finds at the end of the name. When the extension is longer than the name
it reads before the array: `outside` is what it finds there, or a fault. -/
def differsAtEnd (outside : Option Bool) (memory : List UInt8) (valid : Nat)
    (fileExtension : CString) : Except Fault Bool :=
  if valid < fileExtension.bytes.length then
    match outside with
    | none => .error (.load 0)
    | some differs => .ok differs
  else
    (loadBytes memory (valid - fileExtension.bytes.length) fileExtension.bytes.length).map
      (fileExtension.bytes != ·)

/-- The suffix of an encoded content, while it is encoded. -/
def encodingFields : Option ContentEncoding → Option (List Field)
  | some .compress => some [.char 46, .arr ContentEncoding.compress.identString]
  | some .gzip => some [.char 46, .arr ContentEncoding.gzip.identString]
  | some .deflate => some [.char 46, .arr ContentEncoding.deflate.identString]
  | _ => none

/-- "add real extension if need" -/
def addFileExtension (fileExtension : CString) (isNeedFileExtension : Bool)
    (sofar : Nat × List UInt8) : Except Stop (Nat × List UInt8) :=
  if isNeedFileExtension then
    stringBuilder sofar.1 sofar.2 (maxLengthFullPathFileName - sofar.1)
      [.char 46, .arr fileExtension]
  else .ok sofar

/-- "we also add an extension for marking content-encoding" -/
def addEncoding (contentEncoding : Option ContentEncoding) (sofar : Nat × List UInt8) :
    Except Stop (Nat × List UInt8) :=
  match encodingFields contentEncoding with
  | some fields => stringBuilder sofar.1 sofar.2 maxLengthFullPathFileName fields
  | none => .ok sofar

/-- What `_create_file` does with its array: the bytes that it copies to the `file_name` of
the session, and the path that it gives to `fopen`. -/
def createFileName (outside : Option Bool) (fileName : PathArray)
    (directory sessionName fileExtension : CString) (contentEncoding : Option ContentEncoding) :
    Except Stop (List UInt8 × List UInt8) := do
  let (valid, memory) ← stringBuilder 0 fileName.val maxLengthFullPathFileName
    [.arr directory, .arr (.ofText "mmt-"), .arr sessionName]
  let (valid, isNeedFileExtension) ← (if valid ≥ maxLengthFullPathFileName then
      .ok (maxLengthFullPathFileName - 20, true)
    else do
      let differs ← (differsAtEnd outside memory valid fileExtension).mapError .fault
      return (valid, differs) : Except Stop (Nat × Bool))
  let (valid, memory) ← addFileExtension fileExtension isNeedFileExtension (valid, memory)
  let stored ← (loadBytes memory 0 (valid + 1)).mapError .fault
  let (_, memory) ← addEncoding contentEncoding (valid, memory)
  let path ← (loadString memory 0).mapError .fault
  return (stored, path)

/-! ## What the response makes of a name -/

/-- The directory, the prefix and the name, as far as they fit. -/
def builtName (directory sessionName : CString) : List UInt8 :=
  (directory.bytes ++ (bytesOf "mmt-" ++ sessionName.bytes)).take 254

/-- Whether an extension is added; nothing when the comparison fails. -/
def needsExtension (outside : Option Bool) (built fileExtension : List UInt8) : Option Bool :=
  if built.length < fileExtension.length then outside
  else some (fileExtension != built.drop (built.length - fileExtension.length))

/-- The name that the session keeps. -/
def storedName (needs : Bool) (built fileExtension : List UInt8) : List UInt8 :=
  if needs then built ++ (46 :: fileExtension).take (254 - 2 * built.length) else built

/-- The path that is opened. -/
def openedName (stored : List UInt8) (contentEncoding : Option ContentEncoding) : List UInt8 :=
  match encodingFields contentEncoding with
  | some fields => stored ++ (fields.flatMap Field.full).take (254 - stored.length)
  | none => stored

section CreateFile

variable {directory sessionName fileExtension : CString}

theorem length_builtName_le (directory sessionName : CString) :
    (builtName directory sessionName).length ≤ 254 := List.length_take_le _ _

theorem length_storedName_le {built : List UInt8} (short : built.length ≤ 254) (needs : Bool)
    (fileExtension : List UInt8) : (storedName needs built fileExtension).length ≤ 254 := by
  have hle := List.length_take_le (254 - 2 * built.length) (46 :: fileExtension)
  unfold storedName
  split_ifs
  · rw [List.length_append]
    omega
  · exact short

theorem plain_builtName (directory sessionName : CString) :
    (0 : UInt8) ∉ builtName directory sessionName := by
  intro hzero
  have hlisted := (List.take_subset _ _) hzero
  simp only [List.mem_append] at hlisted
  rcases hlisted with hdirectory | hprefix | hname
  · exact directory.plain hdirectory
  · exact absurd hprefix (by decide +kernel)
  · exact sessionName.plain hname

theorem plain_storedName {built : List UInt8} (plain : (0 : UInt8) ∉ built) (needs : Bool)
    (fileExtension : CString) : (0 : UInt8) ∉ storedName needs built fileExtension.bytes := by
  unfold storedName
  split_ifs
  · intro hzero
    rcases List.mem_append.mp hzero with hbuilt | hadded
    · exact plain hbuilt
    · rcases List.mem_cons.mp ((List.take_subset _ _) hadded) with hdot | hextension
      · exact absurd hdot (by decide)
      · exact fileExtension.plain hextension
  · exact plain

theorem flatMap_full_suffix (src : CString) :
    [Field.char 46, .arr src].flatMap Field.full = 46 :: src.bytes := by
  simp [Field.full]

/-- The suffixes are a dot and letters. -/
theorem encodingFields_cases {contentEncoding : Option ContentEncoding} {fields : List Field}
    (encoded : encodingFields contentEncoding = some fields) :
    ∃ encoding : ContentEncoding, fields = [.char 46, .arr encoding.identString] := by
  unfold encodingFields at encoded
  split at encoded
  · exact ⟨_, (Option.some.inj encoded).symm⟩
  · exact ⟨_, (Option.some.inj encoded).symm⟩
  · exact ⟨_, (Option.some.inj encoded).symm⟩
  · cases encoded

theorem plain_openedName {stored : List UInt8} (plain : (0 : UInt8) ∉ stored)
    (contentEncoding : Option ContentEncoding) :
      (0 : UInt8) ∉ openedName stored contentEncoding := by
  unfold openedName
  split
  · rename_i fields hfields
    rcases encodingFields_cases hfields with ⟨encoding, rfl⟩
    intro hzero
    rcases List.mem_append.mp hzero with hstored | hadded
    · exact plain hstored
    · rw [flatMap_full_suffix] at hadded
      rcases List.mem_cons.mp ((List.take_subset _ _) hadded) with hdot | hident
      · exact absurd hdot (by decide)
      · exact encoding.identString.plain hident
  · exact plain

theorem loadBytes_closed (text rest : List UInt8) :
    loadBytes (text ++ 0 :: rest) 0 (text.length + 1) = .ok (text ++ [0]) := by
  have hload := loadBytes_append [] (text ++ [0]) rest
  rwa [List.length_append, List.length_singleton, List.append_assoc] at hload

/-- The comparison sees the end of the name, or what is before the array. -/
theorem differsAtEnd_eq (outside : Option Bool) (built rest : List UInt8)
    (fileExtension : CString) :
    differsAtEnd outside (built ++ 0 :: rest) built.length fileExtension =
      match needsExtension outside built fileExtension.bytes with
      | none => .error (.load 0)
      | some differs => .ok differs := by
  unfold differsAtEnd needsExtension
  split_ifs with hlong
  · rfl
  · have hsplit : built ++ 0 :: rest =
        built.take (built.length - fileExtension.bytes.length) ++
          (built.drop (built.length - fileExtension.bytes.length) ++ 0 :: rest) := by
      rw [← List.append_assoc, List.take_append_drop]
    have hload := loadBytes_append (built.take (built.length - fileExtension.bytes.length))
      (built.drop (built.length - fileExtension.bytes.length)) (0 :: rest)
    have hcount : built.length - (built.length - fileExtension.bytes.length) =
        fileExtension.bytes.length := by omega
    rw [← hsplit, List.length_take, Nat.min_eq_left (Nat.sub_le ..), List.length_drop,
      hcount] at hload
    rw [hload]
    rfl

/-- The second call of the builder, whose size is what is left of the array. -/
theorem addFileExtension_eq {built rest : List UInt8} (short : built.length ≤ 254)
    (whole : (built ++ 0 :: rest).length = 255) (fileExtension : CString) (needs : Bool) :
    ∃ stored rest', stored = storedName needs built fileExtension.bytes ∧
      addFileExtension fileExtension needs (built.length, built ++ 0 :: rest) =
        .ok (stored.length, stored ++ 0 :: rest') ∧ (stored ++ 0 :: rest').length = 255 := by
  have hsize : maxLengthFullPathFileName = 255 := rfl
  cases needs with
  | false => exact ⟨built, rest, rfl, rfl, whole⟩
  | true =>
      obtain ⟨stored, rest', hstored, hrun, hlength⟩ :=
        @stringBuilder_cut (built ++ 0 :: rest) built (maxLengthFullPathFileName - built.length)
          [.char 46, .arr fileExtension] (by simp [Field.Cut]) (List.prefix_append ..) (by omega)
          (by omega) (by omega) (by omega)
      have hroom : maxLengthFullPathFileName - built.length - 1 - built.length =
          254 - 2 * built.length := by omega
      rw [flatMap_full_suffix, hroom] at hstored
      exact ⟨stored, rest', hstored, hrun, hlength.trans whole⟩

/-- The third call, which has the size of the array again. -/
theorem addEncoding_eq {stored rest : List UInt8} (short : stored.length ≤ 254)
    (whole : (stored ++ 0 :: rest).length = 255) (contentEncoding : Option ContentEncoding) :
    ∃ valid rest', addEncoding contentEncoding (stored.length, stored ++ 0 :: rest) =
      .ok (valid, openedName stored contentEncoding ++ 0 :: rest') := by
  have hsize : maxLengthFullPathFileName = 255 := rfl
  unfold addEncoding openedName
  cases hfields : encodingFields contentEncoding with
  | none => exact ⟨stored.length, rest, rfl⟩
  | some fields =>
      rcases encodingFields_cases hfields with ⟨encoding, rfl⟩
      obtain ⟨opened, rest', hopened, hrun, -⟩ :=
        @stringBuilder_cut (stored ++ 0 :: rest) stored maxLengthFullPathFileName
          [.char 46, .arr encoding.identString] (by simp [Field.Cut]) (List.prefix_append ..)
          (by omega) (by omega) (by omega) (by omega)
      rw [hopened] at hrun
      exact ⟨_, rest', hrun⟩

/-- The first call, from the beginning of the array. -/
theorem stringBuilder_builtName (fileName : PathArray) (directory sessionName : CString) :
    ∃ built rest, built = builtName directory sessionName ∧
      stringBuilder 0 fileName.val maxLengthFullPathFileName
          [.arr directory, .arr (.ofText "mmt-"), .arr sessionName] =
        .ok (built.length, built ++ 0 :: rest) ∧ (built ++ 0 :: rest).length = 255 := by
  have hsize : maxLengthFullPathFileName = 255 := rfl
  have hwhole : fileName.val.length = 255 := fileName.property
  have hprefix : (CString.ofText "mmt-").bytes = bytesOf "mmt-" := by decide +kernel
  obtain ⟨built, rest, hbuilt, hrun, hlength⟩ := @stringBuilder_cut fileName.val []
    maxLengthFullPathFileName [.arr directory, .arr (.ofText "mmt-"), .arr sessionName]
    (by simp [Field.Cut]) List.nil_prefix (by rw [List.length_nil]; omega) (by omega) (by omega)
    (by omega)
  refine ⟨built, rest, ?_, hrun, hlength.trans hwhole⟩
  rw [hbuilt, builtName, hsize]
  simp [Field.full, hprefix]

/-- Every write of `_create_file` is inside its array, and the names are these. -/
theorem createFileName_eq (outside : Option Bool) (fileName : PathArray)
    (directory sessionName fileExtension : CString) (contentEncoding : Option ContentEncoding) :
    createFileName outside fileName directory sessionName fileExtension contentEncoding =
      match needsExtension outside (builtName directory sessionName) fileExtension.bytes with
      | none => .error (.fault (.load 0))
      | some needs =>
          .ok (storedName needs (builtName directory sessionName) fileExtension.bytes ++ [0],
            openedName (storedName needs (builtName directory sessionName) fileExtension.bytes)
              contentEncoding) := by
  have hsize : maxLengthFullPathFileName = 255 := rfl
  obtain ⟨built, rest, hbuilt, hrun, hlength⟩ :=
    stringBuilder_builtName fileName directory sessionName
  have hshort := length_builtName_le directory sessionName
  have hplain := plain_builtName directory sessionName
  rw [← hbuilt] at hshort hplain ⊢
  rw [createFileName, hrun, bind_ok]
  simp only
  rw [if_neg (by omega), differsAtEnd_eq]
  cases hneeds : needsExtension outside built fileExtension.bytes with
  | none => rfl
  | some needs =>
      obtain ⟨stored, rest', hstored, hrun', hlength'⟩ :=
        addFileExtension_eq hshort hlength fileExtension needs
      have hshort' := length_storedName_le hshort needs fileExtension.bytes
      have hplain' := plain_storedName hplain needs fileExtension
      simp only [← hstored] at hshort' hplain' ⊢
      obtain ⟨valid, rest'', hrun''⟩ := addEncoding_eq hshort' hlength' contentEncoding
      have hread := loadString_front (plain_openedName hplain' contentEncoding) rest''
      simp only [mapError_ok, bind_ok, pure_bind, hrun', loadBytes_closed, hrun'', hread]
      rfl

end CreateFile

/-! ## What the request makes of its header -/

section Request

/-- The loop replaces the characters up to the first NUL. -/
theorem formatLoop_eq (before done bytes after : List UInt8) :
    formatLoop (before ++ (done ++ (bytes ++ after))) before.length done.length bytes.length =
      .ok (done.length + (stringFormatFileName bytes).length,
        before ++ (done ++ (stringFormatFileName bytes ++
          (bytes.drop (stringFormatFileName bytes).length ++ after)))) := by
  induction bytes generalizing done with
  | nil => rfl
  | cons byte bytes ih =>
      have hload : load (before ++ (done ++ (byte :: bytes ++ after)))
          (before.length + done.length) = .ok byte := load_append_append _ _ _ _
      rw [List.length_cons, formatLoop, hload, bind_ok]
      by_cases hzero : byte = 0
      · subst hzero
        rw [if_pos rfl]
        rfl
      · have hstore : (if formatByte byte = byte then
              .ok (before ++ (done ++ (byte :: bytes ++ after)))
            else store (before ++ (done ++ (byte :: bytes ++ after)))
              (before.length + done.length) (formatByte byte) : Except Fault (List UInt8)) =
            .ok (before ++ (done ++ formatByte byte :: (bytes ++ after))) := by
          split_ifs with hsame
          · rw [hsame]
            rfl
          · exact store_append_append _ _ _ _ _
        have hformat : stringFormatFileName (byte :: bytes) =
            formatByte byte :: stringFormatFileName bytes := by
          rw [stringFormatFileName, cstring, List.takeWhile_cons_of_pos (by simpa using hzero)]
          rfl
        have hnext := ih (done ++ [formatByte byte])
        simp only [List.append_assoc, List.singleton_append, List.length_append,
          List.length_singleton] at hnext
        rw [if_neg hzero, hstore, bind_ok, hnext, hformat, List.length_cons, List.drop_succ_cons,
          List.cons_append]
        congr 2
        omega

theorem length_stringFormatFileName_le (bytes : List UInt8) :
    (stringFormatFileName bytes).length ≤ bytes.length := by
  rw [stringFormatFileName, List.length_map]
  exact length_cstring_le bytes

/-- A part is written behind what is there. -/
theorem appendPart_eq {data : List UInt8} (given : data ≠ []) (text rest : List UInt8)
    (room : 1 + data.length ≤ rest.length) :
    ∃ after rest', after = text ++ 45 :: stringFormatFileName data ∧
      appendPart data (text.length, text ++ rest) = .ok (after.length, after ++ rest') ∧
      (after ++ rest').length = (text ++ rest).length := by
  have hle := length_stringFormatFileName_le data
  have hsize : (if data.length = 0 then 2 ^ 15 - 1 else data.length) = data.length :=
    if_neg fun hzero => given (List.length_eq_zero_iff.mp hzero)
  cases rest with
  | nil =>
      rw [List.length_nil] at room
      omega
  | cons old rest =>
      rw [List.length_cons] at room
      have hfits : text.length + 1 + data.length ≤ (text ++ 45 :: rest).length := by
        rw [List.length_append, List.length_cons]
        omega
      have hcopy : storeBytes (text ++ 45 :: rest) (text.length + 1) data =
          .ok ((text ++ [45]) ++ ([] ++ (data ++ rest.drop data.length))) := by
        have hdash : text ++ 45 :: rest = (text ++ [45]) ++ rest := by simp
        have hcount : text.length + 1 = (text ++ [45]).length := by
          rw [List.length_append, List.length_singleton]
        rw [storeBytes_eq_splice hfits, splice, hdash, hcount, List.take_left,
          List.drop_length_add_append, List.nil_append]
      have hformat := formatLoop_eq (text ++ [45]) [] data (rest.drop data.length)
      rw [List.length_append, List.length_singleton, List.length_nil] at hformat
      refine ⟨_, data.drop (stringFormatFileName data).length ++ rest.drop data.length, rfl, ?_, ?_⟩
      · simp only [appendPart, store_append, bind_ok, hcopy, stringFormatFileNameAt, hsize, hformat]
        simp only [List.length_append, List.length_cons, List.append_assoc, List.nil_append,
          List.cons_append, Nat.zero_add]
        congr 2
        omega
      · simp only [List.length_append, List.length_cons, List.length_drop]
        omega

/-- The optional parts of a name. -/
theorem namePart_eq (bytes : Option (List UInt8)) (cut : List UInt8 → List UInt8)
    (text rest : List UInt8) (count : Nat) (cutGiven : ∀ bytes, bytes ≠ [] → cut bytes ≠ [])
    (cutShort : ∀ bytes, (cut bytes).length ≤ count) (room : 1 + count ≤ rest.length) :
    ∃ after rest', after = text ++ namePart bytes cut ∧
      (match bytes with
        | some (byte :: bytes) => appendPart (cut (byte :: bytes)) (text.length, text ++ rest)
        | _ => .ok (text.length, text ++ rest)) = .ok (after.length, after ++ rest') ∧
      (after ++ rest').length = (text ++ rest).length ∧
      after.length ≤ text.length + 1 + count := by
  match bytes with
  | none => exact ⟨text, rest, (List.append_nil text).symm, rfl, rfl, by omega⟩
  | some [] => exact ⟨text, rest, (List.append_nil text).symm, rfl, rfl, by omega⟩
  | some (byte :: bytes) =>
      have hshort := cutShort (byte :: bytes)
      obtain ⟨after, rest', hafter, hrun, hlength⟩ :=
        appendPart_eq (cutGiven (byte :: bytes) (List.cons_ne_nil _ _)) text rest (by omega)
      refine ⟨after, rest', hafter, hrun, hlength, ?_⟩
      have hle := length_stringFormatFileName_le (cut (byte :: bytes))
      rw [hafter, List.length_append, List.length_cons]
      omega

theorem plain_stringFormatFileName (bytes : List UInt8) :
    (0 : UInt8) ∉ stringFormatFileName bytes := by
  intro hzero
  rcases List.mem_map.mp hzero with ⟨byte, hbyte, hformat⟩
  have hne : (byte != 0) = true := List.mem_takeWhile_imp (p := (· != 0)) hbyte
  unfold formatByte at hformat
  split_ifs at hformat
  · exact absurd hformat (by decide)
  · exact absurd hformat (by decide)
  · rw [hformat] at hne
    exact absurd hne (by decide)

theorem plain_namePart (bytes : Option (List UInt8)) (cut : List UInt8 → List UInt8) :
    (0 : UInt8) ∉ namePart bytes cut := by
  unfold namePart
  split
  · exact List.not_mem_nil
  · exact List.not_mem_nil
  · intro hzero
    rcases List.mem_cons.mp hzero with hdash | hformat
    · exact absurd hdash (by decide)
    · exact plain_stringFormatFileName _ hformat

/-- The parts of a name, one after the other. -/
theorem bytes_requestName (packet : HttpPacket) :
    (requestName packet).bytes = decimal (UInt64.ofInt packet.sessionId).toNat ++
      namePart packet.host (·.take 50) ++
        namePart packet.uri fun uri => uri.drop (uri.length - 100) := by
  apply cstring_eq_self
  simp only [List.mem_append, not_or]
  exact ⟨⟨notMem_fixed (by decide) _ _, plain_namePart _ _⟩, plain_namePart _ _⟩

/-- Every write of `_http_method_handle` is inside its array, and the session gets the name
of the request. -/
theorem methodFileName_eq (fileName : PathArray) (packet : HttpPacket) :
    methodFileName fileName packet = .ok ((requestName packet).bytes ++ [0]) := by
  have hsize : maxLengthFullPathFileName = 255 := rfl
  have hwhole : fileName.val.length = 255 := fileName.property
  have hdigits : digitCount (UInt64.ofInt packet.sessionId).toNat ≤ 20 := by
    have hlt := (UInt64.ofInt packet.sessionId).toNat_lt
    rw [digitCount_le_iff (by decide)]
    omega
  have hnumber := @appendNumber_eq fileName.val 0 maxLengthFullPathFileName (by omega) (by omega)
    (UInt64.ofInt packet.sessionId)
  rw [numberText, if_pos (by omega), splice_zero] at hnumber
  obtain ⟨digits, hdigitsText⟩ : ∃ digits, decimal (UInt64.ofInt packet.sessionId).toNat = digits :=
    ⟨_, rfl⟩
  have hlength : digits.length ≤ 20 := by rw [← hdigitsText, length_decimal]; exact hdigits
  rw [hdigitsText] at hnumber
  obtain ⟨second, rest, hsecond, hhost, hsame, hsecondLength⟩ := namePart_eq packet.host (·.take 50)
    digits (fileName.val.drop digits.length) 50 (by simp) (fun bytes => List.length_take_le _ _)
    (by rw [List.length_drop]; omega)
  have htotal : second.length + rest.length = 255 := by
    rw [List.length_append, List.length_append, List.length_drop] at hsame
    omega
  obtain ⟨third, rest', hthird, huri, hsame', hthirdLength⟩ := namePart_eq packet.uri
    (fun uri => uri.drop (uri.length - 100)) second rest 100
    (fun bytes hbytes hnil => hbytes (List.length_eq_zero_iff.mp (by
      have hzero := congrArg List.length hnil
      rw [List.length_drop, List.length_nil] at hzero
      omega)))
    (fun bytes => by rw [List.length_drop]; omega) (by omega)
  have htotal' : third.length + rest'.length = 255 := by
    rw [List.length_append, List.length_append] at hsame'
    omega
  have hname : (requestName packet).bytes = third := by
    rw [bytes_requestName, hthird, hsecond, hdigitsText]
  simp only [methodFileName, hnumber, bind_ok, hhost, huri, hname]
  cases rest' with
  | nil =>
      rw [List.length_nil] at htotal'
      omega
  | cons old rest' => rw [store_append, bind_ok, loadBytes_closed]

end Request

/-! ## Names that carry their type -/

/-- The session keeps a string that is shorter than the array and ends with the extension,
and the comparison stays inside the array. -/
def CarriesType (fileName : PathArray) (directory sessionName fileExtension : CString)
    (contentEncoding : Option ContentEncoding) : Prop :=
  ∃ text path,
    createFileName none fileName directory sessionName fileExtension contentEncoding =
        .ok (text ++ [0], path) ∧
      (0 : UInt8) ∉ text ∧ fileExtension.bytes <:+ text ∧ text.length < maxLengthFullPathFileName

/-- What fits of the dot and the extension completes the end of the name. This needs an
extension that has a dot itself. -/
def CompletedByDot (built fileExtension : List UInt8) : Prop :=
  ∃ front back, fileExtension = front ++ 46 :: back ∧ front <:+ built ∧ back <+: fileExtension ∧
    2 * built.length + 1 + back.length = 254

/-- The extension is not longer than the name, and it is there already, or fits twice behind
the name, or is completed. -/
def ExtensionFits (built fileExtension : List UInt8) : Prop :=
  fileExtension.length ≤ built.length ∧
    (fileExtension <:+ built ∨ 2 * built.length + 1 + fileExtension.length ≤ 254 ∨
      CompletedByDot built fileExtension)

/-- A text that ends with a longer one than what was added ends with a part of the first. -/
theorem suffix_append_iff {built rest text : List UInt8} (long : rest.length ≤ text.length) :
    text <:+ built ++ rest ↔ ∃ front, text = front ++ rest ∧ front <:+ built := by
  constructor
  · rintro ⟨before, hbefore⟩
    rcases List.append_eq_append_iff.mp hbefore with ⟨more, hbuilt, htext⟩ | ⟨more, -, hrest⟩
    · exact ⟨more, htext, before, hbuilt.symm⟩
    · have hlength := congrArg List.length hrest
      rw [List.length_append] at hlength
      have hnone : more = [] := List.length_eq_zero_iff.mp (by omega)
      rw [hnone, List.nil_append] at hrest
      exact ⟨[], hrest.symm, List.nil_suffix⟩
  · rintro ⟨front, rfl, before, rfl⟩
    exact ⟨before, (List.append_assoc _ _ _).symm⟩

/-- A name that lacks its extension gets it when there is room for it behind the name. -/
theorem suffix_added_iff {built fileExtension : List UInt8} (missing : ¬ fileExtension <:+ built) :
    fileExtension <:+ built ++ (46 :: fileExtension).take (254 - 2 * built.length) ↔
      2 * built.length + 1 + fileExtension.length ≤ 254 ∨ CompletedByDot built fileExtension := by
  by_cases hfits : 2 * built.length + 1 + fileExtension.length ≤ 254
  · refine iff_of_true ?_ (.inl hfits)
    rw [List.take_of_length_le (by rw [List.length_cons]; omega)]
    exact ⟨built ++ [46], by simp⟩
  · rw [or_iff_right hfits]
    by_cases hroom : 254 ≤ 2 * built.length
    · have hnone : 254 - 2 * built.length = 0 := by omega
      rw [hnone, List.take_zero, List.append_nil]
      refine iff_of_false missing ?_
      rintro ⟨front, back, -, -, -, hlength⟩
      omega
    · -- the dot and some characters of the extension are added
      obtain ⟨count, hcount⟩ : ∃ count, 254 - 2 * built.length = count + 1 :=
        ⟨254 - 2 * built.length - 1, by omega⟩
      have htake : (fileExtension.take count).length = count := by
        rw [List.length_take]
        omega
      rw [hcount, List.take_succ_cons, suffix_append_iff (by rw [List.length_cons, htake]; omega)]
      constructor
      · rintro ⟨front, hfront, hbuilt⟩
        exact ⟨front, _, hfront, hbuilt, List.take_prefix _ _, by rw [htake]; omega⟩
      · rintro ⟨front, back, hfront, hbuilt, hback, hlength⟩
        have hsame : back = fileExtension.take count := by
          rw [List.prefix_iff_eq_take.mp hback]
          congr 1
          omega
        exact ⟨front, by rw [← hsame]; exact hfront, hbuilt⟩

/-- The name that a session keeps carries its type exactly when the extension fits. -/
theorem carriesType_iff (fileName : PathArray) (directory sessionName fileExtension : CString)
    (contentEncoding : Option ContentEncoding) :
    CarriesType fileName directory sessionName fileExtension contentEncoding ↔
      ExtensionFits (builtName directory sessionName) fileExtension.bytes := by
  have hshort := length_builtName_le directory sessionName
  have hplain := plain_builtName directory sessionName
  unfold CarriesType ExtensionFits
  rw [createFileName_eq]
  generalize builtName directory sessionName = built at hshort hplain ⊢
  by_cases hlong : built.length < fileExtension.bytes.length
  · refine iff_of_false ?_ fun hfits => by omega
    rintro ⟨text, path, hrun, -⟩
    rw [needsExtension, if_pos hlong] at hrun
    cases hrun
  · rw [and_iff_right (Nat.le_of_not_lt hlong), needsExtension, if_neg hlong]
    have hkept : ∀ needs, (∃ text path,
        (Except.ok (storedName needs built fileExtension.bytes ++ [0],
          openedName (storedName needs built fileExtension.bytes) contentEncoding) :
            Except Stop (List UInt8 × List UInt8)) = .ok (text ++ [0], path) ∧
          (0 : UInt8) ∉ text ∧ fileExtension.bytes <:+ text ∧
            text.length < maxLengthFullPathFileName) ↔
        fileExtension.bytes <:+ storedName needs built fileExtension.bytes := by
      intro needs
      constructor
      · rintro ⟨text, path, hrun, -, hsuffix, -⟩
        cases (List.append_inj' (congrArg Prod.fst (Except.ok.inj hrun)) rfl).1
        exact hsuffix
      · intro hsuffix
        exact ⟨_, _, rfl, plain_storedName hplain needs fileExtension, hsuffix,
          Nat.lt_succ_of_le (length_storedName_le hshort needs fileExtension.bytes)⟩
    rw [hkept]
    by_cases hthere : fileExtension.bytes <:+ built
    · have hequal : (fileExtension.bytes !=
          built.drop (built.length - fileExtension.bytes.length)) = false :=
        bne_eq_false_iff_eq.mpr (List.suffix_iff_eq_drop.mp hthere)
      rw [hequal]
      exact iff_of_true hthere (.inl hthere)
    · have hdiffers : (fileExtension.bytes !=
          built.drop (built.length - fileExtension.bytes.length)) = true :=
        bne_iff_ne.mpr fun hequal => hthere (List.suffix_iff_eq_drop.mpr hequal)
      rw [hdiffers, storedName, if_pos rfl, or_iff_right hthere]
      exact suffix_added_iff hthere

/-- An extension without a dot is never completed. -/
theorem extensionFits_iff_of_dotless {built fileExtension : List UInt8}
    (dotless : (46 : UInt8) ∉ fileExtension) :
    ExtensionFits built fileExtension ↔ fileExtension.length ≤ built.length ∧
      (fileExtension <:+ built ∨ 2 * built.length + 1 + fileExtension.length ≤ 254) := by
  have hnever : ¬ CompletedByDot built fileExtension := by
    rintro ⟨front, back, hsplit, -⟩
    exact dotless (by rw [hsplit]; simp)
  rw [ExtensionFits, or_iff_left hnever]

/-- The name of a request with a long URI. -/
def longName : CString := .of (bytesOf "1-www.example.com-" ++ List.replicate 100 97)

/-- The array before it is written. -/
def emptyArray : PathArray := ⟨List.replicate maxLengthFullPathFileName 0, List.length_replicate⟩

/-- A page with a long URI is kept without `.html`. -/
theorem not_carriesType_longName :
    createFileName none emptyArray (.ofText "/opt/mmt/") longName (.ofText "html") none =
        .ok (bytesOf "/opt/mmt/mmt-1-www.example.com-" ++ List.replicate 100 97 ++ [0],
          bytesOf "/opt/mmt/mmt-1-www.example.com-" ++ List.replicate 100 97) ∧
      ¬ CarriesType emptyArray (.ofText "/opt/mmt/") longName (.ofText "html") none := by
  have hrun : createFileName none emptyArray (.ofText "/opt/mmt/") longName (.ofText "html") none =
      .ok (bytesOf "/opt/mmt/mmt-1-www.example.com-" ++ List.replicate 100 97 ++ [0],
        bytesOf "/opt/mmt/mmt-1-www.example.com-" ++ List.replicate 100 97) := by
    decide +kernel
  refine ⟨hrun, ?_⟩
  rintro ⟨text, path, hother, -, hsuffix, -⟩
  rw [hrun] at hother
  have htext := (List.append_inj' (congrArg Prod.fst (Except.ok.inj hother)) rfl).1
  rw [← htext] at hsuffix
  exact absurd hsuffix (by decide +kernel)

end MmtProbe.Dpi
