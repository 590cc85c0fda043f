/-
# Reading any license file

The generator writes well-formed files, but the reader has to cope with any file that
carries the right name.  Here `_decode_license_file` also copies its numbers through the
variable `string` of ten bytes, in checked memory, and is given arbitrary bytes.

It stays inside its buffers unless the file is too long for them or the number of the
addresses is negative, which `atoi` accepts and the test of the length lets pass.
-/

import MmtProbe.License.DecodeLicense

namespace MmtProbe.License

open MmtProbe.Math

/-! ## The function with its small buffer -/

/-- What `strncpy` writes: behind a NUL the rest is filled with NULs. -/
def strncpyBytes (source : List UInt8) : List UInt8 :=
  cstring source ++ List.replicate (source.length - (cstring source).length) 0

/-- A number is copied to `string`, closed by a NUL and read: `string` afterwards and the
number. -/
def stringNumber (string key : List UInt8) (position width : Nat) :
    Except Fault (List UInt8 × Int) := do
  let source ← loadBytes key position width
  let string ← storeBytes string 0 (strncpyBytes source)
  let string ← store string width 0
  let text ← loadString string 0
  return (string, atoi text)

/-- The second half of `_decode_license_file`. -/
def decodeThrough (string key : List UInt8) (len : Nat) (li : LicenseContent) :
    Except Fault (LicenseReturn × LicenseContent) :=
  if len < 11 then .ok (.notConform, li)
  else do
    let (string, year) ← stringNumber string key 0 4
    let (string, month) ← stringNumber string key 4 2
    let (string, day) ← stringNumber string key 6 2
    let (_, macCount) ← stringNumber string key 8 3
    let li := { li with year := year, month := month, day := day, macCount := macCount }
    let macLen := macCount * 12
    if (len : Int) - 11 < macLen then .ok (.modified, li)
    else do
      let (macs, sum) ← copyLoop key li.macAddresses 0 0 macLen.toNat
      let li := { li with macAddresses := macs }
      let sumLicense := sum + (year * month * day + macCount)
      let text ← (if 11 + macLen < 0 then .error (.load 0) else
        loadString key (11 + macLen).toNat : Except Fault (List UInt8))
      if atoi text ≠ sumLicense then .ok (.modified, li) else .ok (.conform, li)

/-- `_decode_license_file` on a file that exists, with its two uninitialised variables. -/
def decodeAnyFile (string key : List UInt8) (li : LicenseContent) (file : List UInt8) :
    Except Fault (LicenseReturn × LicenseContent) := do
  let (key, len) ← decryptLoop key 0 file
  let key ← store key len 0
  decodeThrough string key len li

/-- The size of `string`. -/
def stringSize : Nat := 10

/-! ## The small buffer -/

variable {string key : List UInt8} {position width : Nat}

theorem length_strncpyBytes (source : List UInt8) :
    (strncpyBytes source).length = source.length := by
  have hle := length_cstring_le source
  rw [strncpyBytes, List.length_append, List.length_replicate]
  omega

theorem cstring_strncpyBytes (source : List UInt8) :
    cstring (strncpyBytes source) = cstring source := by
  have hplain : ∀ byte ∈ cstring source, (byte != 0) = true := by
    intro byte hbyte
    exact List.mem_takeWhile_imp (p := (· != 0)) hbyte
  unfold strncpyBytes
  generalize source.length - (cstring source).length = count
  rw [cstring, List.takeWhile_append_of_pos hplain]
  cases count <;> simp [List.replicate_succ]

/-- The small buffer is large enough for each number, and the number is the one in the
text. -/
theorem stringNumber_eq (buffer : string.length = stringSize) (small : width < stringSize)
    {number : Int} (read : numberAt key position width = .ok number) :
    ∃ after, after.length = stringSize ∧
      stringNumber string key position width = .ok (after, number) := by
  rw [numberAt, map_eq_ok_iff] at read
  rcases read with ⟨source, hsource, rfl⟩
  have hwidth : source.length = width := by
    unfold loadBytes at hsource
    split_ifs at hsource with hinside
    cases hsource
    rw [List.length_take, List.length_drop]
    omega
  have hlength : (strncpyBytes source).length = width := by rw [length_strncpyBytes, hwidth]
  have hstore : storeBytes string 0 (strncpyBytes source) =
      .ok (splice string 0 (strncpyBytes source)) := storeBytes_eq_splice (by omega)
  have hclose := @store_splice_zero string (strncpyBytes source) (by omega) 0
  rw [hlength] at hclose
  have hread : loadString (splice string 0 (strncpyBytes source ++ [0])) 0 =
      .ok (cstring source) := by
    rw [loadString_splice_cstring (by omega), cstring_strncpyBytes]
  refine ⟨splice string 0 (strncpyBytes source ++ [0]), ?_, ?_⟩
  · rw [length_splice, buffer]
    rw [List.length_append, List.length_singleton]
    omega
  · rw [stringNumber, hsource, bind_ok, hstore, bind_ok, hclose, bind_ok, hread]
    rfl

/-- With the small buffer the function does what it does without. -/
theorem decodeThrough_eq (buffer : string.length = stringSize) (long : 11 ≤ key.length) (len : Nat)
    (li : LicenseContent) : decodeThrough string key len li = decodeContent key len li := by
  have hread : ∀ position width, position + width ≤ 11 →
      ∃ number, numberAt key position width = .ok number := by
    intro position width hinside
    rw [numberAt, loadBytes, if_pos (by omega)]
    exact ⟨_, rfl⟩
  rcases hread 0 4 (by decide) with ⟨year, hyear⟩
  rcases hread 4 2 (by decide) with ⟨month, hmonth⟩
  rcases hread 6 2 (by decide) with ⟨day, hday⟩
  rcases hread 8 3 (by decide) with ⟨count, hcount⟩
  rcases stringNumber_eq buffer (by decide) hyear with ⟨first, hfirst, hyear'⟩
  rcases stringNumber_eq hfirst (by decide) hmonth with ⟨second, hsecond, hmonth'⟩
  rcases stringNumber_eq hsecond (by decide) hday with ⟨third, hthird, hday'⟩
  rcases stringNumber_eq hthird (by decide) hcount with ⟨fourth, -, hcount'⟩
  unfold decodeThrough decodeContent
  simp only [hyear', hmonth', hday', hcount', hyear, hmonth, hday, hcount, bind_ok]

/-! ## The parts of any text -/

/-- The decoded characters of a file. -/
def decodedText (file : List UInt8) : List UInt8 := file.map (· + 29)

/-- The number at a position of the text. -/
def numberIn (text : List UInt8) (position width : Nat) : Int :=
  atoi (cstring ((text.drop position).take width))

/-- The number of addresses that a file gives. -/
def macCountOf (file : List UInt8) : Int := numberIn (decodedText file) 8 3

/-- The sum that is compared with the end of the text, for a number of addresses. -/
def recomputedSum (text : List UInt8) (count : Nat) : Int :=
  (((text.drop 11).take (count * 12)).map signedChar).sum +
    (numberIn text 0 4 * numberIn text 4 2 * numberIn text 6 2 + count)

/-- The number behind the addresses. -/
def storedSum (text : List UInt8) (count : Nat) : Int :=
  atoi (cstring (text.drop (11 + count * 12)))

theorem numberAt_text {text : List UInt8} (inside : position + width ≤ text.length)
    (rest : List UInt8) :
    numberAt (text ++ rest) position width = .ok (numberIn text position width) := by
  have hdrop : (text ++ rest).drop position = text.drop position ++ rest :=
    List.drop_append_of_le_length (by omega)
  rw [numberAt, loadBytes, if_pos (by rw [List.length_append]; omega), hdrop,
    List.take_append_of_le_length (by rw [List.length_drop]; omega)]
  rfl

theorem copyLoop_text {text : List UInt8} {count : Nat} (inside : 11 + count ≤ text.length)
    (macs : List UInt8) (room : count ≤ macs.length) (rest : List UInt8) :
    copyLoop (text ++ rest) macs 0 0 count =
      .ok (splice macs 0 ((text.drop 11).take count),
        (((text.drop 11).take count).map signedChar).sum) := by
  have hheader : (text.take 11).length = 11 := by
    rw [List.length_take]
    omega
  have hlength : ((text.drop 11).take count).length = count := by
    rw [List.length_take, List.length_drop]
    omega
  have hsplit : text ++ rest =
      text.take 11 ++
        ([] ++ ((text.drop 11).take count ++ ((text.drop 11).drop count ++ rest))) := by
    rw [List.nil_append, ← List.append_assoc ((text.drop 11).take count), List.take_append_drop,
      ← List.append_assoc, List.take_append_drop]
  have hcopy := copyLoop_eq hheader macs [] ((text.drop 11).take count)
    ((text.drop 11).drop count ++ rest) 0 (by rw [hlength, List.length_nil]; omega)
  rw [← hsplit, hlength, splice_nil, List.length_nil, List.nil_append, Int.zero_add] at hcopy
  exact hcopy

theorem loadString_text {text : List UInt8} (inside : position ≤ text.length) (rest : List UInt8) :
    loadString (text ++ 0 :: rest) position = .ok (cstring (text.drop position)) := by
  have hread := loadString_append (text.take position) (text.drop position) rest
  rw [← List.append_assoc, List.take_append_drop, List.length_take, Nat.min_eq_left inside] at hread
  exact hread

/-! ## The three ways through the function -/

section Ways

variable {text : List UInt8}

/-- The numbers of the text are stored first. -/
theorem decodeContent_text (long : 11 ≤ text.length) (li : LicenseContent) (rest : List UInt8) :
    decodeContent (text ++ 0 :: rest) text.length li =
      (let count := numberIn text 8 3
      let numbers : LicenseContent :=
        ⟨numberIn text 0 4, numberIn text 4 2, numberIn text 6 2, count, li.macAddresses⟩
      if (text.length : Int) - 11 < count * 12 then .ok (.modified, numbers)
      else do
        let (macs, sum) ← copyLoop (text ++ 0 :: rest) li.macAddresses 0 0 (count * 12).toNat
        let stored ← (if 11 + count * 12 < 0 then .error (.load 0) else
          loadString (text ++ 0 :: rest) (11 + count * 12).toNat : Except Fault (List UInt8))
        if atoi stored ≠
          sum + (numberIn text 0 4 * numberIn text 4 2 * numberIn text 6 2 + count) then
          .ok (.modified, { numbers with macAddresses := macs })
        else .ok (.conform, { numbers with macAddresses := macs })) := by
  have hread : ∀ position width, position + width ≤ 11 →
      numberAt (text ++ 0 :: rest) position width = .ok (numberIn text position width) :=
    fun position width hinside => numberAt_text (by omega) _
  unfold decodeContent
  rw [if_neg (by omega), hread 0 4 (by decide), hread 4 2 (by decide), hread 6 2 (by decide),
    hread 8 3 (by decide)]
  rfl

/-- A negative number of addresses passes the test of the length, and the checksum is
looked for before the buffer. -/
theorem decodeContent_of_neg (long : 11 ≤ text.length) (negative : numberIn text 8 3 < 0)
    (li : LicenseContent) (rest : List UInt8) :
    decodeContent (text ++ 0 :: rest) text.length li = .error (.load 0) := by
  have hnone : (numberIn text 8 3 * 12).toNat = 0 := by omega
  rw [decodeContent_text long]
  simp only [hnone, copyLoop]
  rw [if_neg (by omega), bind_ok]
  simp only
  rw [if_pos (by omega)]
  rfl

/-- More addresses than the text can hold. -/
theorem decodeContent_of_lt (long : 11 ≤ text.length)
    (missing : (text.length : Int) - 11 < numberIn text 8 3 * 12) (li : LicenseContent)
    (rest : List UInt8) : ∃ content,
      decodeContent (text ++ 0 :: rest) text.length li = .ok (.modified, content) := by
  rw [decodeContent_text long]
  simp only [if_pos missing]
  exact ⟨_, rfl⟩

/-- The addresses are there, and the checksum decides. -/
theorem decodeContent_of_le {count : Nat} (given : numberIn text 8 3 = count)
    (present : 11 + count * 12 ≤ text.length) (li : LicenseContent)
    (room : text.length ≤ li.macAddresses.length) (rest : List UInt8) :
    ∃ content : LicenseContent, content.macCount = count ∧
      decodeContent (text ++ 0 :: rest) text.length li =
        .ok (if storedSum text count = recomputedSum text count then .conform else .modified,
          content) := by
  have hmacLen : ((count : Int) * 12).toNat = count * 12 := by omega
  have hposition : (11 + (count : Int) * 12).toNat = 11 + count * 12 := by omega
  have hcopy := copyLoop_text present li.macAddresses (by omega) (0 :: rest)
  have hend := loadString_text present rest
  rw [decodeContent_text (by omega)]
  simp only [given, hmacLen, hposition]
  rw [if_neg (by omega), hcopy, bind_ok]
  simp only
  rw [if_neg (by omega), hend, bind_ok]
  by_cases hsum : storedSum text count = recomputedSum text count
  · rw [if_pos hsum]
    refine ⟨_, rfl, if_neg (not_not.mpr hsum)⟩
  · rw [if_neg hsum]
    exact ⟨_, rfl, if_pos hsum⟩

end Ways

/-! ## Any file -/

variable {li : LicenseContent} {file : List UInt8}

/-- The function stays inside its buffers, and a file that it takes as conform has a
number of addresses that is not negative, all their characters and the right checksum. -/
def ReadsSafely (string key : List UInt8) (li : LicenseContent) (file : List UInt8) : Prop :=
  ∃ returned content, decodeAnyFile string key li file = .ok (returned, content) ∧
    (returned = .conform → ∃ count : Nat, content.macCount = count ∧
      11 + count * 12 ≤ file.length ∧
      storedSum (decodedText file) count = recomputedSum (decodedText file) count)

/-- A file that is shorter than the buffer stands in it as a text. -/
theorem decodeAnyFile_of_lt (stringBuffer : string.length = stringSize)
    (keyBuffer : key.length = keySize) (li : LicenseContent) (short : file.length < keySize) :
    ∃ rest, decodeAnyFile string key li file =
      decodeContent (decodedText file ++ 0 :: rest) (decodedText file).length li := by
  have hsize : keySize = 1000 := rfl
  have hlength : (decodedText file).length = file.length := List.length_map _
  have hloop := @decryptLoop_eq key [] file (by rw [List.length_nil]; omega)
  rw [splice_nil, List.length_nil, List.nil_append, Nat.zero_add] at hloop
  change _ = Except.ok (splice key 0 (decodedText file), _) at hloop
  have hclose := @store_splice_zero key (decodedText file) (by omega) 0
  rw [hlength] at hclose
  refine ⟨key.drop (decodedText file ++ [0]).length, ?_⟩
  rw [decodeAnyFile, hloop, bind_ok]
  simp only
  rw [hclose, bind_ok, splice_zero, decodeThrough_eq stringBuffer, hlength, List.append_assoc,
    List.singleton_append]
  simp only [List.length_append, List.length_drop, List.length_singleton]
  omega

theorem decodeAnyFile_of_ge (string : List UInt8) (li : LicenseContent)
    (long : key.length ≤ file.length) :
    ∃ fault, decodeAnyFile string key li file = .error fault :=
  decryptLoop_of_ge long fun key len => decodeThrough string key len li

/-- The reader is safe exactly on the files that are shorter than its buffer and do not
give a negative number of addresses. -/
theorem readsSafely_iff (string key : List UInt8) (li : LicenseContent) (file : List UInt8)
    (stringBuffer : string.length = stringSize) (keyBuffer : key.length = keySize)
    (macBuffer : li.macAddresses.length = keySize) :
    ReadsSafely string key li file ↔
      file.length < keySize ∧ (file.length < 11 ∨ 0 ≤ macCountOf file) := by
  have hlength : (decodedText file).length = file.length := List.length_map _
  by_cases hshort : file.length < keySize
  · rw [and_iff_right hshort]
    rcases decodeAnyFile_of_lt stringBuffer keyBuffer li hshort with ⟨rest, hrun⟩
    unfold ReadsSafely
    rw [hrun]
    by_cases hfew : file.length < 11
    · refine iff_of_true ⟨.notConform, li, ?_, fun hret => by cases hret⟩ (.inl hfew)
      rw [decodeContent, if_pos (by omega)]
    · rw [or_iff_right hfew]
      constructor
      · rintro ⟨returned, content, hok, -⟩
        by_contra hneg
        rw [decodeContent_of_neg (by omega) (Int.not_le.mp hneg)] at hok
        cases hok
      · intro hcount
        by_cases hmissing : (file.length : Int) - 11 < macCountOf file * 12
        · have hlong : 11 ≤ (decodedText file).length := by omega
          rw [← hlength] at hmissing
          rcases decodeContent_of_lt hlong hmissing li rest with ⟨content, hmodified⟩
          exact ⟨.modified, content, hmodified, fun hret => by cases hret⟩
        · obtain ⟨count, hgiven⟩ := Int.eq_ofNat_of_zero_le hcount
          rw [hgiven] at hmissing
          rcases decodeContent_of_le hgiven (by omega) li (by omega) rest with
            ⟨content, hmacs, hdecided⟩
          refine ⟨_, content, hdecided, fun hconform => ⟨count, hmacs, by omega, ?_⟩⟩
          split_ifs at hconform with hsum
          exact hsum
  · refine iff_of_false ?_ fun hboth => hshort hboth.1
    rintro ⟨returned, content, hok, -⟩
    have hlong : key.length ≤ file.length := by omega
    rcases decodeAnyFile_of_ge string li hlong with ⟨fault, hfault⟩
    rw [hfault] at hok
    cases hok

/-- The file for two addresses, with the checksum 3278. -/
def twoAddresses : List UInt8 :=
  (bytesOf "202501010020000000000000000000000ab3278").map (· - 29)

/-- The file for the text `20250101-01`. -/
def negativeCount : List UInt8 := (bytesOf "20250101-01").map (· - 29)

theorem readsSafely_iff_twoAddresses :
    (List.replicate stringSize 0).length = stringSize ∧ emptyKey.length = keySize ∧
      emptyContent.macAddresses.length = keySize ∧
      (decodeAnyFile (List.replicate stringSize 0) emptyKey emptyContent twoAddresses).map
          (fun result => (result.1, result.2.macCount)) = .ok (.conform, 2) ∧
      ReadsSafely (List.replicate stringSize 0) emptyKey emptyContent twoAddresses := by
  have hstring : (List.replicate stringSize (0 : UInt8)).length = stringSize :=
    List.length_replicate
  have hkey : emptyKey.length = keySize := List.length_replicate
  have hmacs : emptyContent.macAddresses.length = keySize := List.length_replicate
  refine ⟨hstring, hkey, hmacs, by decide +kernel, ?_⟩
  exact (readsSafely_iff _ _ _ twoAddresses hstring hkey hmacs).mpr
    ⟨by decide +kernel, .inr (by decide +kernel)⟩

/-- A file of eleven bytes lets the function read before its buffer. -/
theorem not_readsSafely :
    decodeAnyFile (List.replicate stringSize 0) emptyKey emptyContent negativeCount =
        .error (.load 0) ∧
      ¬ ReadsSafely (List.replicate stringSize 0) emptyKey emptyContent negativeCount := by
  have hfault : decodeAnyFile (List.replicate stringSize 0) emptyKey emptyContent negativeCount =
      .error (.load 0) := by decide +kernel
  refine ⟨hfault, ?_⟩
  rintro ⟨returned, content, hok, -⟩
  rw [hfault] at hok
  cases hok

end MmtProbe.License
