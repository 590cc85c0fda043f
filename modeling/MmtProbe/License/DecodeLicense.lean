/-
# Reading a license key

`_decode_license_file` undoes what the generator has done: it shifts the characters of
the file back into a buffer, cuts the text at the fixed positions of the numbers, copies
the characters of the addresses and compares the checksum.

Its two buffers have 1000 bytes each, where that of the generator has 3000, and no index
into them is checked.  The generator and the reader agree up to 81 addresses.
-/

import MmtProbe.License.KeyGenerator

namespace MmtProbe.License

open MmtProbe.Math

/-! ## The function -/

/-- `license_content_t`; the addresses are the buffer behind the pointer. -/
structure LicenseContent where
  year : Int
  month : Int
  day : Int
  macCount : Int
  macAddresses : List UInt8
deriving DecidableEq, Repr

/-- What the function returns. -/
inductive LicenseReturn where
  /-- 0 -/
  | conform
  /-- 2: the file is not conform. -/
  | notConform
  /-- `MMT_LICENSE_MODIFIED` -/
  | modified
  /-- `MMT_LICENSE_KEY_DOES_NOT_EXIST` -/
  | keyDoesNotExist
deriving DecidableEq, Repr

/-- Read the file into the buffer. -/
def decryptLoop (key : List UInt8) (len : Nat) : List UInt8 → Except Fault (List UInt8 × Nat)
  | [] => .ok (key, len)
  | ch :: file => do
      let key ← store key len (ch + (8 * 4 - 3))
      decryptLoop key (len + 1) file

/-- `strncpy` and `atoi` at a position. -/
def numberAt (key : List UInt8) (position width : Nat) : Except Fault Int :=
  (loadBytes key position width).map fun string => atoi (cstring string)

/-- Copy the addresses and add up their characters. -/
def copyLoop (key : List UInt8) (macs : List UInt8) (sum : Int) (i : Nat) :
    Nat → Except Fault (List UInt8 × Int)
  | 0 => .ok (macs, sum)
  | left + 1 => do
      let ch ← load key (i + 11)
      let macs ← store macs i ch
      copyLoop key macs (sum + signedChar ch) (i + 1) left

/-- The second half of `_decode_license_file`: the text is in the buffer. -/
def decodeContent (key : List UInt8) (len : Nat) (li : LicenseContent) :
    Except Fault (LicenseReturn × LicenseContent) :=
  if len < 11 then .ok (.notConform, li)
  else do
    let year ← numberAt key 0 4
    let month ← numberAt key 4 2
    let day ← numberAt key 6 2
    let macCount ← numberAt key 8 3
    let li := { li with year := year, month := month, day := day, macCount := macCount }
    let macLen := macCount * 12
    if (len : Int) - 11 < macLen then .ok (.modified, li)
    else do
      let (macs, sum) ← copyLoop key li.macAddresses 0 0 macLen.toNat
      let li := { li with macAddresses := macs }
      let sumLicense := sum + (year * month * day + macCount)
      let text ← (if 11 + macLen < 0 then .error (.load 0) else
        loadString key (11 + macLen).toNat : Except Fault (List UInt8))
      if atoi text ≠ sumLicense then .ok (.modified, li) else .ok (.conform, li)

/-- `_decode_license_file`, with the uninitialised buffer `license_decrypt_key`. -/
def decodeLicenseFile (key : List UInt8) (li : LicenseContent) (file : Option (List UInt8)) :
    Except Fault (LicenseReturn × LicenseContent) :=
  match file with
  | none => .ok (.keyDoesNotExist, li)
  | some file => do
      let (key, len) ← decryptLoop key 0 file
      let key ← store key len 0
      decodeContent key len li

/-- The size of `license_decrypt_key` and of the buffer for the addresses. -/
def keySize : Nat := 1000

/-! ## The buffer -/

variable {key : List UInt8} {len : Nat}

theorem decryptLoop_eq (written file : List UInt8)
    (fits : written.length + file.length ≤ key.length) :
    decryptLoop (splice key 0 written) written.length file =
      .ok (splice key 0 (written ++ file.map (· + 29)), written.length + file.length) := by
  induction file generalizing written with
  | nil => simp [decryptLoop]
  | cons ch file ih =>
      rw [List.length_cons] at fits
      have hnext := ih (written ++ [ch + 29])
        (by rw [List.length_append, List.length_singleton]; omega)
      rw [List.length_append, List.length_singleton, List.append_assoc] at hnext
      rw [decryptLoop]
      change store _ _ (ch + 29) >>= _ = _
      rw [store_splice_zero written (by omega), bind_ok, hnext, List.length_cons,
        List.map_cons, List.singleton_append]
      congr 2
      omega

/-- A file that is longer than the buffer is written behind it. -/
theorem decryptLoop_of_lt {file : List UInt8} (long : key.length < len + file.length)
    (inside : len ≤ key.length) : ∃ fault, decryptLoop key len file = .error fault := by
  induction file generalizing key len with
  | nil =>
      rw [List.length_nil] at long
      omega
  | cons ch file ih =>
      rw [decryptLoop]
      by_cases hroom : len < key.length
      · rw [store, if_pos hroom, bind_ok]
        apply ih
        · rw [List.length_set]
          rw [List.length_cons] at long
          omega
        · rw [List.length_set]
          omega
      · rw [store, if_neg hroom]
        exact ⟨_, rfl⟩

/-- The end of the text is written behind the buffer as well when the file fills it. -/
theorem decryptLoop_of_ge {α : Type} {file : List UInt8} (long : key.length ≤ file.length)
    (next : List UInt8 → Nat → Except Fault α) :
    ∃ fault, (do
      let (key, len) ← decryptLoop key 0 file
      let key ← store key len 0
      next key len) = .error fault := by
  by_cases hmore : key.length < file.length
  · have hlong : key.length < 0 + file.length := by omega
    rcases decryptLoop_of_lt hlong (Nat.zero_le _) with ⟨fault, hfault⟩
    rw [hfault]
    exact ⟨fault, rfl⟩
  · have hloop := decryptLoop_eq [] file (by simpa using Nat.le_of_not_lt hmore)
    rw [splice_nil, List.length_nil, List.nil_append, Nat.zero_add] at hloop
    have hlength : (splice key 0 (file.map (· + 29))).length = key.length := by
      apply length_splice
      rw [List.length_map]
      omega
    rw [hloop, bind_ok]
    simp only
    rw [store, if_neg (by omega)]
    exact ⟨_, rfl⟩

theorem decodeLicenseFile_of_ge {file : List UInt8} (li : LicenseContent)
    (long : key.length ≤ file.length) :
    ∃ fault, decodeLicenseFile key li (some file) = .error fault :=
  decryptLoop_of_ge long fun key len => decodeContent key len li

/-! ## The parts of the text -/

theorem numberAt_fixed {width n : Nat} (before after : List UInt8) (fits : n < 10 ^ width)
    (some_digit : 0 < width) :
    numberAt (before ++ (fixed width n ++ after)) before.length width = .ok n := by
  have hload := loadBytes_append before (fixed width n) after
  rw [length_fixed] at hload
  rw [numberAt, hload]
  change Except.ok (atoi (cstring (fixed width n))) = _
  rw [cstring_eq_self (notMem_fixed (by decide) width n), atoi_fixed_self fits some_digit]

/-- The loop copies the characters behind the numbers. -/
theorem copyLoop_eq {front : List UInt8} (header : front.length = 11)
    (buffer written chars after : List UInt8) (sum : Int)
    (fits : written.length + chars.length ≤ buffer.length) :
    copyLoop (front ++ (written ++ (chars ++ after))) (splice buffer 0 written) sum written.length
        chars.length =
      .ok (splice buffer 0 (written ++ chars), sum + (chars.map signedChar).sum) := by
  induction chars generalizing written sum with
  | nil => simp [copyLoop]
  | cons ch chars ih =>
      rw [List.length_cons] at fits
      have hload : load (front ++ (written ++ (ch :: chars ++ after))) (written.length + 11) =
          .ok ch := by
        have hplace := load_append (front ++ written) (chars ++ after) ch
        rw [List.length_append, header, List.append_assoc, Nat.add_comm 11] at hplace
        exact hplace
      have hnext := ih (written ++ [ch]) (sum + signedChar ch)
        (by rw [List.length_append, List.length_singleton]; omega)
      rw [List.length_append, List.length_singleton] at hnext
      simp only [List.append_assoc, List.singleton_append] at hnext
      rw [List.length_cons, copyLoop, hload, bind_ok, store_splice_zero written (by omega), bind_ok,
        List.cons_append, hnext, List.map_cons, List.sum_cons, Int.add_assoc]

/-! ## Agreement -/

variable {macs : List MacAddress} {date : ExpiryDate}

/-- The text of a license with its whole checksum. -/
theorem licenseText_eq (few : macs.length ≤ 81) (date : ExpiryDate) :
    digitCount (licenseSum macs date) ≤ 9 ∧
      licenseText macs date = fixed 4 date.year ++ fixed 2 date.month ++ fixed 2 date.day ++
        fixed 3 macs.length ++ macChars macs ++ decimal (licenseSum macs date) := by
  have hproduct := date.product_lt
  have hsum := (sum_macChars_le macs).2
  have hdigits : digitCount (licenseSum macs date) ≤ 9 := by
    rw [digitCount_le_iff (by decide), licenseSum]
    omega
  refine ⟨hdigits, ?_⟩
  rw [licenseText, List.take_of_length_le]
  rw [length_decimal]
  omega

/-- The characters of the addresses count in the reader what they count in the
generator. -/
theorem sum_signedChar (macs : List MacAddress) :
    ((macChars macs).map signedChar).sum = (((macChars macs).map UInt8.toNat).sum : Int) := by
  have halnum : ∀ ch ∈ macChars macs, isAlnum ch = true := fun ch => isAlnum_of_mem_macChars
  generalize macChars macs = chars at halnum
  induction chars with
  | nil => rfl
  | cons ch chars ih =>
      rw [List.map_cons, List.sum_cons, List.map_cons, List.sum_cons,
        ih fun c hc => halnum c (List.mem_cons_of_mem ch hc),
        signedChar_of_isAlnum (halnum ch (List.mem_cons_self ..)), Int.natCast_add]

/-- A text whose parts are read and whose checksum is right is conform. -/
theorem decodeContent_of_reads {memory text copied : List UInt8} {n : Nat}
    {year month day sum : Int}
    (li : LicenseContent) (long : 11 + n * 12 ≤ len) (readYear : numberAt memory 0 4 = .ok year)
    (readMonth : numberAt memory 4 2 = .ok month) (readDay : numberAt memory 6 2 = .ok day)
    (readCount : numberAt memory 8 3 = .ok (n : Int))
    (copies : copyLoop memory li.macAddresses 0 0 (n * 12) = .ok (copied, sum))
    (readSum : loadString memory (11 + n * 12) = .ok text)
    (right : atoi text = sum + (year * month * day + n)) :
    decodeContent memory len li = .ok (.conform, ⟨year, month, day, n, copied⟩) := by
  have hmacLen : ((n : Int) * 12).toNat = n * 12 := by omega
  have hposition : (11 + (n : Int) * 12).toNat = 11 + n * 12 := by omega
  unfold decodeContent
  rw [if_neg (by omega), readYear, bind_ok, readMonth, bind_ok, readDay, bind_ok, readCount,
    bind_ok]
  simp only [hmacLen, hposition]
  rw [if_neg (by omega), copies, bind_ok, if_neg (by omega), readSum, bind_ok,
    if_neg (not_not.mpr right)]

/-- The text of a license of at most 81 addresses is read as it was written. -/
theorem decodeContent_licenseText (few : macs.length ≤ 81) (li : LicenseContent)
    (room : macs.length * 12 ≤ li.macAddresses.length) (rest : List UInt8) :
    decodeContent (licenseText macs date ++ 0 :: rest) (licenseText macs date).length li =
      .ok (.conform, ⟨date.year, date.month, date.day, macs.length,
        splice li.macAddresses 0 (macChars macs)⟩) := by
  rcases licenseText_eq few date with ⟨hdigits, htext⟩
  have hheader : (fixed 4 date.year ++ fixed 2 date.month ++ fixed 2 date.day ++
      fixed 3 macs.length).length = 11 := by simp
  have hfits : ([] : List UInt8).length + (macChars macs).length ≤ li.macAddresses.length := by
    rw [length_macChars, List.length_nil, Nat.zero_add]
    exact room
  -- the four numbers, the addresses and the checksum, each with what stands before it
  have hyear := numberAt_fixed []
    (fixed 2 date.month ++ (fixed 2 date.day ++ (fixed 3 macs.length ++
      (macChars macs ++ (decimal (licenseSum macs date) ++ 0 :: rest)))))
    date.yearDigits (by decide)
  have hmonth := numberAt_fixed (fixed 4 date.year) (fixed 2 date.day ++ (fixed 3 macs.length ++
    (macChars macs ++ (decimal (licenseSum macs date) ++ 0 :: rest)))) date.monthDigits (by decide)
  have hday := numberAt_fixed (fixed 4 date.year ++ fixed 2 date.month) (fixed 3 macs.length ++
    (macChars macs ++ (decimal (licenseSum macs date) ++ 0 :: rest))) date.dayDigits (by decide)
  have hcount := numberAt_fixed (fixed 4 date.year ++ fixed 2 date.month ++ fixed 2 date.day)
    (macChars macs ++ (decimal (licenseSum macs date) ++ 0 :: rest))
    (by omega : macs.length < 10 ^ 3) (by decide)
  have hcopy := copyLoop_eq hheader li.macAddresses [] (macChars macs)
    (decimal (licenseSum macs date) ++ 0 :: rest) 0 hfits
  have hsum := loadString_append (fixed 4 date.year ++ fixed 2 date.month ++ fixed 2 date.day ++
    fixed 3 macs.length ++ macChars macs) (decimal (licenseSum macs date)) rest
  rw [decimal, cstring_eq_self (notMem_fixed (by decide) _ _), ← decimal] at hsum
  simp only [List.length_append, length_fixed, List.length_nil, List.nil_append, List.append_assoc,
    length_macChars, splice_nil, Nat.reduceAdd, Int.zero_add] at hyear hmonth hday hcount hcopy hsum
  have hplace : 4 + (2 + (2 + (3 + macs.length * 12))) = 11 + macs.length * 12 := by omega
  rw [hplace] at hsum
  have hright : atoi (decimal (licenseSum macs date)) =
      ((macChars macs).map signedChar).sum +
        ((date.year : Int) * date.month * date.day + macs.length) := by
    have hvalue := atoi_decimal (licenseSum macs date) [] rfl
    rw [List.append_nil] at hvalue
    rw [hvalue, sum_signedChar, licenseSum]
    push_cast
    omega
  have hlength : 11 + macs.length * 12 ≤ (licenseText macs date).length := by
    simp only [htext, List.length_append, length_fixed, length_macChars]
    omega
  have hmemory : licenseText macs date ++ 0 :: rest = fixed 4 date.year ++ (fixed 2 date.month ++
      (fixed 2 date.day ++ (fixed 3 macs.length ++ (macChars macs ++
        (decimal (licenseSum macs date) ++ 0 :: rest))))) := by
    rw [htext]
    simp only [List.append_assoc]
  rw [hmemory]
  exact decodeContent_of_reads li hlength hyear hmonth hday hcount hcopy hsum hright

/-- A license of more than 81 addresses fills the buffer. -/
theorem length_licenseText_of_many (many : 81 < macs.length) (date : ExpiryDate) :
    1000 ≤ (licenseText macs date).length := by
  have hsum := (sum_macChars_le macs).1
  -- the checksum has at least five digits
  have hdigits : 4 < digitCount (licenseSum macs date) := by
    by_contra hle
    have hlt := (digitCount_le_iff (by decide)).mp (Nat.le_of_not_lt hle)
    unfold licenseSum at hlt
    omega
  simp only [licenseText, List.length_append, length_fixed, length_macChars, List.length_take,
    length_decimal]
  omega

/-- The reader takes the file of the generator as what it was made of. -/
def Agrees (key : List UInt8) (li : LicenseContent) (macs : List MacAddress) (date : ExpiryDate)
    (file : List UInt8) : Prop :=
  ∃ content, decodeLicenseFile key li (some file) = .ok (.conform, content) ∧
    content.year = date.year ∧ content.month = date.month ∧ content.day = date.day ∧
    content.macCount = macs.length ∧
    content.macAddresses.take (macs.length * 12) = macChars macs

theorem agrees_of_few (few : macs.length ≤ 81) (li : LicenseContent)
    (keyBuffer : key.length = keySize)
    (macBuffer : li.macAddresses.length = keySize) :
    Agrees key li macs date ((licenseText macs date).map (· - 29)) := by
  have hsize : keySize = 1000 := rfl
  rcases licenseText_eq few date with ⟨hdigits, htext⟩
  have hlength : (licenseText macs date).length ≤ 999 := by
    simp only [htext, List.length_append, length_fixed, length_macChars, length_decimal]
    omega
  have hback : ((licenseText macs date).map (· - 29)).map (· + 29) = licenseText macs date := by
    rw [List.map_map]
    conv_rhs => rw [← List.map_id (licenseText macs date)]
    congr 1
    funext ch
    exact UInt8.sub_add_cancel ..
  have hloop := @decryptLoop_eq key [] ((licenseText macs date).map (· - 29))
    (by rw [List.length_map, List.length_nil]; omega)
  rw [splice_nil, List.length_nil, List.nil_append, hback, List.length_map, Nat.zero_add] at hloop
  refine ⟨⟨date.year, date.month, date.day, macs.length, splice li.macAddresses 0 (macChars macs)⟩,
    ?_, rfl, rfl, rfl, rfl, ?_⟩
  · simp only [decodeLicenseFile]
    rw [hloop, bind_ok]
    simp only
    rw [store_splice_zero _ (by omega), bind_ok, splice_zero, List.append_assoc,
      List.singleton_append]
    exact decodeContent_licenseText few li (by omega) _
  · change (splice li.macAddresses 0 (macChars macs)).take (macs.length * 12) = macChars macs
    rw [splice_zero, ← length_macChars, List.take_left]

/-- The generator and the reader agree exactly up to 81 addresses. -/
theorem agrees_iff {file : List UInt8} (present : macs ≠ [])
    (accepted : keyGenerator (macArgument macs) date.argument = .ok file)
    (key : List UInt8) (li : LicenseContent) (keyBuffer : key.length = keySize)
    (macBuffer : li.macAddresses.length = keySize) :
    Agrees key li macs date file ↔ macs.length ≤ 81 := by
  rcases keyGenerator_eq_ok present accepted with ⟨hfew, rfl⟩
  have hsize : keySize = 1000 := rfl
  refine ⟨?_, fun hsmall => agrees_of_few hsmall li keyBuffer macBuffer⟩
  rintro ⟨content, hcontent, -⟩
  by_contra hmany
  have hlong : key.length ≤ ((licenseText macs date).map (· - 29)).length := by
    rw [List.length_map, keyBuffer]
    exact length_licenseText_of_many (Nat.lt_of_not_le hmany) date
  rcases decodeLicenseFile_of_ge li hlong with ⟨fault, hfault⟩
  rw [hfault] at hcontent
  cases hcontent

/-- The address `00:00:00:00:00:00`, a date, and buffers of zeros. -/
def zeroMac : MacAddress where
  pairs := List.replicate 6 (48, 48)
  six := List.length_replicate
  alnum pair hpair := by
    rw [List.eq_of_mem_replicate hpair]
    decide

/-- An address of zeros with another last pair. -/
def endingMac (pair : UInt8 × UInt8) (alnum : isAlnum pair.1 = true ∧ isAlnum pair.2 = true) :
    MacAddress where
  pairs := List.replicate 5 (48, 48) ++ [pair]
  six := rfl
  alnum other hother := by
    rcases List.mem_append.mp hother with hzero | hlast
    · rw [List.eq_of_mem_replicate hzero]
      decide
    · rw [List.mem_singleton.mp hlast]
      exact alnum

/-- `00:00:00:00:00:ab` -/
def lowerMac : MacAddress := endingMac (97, 98) (by decide)

def newYear : ExpiryDate := ⟨2025, 1, 1, by decide, by decide, by decide⟩

def emptyKey : List UInt8 := List.replicate keySize 0

def emptyContent : LicenseContent := ⟨0, 0, 0, 0, List.replicate keySize 0⟩

theorem agrees_iff_two :
    ∃ file, [zeroMac, lowerMac] ≠ [] ∧
      macOption [zeroMac, lowerMac] = bytesOf "00:00:00:00:00:00-00:00:00:00:00:ab" ∧
      keyGenerator (macArgument [zeroMac, lowerMac]) newYear.argument = .ok file ∧
      emptyKey.length = keySize ∧ emptyContent.macAddresses.length = keySize ∧
      (Agrees emptyKey emptyContent [zeroMac, lowerMac] newYear file ↔
        [zeroMac, lowerMac].length ≤ 81) := by
  have hpresent : [zeroMac, lowerMac] ≠ [] := by simp
  have haccepted := keyGenerator_of_lt hpresent (by decide) newYear
  have hkey : emptyKey.length = keySize := List.length_replicate
  have hmacs : emptyContent.macAddresses.length = keySize := List.length_replicate
  exact ⟨_, hpresent, by decide +kernel, haccepted, hkey, hmacs,
    agrees_iff hpresent haccepted emptyKey emptyContent hkey hmacs⟩

/-- The key for 82 addresses is written, and reading it writes behind a buffer. -/
theorem not_agrees_eightyTwo :
    ∃ file, keyGenerator (macArgument (List.replicate 82 zeroMac)) newYear.argument = .ok file ∧
      (∃ fault, decodeLicenseFile emptyKey emptyContent (some file) = .error fault) ∧
      ¬ Agrees emptyKey emptyContent (List.replicate 82 zeroMac) newYear file := by
  have hlength : (List.replicate 82 zeroMac).length = 82 := List.length_replicate
  have hpresent : List.replicate 82 zeroMac ≠ [] := by simp
  have haccepted := keyGenerator_of_lt hpresent (by rw [hlength]; decide) newYear
  have hlong : emptyKey.length ≤
      ((licenseText (List.replicate 82 zeroMac) newYear).map (· - 29)).length := by
    rw [List.length_map, emptyKey, List.length_replicate]
    exact length_licenseText_of_many (by rw [hlength]; decide) newYear
  rcases decodeLicenseFile_of_ge emptyContent hlong with ⟨fault, hfault⟩
  refine ⟨_, haccepted, ⟨fault, hfault⟩, ?_⟩
  rintro ⟨content, hcontent, -⟩
  rw [hfault] at hcontent
  cases hcontent

end MmtProbe.License
