/-
# The generator of license keys

`key_generator` is a program of its own.  It takes a list of MAC addresses and an expiry
date, writes the digits of the date, the number of the addresses, their characters and a
decimal checksum one after the other into a buffer of 3000 bytes, shifts every character
and writes the result to a file.
-/

import MmtProbe.Math.Buffer
import MmtProbe.Math.Decimal
import Mathlib.Algebra.BigOperators.Group.List.Basic

namespace MmtProbe.License

open MmtProbe.Math

/-! ## The program -/

/-- How the generator ends without a key. -/
inductive GeneratorExit where
  /-- `usage` -/
  | usage
  /-- "Specify 12 characters MAC addresses separated by - ." -/
  | macAddresses
  /-- "Specify expiry date in format YYYY/MM/DD" -/
  | expiryDate
  /-- "MAC addresses are too long" -/
  | tooLong
deriving DecidableEq, Repr

/-- A character between two parts of the addresses, `:` or `-`. -/
def isSeparator (ch : UInt8) : Bool := ch == 58 || ch == 45

/-- The value of a signed character. -/
def signedChar (ch : UInt8) : Int := if ch < 128 then ch.toNat else (ch.toNat : Int) - 256

/-- `parseOptions`, with both options given: the number of addresses. -/
def parseOptions (macAddresses expiryDate : CString) : Except GeneratorExit Nat :=
  let length := macAddresses.bytes.length
  if length = 0 then .error .usage
  else
    let nbOfMacAddress := 1 + macAddresses.bytes.count 45
    if length ≠ nbOfMacAddress * 17 + nbOfMacAddress - 1 then .error .macAddresses
    else if expiryDate.bytes.length ≠ 10 then .error .expiryDate
    else .ok nbOfMacAddress

/-- The size of `license_data`. -/
def licenseSize : Nat := 3000

/-- `snprintf` behind what `license_data` holds. -/
def snprintf (data text : List UInt8) : List UInt8 :=
  data ++ text.take (licenseSize - data.length - 1)

/-- A number printed with `%03d`. -/
def threeDigits (n : Nat) : List UInt8 := if digitCount n ≤ 3 then fixed 3 n else decimal n

/-- The loop over the addresses: the data and the checksum. -/
def copyMacAddresses : List UInt8 → List UInt8 × UInt64 → Except GeneratorExit (List UInt8 × UInt64)
  | [], written => .ok written
  | ch :: rest, (data, checkSum) =>
      if isSeparator ch then copyMacAddresses rest (data, checkSum)
      else if (data ++ [ch]).length ≥ licenseSize then .error .tooLong
      else copyMacAddresses rest (data ++ [ch], checkSum + UInt64.ofInt (signedChar ch))

/-- `_encrypt` -/
def encrypt (data : List UInt8) : List UInt8 := (cstring data).map (· - (8 * 4 - 3))

/-- `main`: the contents of the file. -/
def keyGenerator (macAddresses expiryDate : CString) : Except GeneratorExit (List UInt8) := do
  let nbOfMacAddress ← parseOptions macAddresses expiryDate
  let year := expiryDate.bytes.take 4
  let month := (expiryDate.bytes.drop 5).take 2
  let day := (expiryDate.bytes.drop 8).take 2
  let data := snprintf (snprintf (snprintf (snprintf [] year) month) day)
    (threeDigits nbOfMacAddress)
  let checkSum := UInt64.ofInt (atoi year * atoi month * atoi day + nbOfMacAddress)
  let (data, checkSum) ← copyMacAddresses macAddresses.bytes (data, checkSum)
  return cstring (encrypt (snprintf data (decimal checkSum.toNat)))

/-! ## Well-formed options -/

/-- A digit or a letter. -/
def isAlnum (ch : UInt8) : Bool := isDigit ch || (65 ≤ ch && ch ≤ 90) || (97 ≤ ch && ch ≤ 122)

/-- The texts with a separator between them. -/
def joinWith (separator : UInt8) : List (List UInt8) → List UInt8
  | [] => []
  | [text] => text
  | text :: texts => text ++ separator :: joinWith separator texts

/-- A MAC address: six pairs of characters. -/
structure MacAddress where
  pairs : List (UInt8 × UInt8)
  six : pairs.length = 6
  alnum : ∀ pair ∈ pairs, isAlnum pair.1 = true ∧ isAlnum pair.2 = true
deriving DecidableEq

/-- The twelve characters of an address. -/
def MacAddress.chars (mac : MacAddress) : List UInt8 :=
  mac.pairs.flatMap fun pair => [pair.1, pair.2]

/-- An address as it is given, for example `2a:3b:45:6c:12:34`. -/
def MacAddress.text (mac : MacAddress) : List UInt8 :=
  joinWith 58 (mac.pairs.map fun pair => [pair.1, pair.2])

/-- The characters of all addresses. -/
def macChars (macs : List MacAddress) : List UInt8 := macs.flatMap MacAddress.chars

/-- The option `-m`. -/
def macOption (macs : List MacAddress) : List UInt8 := joinWith 45 (macs.map MacAddress.text)

/-- A date of four, two and two digits. -/
structure ExpiryDate where
  year : Nat
  month : Nat
  day : Nat
  yearDigits : year < 10 ^ 4
  monthDigits : month < 10 ^ 2
  dayDigits : day < 10 ^ 2
deriving DecidableEq

/-- The option `-d`, for example `2025/01/31`. -/
def ExpiryDate.text (date : ExpiryDate) : List UInt8 :=
  fixed 4 date.year ++ 47 :: (fixed 2 date.month ++ 47 :: fixed 2 date.day)

/-! ## Characters -/

theorem isAlnum_range {ch : UInt8} (alnum : isAlnum ch = true) :
    48 ≤ ch.toNat ∧ ch.toNat ≤ 122 := by
  simp only [isAlnum, isDigit, Bool.or_eq_true, Bool.and_eq_true, decide_eq_true_iff,
    UInt8.le_iff_toNat_le] at alnum
  change ((48 ≤ ch.toNat ∧ ch.toNat ≤ 57) ∨ (65 ≤ ch.toNat ∧ ch.toNat ≤ 90)) ∨
    (97 ≤ ch.toNat ∧ ch.toNat ≤ 122) at alnum
  omega

theorem isAlnum_of_isDigit {ch : UInt8} (isDigit : isDigit ch = true) : isAlnum ch = true := by
  rw [isAlnum, isDigit]
  rfl

theorem isSeparator_of_isAlnum {ch : UInt8} (alnum : isAlnum ch = true) :
    isSeparator ch = false := by
  have hrange : ∀ other : UInt8, isAlnum other = false → ch ≠ other := by
    intro other hother heq
    rw [heq, hother] at alnum
    cases alnum
  rw [isSeparator, Bool.or_eq_false_iff, beq_eq_false_iff_ne, beq_eq_false_iff_ne]
  exact ⟨hrange 58 (by decide), hrange 45 (by decide)⟩

theorem signedChar_of_isAlnum {ch : UInt8} (alnum : isAlnum ch = true) :
    signedChar ch = ch.toNat := by
  have hlt : ch < 128 := by
    rw [UInt8.lt_iff_toNat_lt]
    exact Nat.lt_of_le_of_lt (isAlnum_range alnum).2 (by decide)
  rw [signedChar, if_pos hlt]

/-! ## Joined texts -/

theorem joinWith_cons_cons (separator : UInt8) (text next : List UInt8)
    (texts : List (List UInt8)) :
    joinWith separator (text :: next :: texts) =
      text ++ separator :: joinWith separator (next :: texts) := rfl

theorem mem_joinWith {separator ch : UInt8} {texts : List (List UInt8)}
    (inside : ch ∈ joinWith separator texts) : ch = separator ∨ ∃ text ∈ texts, ch ∈ text := by
  induction texts with
  | nil => cases inside
  | cons text texts ih =>
      cases texts with
      | nil => exact Or.inr ⟨text, List.mem_cons_self .., inside⟩
      | cons next texts =>
          rw [joinWith_cons_cons, List.mem_append, List.mem_cons] at inside
          rcases inside with htext | hseparator | hrest
          · exact Or.inr ⟨text, List.mem_cons_self .., htext⟩
          · exact Or.inl hseparator
          · rcases ih hrest with hseparator | ⟨other, hother, hch⟩
            · exact Or.inl hseparator
            · exact Or.inr ⟨other, List.mem_cons_of_mem text hother, hch⟩

/-- What a filter keeps of joined texts when it drops the separator. -/
theorem filter_joinWith {keep : UInt8 → Bool} {separator : UInt8} (dropped : keep separator = false)
    (texts : List (List UInt8)) :
    (joinWith separator texts).filter keep = texts.flatMap (List.filter keep) := by
  induction texts with
  | nil => rfl
  | cons text texts ih =>
      cases texts with
      | nil => simp [joinWith]
      | cons next texts =>
          rw [joinWith_cons_cons, List.filter_append, List.filter_cons_of_neg (by simp [dropped]),
            ih]
          rfl

theorem length_joinWith {separator : UInt8} {texts : List (List UInt8)} {width : Nat}
    (present : texts ≠ []) (same : ∀ text ∈ texts, text.length = width) :
    (joinWith separator texts).length + 1 = texts.length * (width + 1) := by
  induction texts with
  | nil => exact absurd rfl present
  | cons text texts ih =>
      have htext := same text (List.mem_cons_self ..)
      cases texts with
      | nil => simp [joinWith, htext]
      | cons next texts =>
          have hrest := ih (by simp) fun other hother =>
            same other (List.mem_cons_of_mem text hother)
          rw [joinWith_cons_cons, List.length_append, List.length_cons, htext, List.length_cons,
            Nat.succ_mul]
          omega

theorem count_joinWith {separator : UInt8} {texts : List (List UInt8)}
    (present : texts ≠ []) (absent : ∀ text ∈ texts, separator ∉ text) :
    (joinWith separator texts).count separator + 1 = texts.length := by
  induction texts with
  | nil => exact absurd rfl present
  | cons text texts ih =>
      have htext := List.count_eq_zero_of_not_mem (absent text (List.mem_cons_self ..))
      cases texts with
      | nil => rw [joinWith, htext]; rfl
      | cons next texts =>
          have hrest := ih (by simp) fun other hother =>
            absent other (List.mem_cons_of_mem text hother)
          rw [joinWith_cons_cons, List.count_append, htext, List.count_cons_self, List.length_cons]
          omega

/-! ## Addresses -/

namespace MacAddress

variable (mac : MacAddress)

theorem length_chars : mac.chars.length = 12 := by
  rw [chars, List.length_flatMap]
  simp [mac.six]

theorem isAlnum_of_mem_chars {mac : MacAddress} {ch : UInt8} (inside : ch ∈ mac.chars) :
    isAlnum ch = true := by
  rcases List.mem_flatMap.mp inside with ⟨pair, hpair, hch⟩
  rcases mac.alnum pair hpair with ⟨hfirst, hsecond⟩
  simp only [List.mem_cons, List.not_mem_nil, or_false] at hch
  rcases hch with rfl | rfl
  · exact hfirst
  · exact hsecond

theorem length_text : mac.text.length = 17 := by
  have hlength : (joinWith 58 (mac.pairs.map fun pair => [pair.1, pair.2])).length + 1 =
      (mac.pairs.map fun pair => [pair.1, pair.2]).length * (2 + 1) := by
    apply length_joinWith
    · rw [← List.length_pos_iff, List.length_map, mac.six]
      decide
    · intro text htext
      rcases List.mem_map.mp htext with ⟨pair, -, rfl⟩
      rfl
  rw [List.length_map, mac.six] at hlength
  exact Nat.succ.inj hlength

/-- Without the colons the characters remain. -/
theorem filter_text : mac.text.filter (fun ch => !isSeparator ch) = mac.chars := by
  rw [text, filter_joinWith (by decide), List.flatMap_map]
  apply List.flatMap_congr
  intro pair hpair
  rcases mac.alnum pair hpair with ⟨hfirst, hsecond⟩
  simp [isSeparator_of_isAlnum hfirst, isSeparator_of_isAlnum hsecond]

theorem dash_notMem_text : (45 : UInt8) ∉ mac.text := by
  intro inside
  rcases mem_joinWith inside with hcolon | ⟨text, htext, hch⟩
  · exact absurd hcolon (by decide)
  · rcases List.mem_map.mp htext with ⟨pair, hpair, rfl⟩
    have halnum : isAlnum 45 = true :=
      isAlnum_of_mem_chars (List.mem_flatMap.mpr ⟨pair, hpair, hch⟩)
    exact absurd halnum (by decide)

end MacAddress

variable {macs : List MacAddress}

theorem length_macChars (macs : List MacAddress) : (macChars macs).length = macs.length * 12 := by
  induction macs with
  | nil => rfl
  | cons mac macs ih =>
      rw [macChars, List.flatMap_cons, List.length_append, mac.length_chars, ← macChars, ih,
        List.length_cons, Nat.succ_mul]
      omega

theorem isAlnum_of_mem_macChars {ch : UInt8} (inside : ch ∈ macChars macs) : isAlnum ch = true := by
  rcases List.mem_flatMap.mp inside with ⟨mac, -, hch⟩
  exact MacAddress.isAlnum_of_mem_chars hch

theorem filter_macOption (macs : List MacAddress) :
    (macOption macs).filter (fun ch => !isSeparator ch) = macChars macs := by
  rw [macOption, filter_joinWith (by decide), List.flatMap_map]
  apply List.flatMap_congr
  intro mac _
  exact mac.filter_text

theorem length_macOption (present : macs ≠ []) :
    (macOption macs).length + 1 = macs.length * 18 := by
  have hlength : (joinWith 45 (macs.map MacAddress.text)).length + 1 =
      (macs.map MacAddress.text).length * (17 + 1) := by
    apply length_joinWith
    · simpa using present
    · intro text htext
      rcases List.mem_map.mp htext with ⟨mac, -, rfl⟩
      exact mac.length_text
  rw [List.length_map] at hlength
  exact hlength

theorem count_macOption (present : macs ≠ []) : (macOption macs).count 45 + 1 = macs.length := by
  have hcount : (joinWith 45 (macs.map MacAddress.text)).count 45 + 1 =
      (macs.map MacAddress.text).length := by
    apply count_joinWith
    · simpa using present
    · intro text htext
      rcases List.mem_map.mp htext with ⟨mac, -, rfl⟩
      exact mac.dash_notMem_text
  rw [List.length_map] at hcount
  exact hcount

/-- The addresses as an argument of the program. -/
def macArgument (macs : List MacAddress) : CString where
  bytes := macOption macs
  plain := by
    intro inside
    have hkept : (0 : UInt8) ∈ (macOption macs).filter fun ch => !isSeparator ch :=
      List.mem_filter.mpr ⟨inside, by decide⟩
    rw [filter_macOption] at hkept
    exact absurd (isAlnum_of_mem_macChars hkept) (by decide)

/-- The date as an argument of the program. -/
def ExpiryDate.argument (date : ExpiryDate) : CString where
  bytes := date.text
  plain := by
    have hfixed : ∀ width n, (0 : UInt8) ∉ fixed width n := notMem_fixed (by decide)
    simp [ExpiryDate.text, hfixed]

/-! ## What is written -/

/-- The checksum of a license. -/
def licenseSum (macs : List MacAddress) (date : ExpiryDate) : Nat :=
  date.year * date.month * date.day + macs.length + ((macChars macs).map UInt8.toNat).sum

/-- The text of a license, with as much of the checksum as fits in the buffer. -/
def licenseText (macs : List MacAddress) (date : ExpiryDate) : List UInt8 :=
  fixed 4 date.year ++ fixed 2 date.month ++ fixed 2 date.day ++ fixed 3 macs.length ++
    macChars macs ++ (decimal (licenseSum macs date)).take (2988 - macs.length * 12)

theorem parseOptions_ok (present : macs ≠ []) (date : ExpiryDate) :
    parseOptions (macArgument macs) date.argument = .ok macs.length := by
  have hlength := length_macOption present
  have hcount := count_macOption present
  have hpos := List.length_pos_iff.mpr present
  have hdate : date.text.length = 10 := by simp [ExpiryDate.text]
  have hnumber : 1 + (macOption macs).count 45 = macs.length := by omega
  simp only [parseOptions, macArgument, ExpiryDate.argument, hnumber]
  rw [if_neg (by omega), if_neg (by omega), if_neg (by omega)]

/-- The loop copies the characters that are no separators, as long as they fit. -/
theorem copyMacAddresses_eq (text data : List UInt8) (checkSum : UInt64)
    (room : data.length < licenseSize) :
    copyMacAddresses text (data, checkSum) =
      if data.length + (text.filter fun ch => !isSeparator ch).length < licenseSize then
        .ok (data ++ text.filter fun ch => !isSeparator ch,
          (text.filter fun ch => !isSeparator ch).foldl
            (fun sum ch => sum + UInt64.ofInt (signedChar ch)) checkSum)
      else .error .tooLong := by
  induction text generalizing data checkSum with
  | nil =>
      rw [List.filter_nil, List.length_nil, Nat.add_zero, if_pos room, List.append_nil]
      rfl
  | cons ch rest ih =>
      cases hseparator : isSeparator ch with
      | true =>
          rw [copyMacAddresses, if_pos hseparator, List.filter_cons_of_neg (by simp [hseparator])]
          exact ih data checkSum room
      | false =>
          rw [copyMacAddresses, if_neg (by simp [hseparator]),
            List.filter_cons_of_pos (by simp [hseparator]), List.length_cons]
          by_cases hfull : (data ++ [ch]).length ≥ licenseSize
          · have hlength : (data ++ [ch]).length = data.length + 1 := by simp
            rw [if_pos hfull, if_neg (by omega)]
          · have hlength : (data ++ [ch]).length = data.length + 1 := by simp
            rw [if_neg hfull, ih (data ++ [ch]) _ (by omega), hlength, List.append_assoc]
            simp only [Nat.add_assoc, Nat.add_comm 1, List.foldl_cons, List.singleton_append]

/-- The sum of characters does not wrap. -/
theorem foldl_checkSum {chars : List UInt8} {checkSum : UInt64}
    (alnum : ∀ ch ∈ chars, isAlnum ch = true)
    (fits : checkSum.toNat + (chars.map UInt8.toNat).sum < 2 ^ 64) :
    (chars.foldl (fun sum ch => sum + UInt64.ofInt (signedChar ch)) checkSum).toNat =
      checkSum.toNat + (chars.map UInt8.toNat).sum := by
  induction chars generalizing checkSum with
  | nil => rfl
  | cons ch chars ih =>
      rw [List.map_cons, List.sum_cons] at fits ⊢
      have hch : (UInt64.ofInt (signedChar ch)).toNat = ch.toNat := by
        rw [signedChar_of_isAlnum (alnum ch (List.mem_cons_self ..)), UInt64.ofInt,
          UInt64.toNat_ofNat']
        omega
      have hsum : (checkSum + UInt64.ofInt (signedChar ch)).toNat = checkSum.toNat + ch.toNat := by
        rw [UInt64.toNat_add, hch]
        omega
      rw [List.foldl_cons, ih (fun c hc => alnum c (List.mem_cons_of_mem ch hc)) (by omega), hsum]
      omega

/-- Bounds on the characters bound their sum. -/
theorem sum_macChars_le (macs : List MacAddress) :
    macs.length * 12 * 48 ≤ ((macChars macs).map UInt8.toNat).sum ∧
      ((macChars macs).map UInt8.toNat).sum ≤ macs.length * 12 * 122 := by
  rw [← length_macChars]
  have hrange : ∀ ch ∈ macChars macs, 48 ≤ ch.toNat ∧ ch.toNat ≤ 122 := fun ch hch =>
    isAlnum_range (isAlnum_of_mem_macChars hch)
  generalize macChars macs = chars at hrange
  induction chars with
  | nil => exact ⟨Nat.le_refl _, Nat.le_refl _⟩
  | cons ch chars ih =>
      have hch := hrange ch (List.mem_cons_self ..)
      have hrest := ih fun c hc => hrange c (List.mem_cons_of_mem ch hc)
      rw [List.map_cons, List.sum_cons, List.length_cons]
      omega

theorem length_snprintf_lt {data text : List UInt8} (room : data.length < licenseSize) :
    (snprintf data text).length < licenseSize := by
  rw [snprintf, List.length_append, List.length_take]
  omega

/-! ## The parts of a date -/

namespace ExpiryDate

variable (date : ExpiryDate)

theorem take_year : date.text.take 4 = fixed 4 date.year := by
  rw [text, List.take_left' (length_fixed ..)]

theorem take_month : (date.text.drop 5).take 2 = fixed 2 date.month := by
  have hsplit : date.text =
      (fixed 4 date.year ++ [47]) ++ (fixed 2 date.month ++ 47 :: fixed 2 date.day) := by
    simp [text]
  rw [hsplit, List.drop_left' (by simp), List.take_left' (length_fixed ..)]

theorem take_day : (date.text.drop 8).take 2 = fixed 2 date.day := by
  have hsplit : date.text =
      (fixed 4 date.year ++ [47] ++ fixed 2 date.month ++ [47]) ++ fixed 2 date.day := by
    simp [text]
  rw [hsplit, List.drop_left' (by simp), List.take_of_length_le (by simp)]

/-- The product of the three numbers is small. -/
theorem product_lt : date.year * date.month * date.day < 10 ^ 8 := by
  have hmonth : date.year * date.month ≤ 10 ^ 4 * 10 ^ 2 :=
    Nat.mul_le_mul date.yearDigits.le date.monthDigits.le
  have hday : date.year * date.month * date.day ≤ 10 ^ 4 * 10 ^ 2 * date.day :=
    Nat.mul_le_mul_right _ hmonth
  have hlt := date.dayDigits
  omega

end ExpiryDate

theorem atoi_fixed_self {width n : Nat} (fits : n < 10 ^ width) (some_digit : 0 < width) :
    atoi (fixed width n) = n := by
  have hread := atoi_fixed fits [] rfl some_digit
  rwa [List.append_nil] at hread

/-! ## The file -/

/-- The characters of a license are digits and letters. -/
theorem isAlnum_of_mem_licenseText {date : ExpiryDate} {ch : UInt8}
    (inside : ch ∈ licenseText macs date) : isAlnum ch = true := by
  have hfixed : ∀ {width n : Nat}, ch ∈ fixed width n → isAlnum ch = true := fun hch =>
    isAlnum_of_isDigit (isDigit_of_mem_fixed hch)
  simp only [licenseText, List.mem_append] at inside
  rcases inside with ((((hch | hch) | hch) | hch) | hch) | hch
  · exact hfixed hch
  · exact hfixed hch
  · exact hfixed hch
  · exact hfixed hch
  · exact isAlnum_of_mem_macChars hch
  · exact hfixed (List.mem_of_mem_take hch)

/-- No character of a license is lost by the shift. -/
theorem cstring_encrypt {data : List UInt8} (alnum : ∀ ch ∈ data, isAlnum ch = true) :
    cstring (encrypt data) = data.map (· - 29) := by
  have hplain : cstring data = data := by
    apply cstring_eq_self
    intro hzero
    exact absurd (alnum 0 hzero) (by decide)
  rw [encrypt, hplain]
  apply cstring_eq_self
  intro hzero
  rcases List.mem_map.mp hzero with ⟨ch, hch, hshift⟩
  have hlow := (isAlnum_range (alnum ch hch)).1
  have hch : ch = 29 := UInt8.sub_eq_iff_eq_add.mp hshift
  rw [hch] at hlow
  exact absurd hlow (by decide)

/-- Fewer than 250 addresses fit in the buffer. -/
theorem keyGenerator_of_lt (present : macs ≠ []) (few : macs.length < 250) (date : ExpiryDate) :
    keyGenerator (macArgument macs) date.argument = .ok ((licenseText macs date).map (· - 29)) := by
  have hthree : threeDigits macs.length = fixed 3 macs.length := by
    rw [threeDigits, if_pos ((digitCount_le_iff (by decide)).mpr (by omega))]
  have hdata : snprintf (snprintf (snprintf (snprintf [] (fixed 4 date.year)) (fixed 2 date.month))
      (fixed 2 date.day)) (fixed 3 macs.length) =
        fixed 4 date.year ++ fixed 2 date.month ++ fixed 2 date.day ++ fixed 3 macs.length := by
    simp [snprintf, licenseSize, List.take_of_length_le]
  have hproduct := date.product_lt
  have hsum := (sum_macChars_le macs).2
  have hstart : (UInt64.ofInt ((date.year : Int) * date.month * date.day + macs.length)).toNat =
      date.year * date.month * date.day + macs.length := by
    rw [show (date.year : Int) * date.month * date.day + macs.length =
      ((date.year * date.month * date.day + macs.length : Nat) : Int) by push_cast; rfl,
      UInt64.ofInt, UInt64.toNat_ofNat']
    omega
  have hcheck : ((macChars macs).foldl (fun sum ch => sum + UInt64.ofInt (signedChar ch))
      (UInt64.ofInt ((date.year : Int) * date.month * date.day + macs.length))).toNat =
        licenseSum macs date := by
    rw [foldl_checkSum fun ch => isAlnum_of_mem_macChars, hstart, licenseSum]
    rw [hstart]
    omega
  unfold keyGenerator
  rw [parseOptions_ok present, bind_ok]
  simp only [ExpiryDate.argument, date.take_year, date.take_month, date.take_day, hthree, hdata,
    atoi_fixed_self date.yearDigits (by decide), atoi_fixed_self date.monthDigits (by decide),
    atoi_fixed_self date.dayDigits (by decide)]
  rw [copyMacAddresses_eq _ _ _ (by simp [licenseSize]),
    show (macArgument macs).bytes = macOption macs from rfl, filter_macOption, length_macChars,
    if_pos (by simp [licenseSize]; omega), bind_ok]
  have htext : snprintf (fixed 4 date.year ++ fixed 2 date.month ++ fixed 2 date.day ++
      fixed 3 macs.length ++ macChars macs) (decimal (licenseSum macs date)) =
        licenseText macs date := by
    have hroom : licenseSize - (fixed 4 date.year ++ fixed 2 date.month ++ fixed 2 date.day ++
        fixed 3 macs.length ++ macChars macs).length - 1 = 2988 - macs.length * 12 := by
      simp only [List.length_append, length_fixed, length_macChars, licenseSize]
      omega
    rw [snprintf, licenseText, hroom]
  simp only [hcheck, htext]
  rw [cstring_encrypt fun ch => isAlnum_of_mem_licenseText]
  rfl

/-- More addresses do not fit. -/
theorem keyGenerator_of_ge (many : 250 ≤ macs.length) (date : ExpiryDate) :
    keyGenerator (macArgument macs) date.argument = .error .tooLong := by
  have hpresent : macs ≠ [] := by
    intro hnil
    rw [hnil] at many
    exact absurd many (by decide)
  unfold keyGenerator
  rw [parseOptions_ok hpresent, bind_ok]
  simp only
  rw [copyMacAddresses_eq, show (macArgument macs).bytes = macOption macs from rfl,
    filter_macOption, length_macChars, if_neg]
  · rfl
  · have hsize : licenseSize = 3000 := rfl
    omega
  · exact length_snprintf_lt (length_snprintf_lt (length_snprintf_lt
      (length_snprintf_lt (by decide))))

/-- The file of every accepted list of addresses. -/
theorem keyGenerator_eq_ok {date : ExpiryDate} {file : List UInt8} (present : macs ≠ [])
    (accepted : keyGenerator (macArgument macs) date.argument = .ok file) :
    macs.length < 250 ∧ file = (licenseText macs date).map (· - 29) := by
  by_cases hfew : macs.length < 250
  · rw [keyGenerator_of_lt present hfew date] at accepted
    exact ⟨hfew, (Except.ok.inj accepted).symm⟩
  · rw [keyGenerator_of_ge (Nat.le_of_not_lt hfew) date] at accepted
    cases accepted

end MmtProbe.License
