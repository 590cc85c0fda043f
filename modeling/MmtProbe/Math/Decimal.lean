/-
# Decimal and hexadecimal texts of numbers

`fixed width n` is the text of a number with a given number of digits and
`decimal n` the one without leading zeros.  Both are ASCII texts.  The lemmas say
how a text is put together from the digits of a quotient and of a remainder,
which is what a printer does, and that a text is read back as the number it was
made of.
-/

import Mathlib.Algebra.Order.Ring.Int
import Mathlib.Data.Nat.Log
import Mathlib.Data.List.Basic

namespace MmtProbe.Math

/-- The character of a decimal digit. -/
def digit (n : Nat) : UInt8 := UInt8.ofNat (48 + n % 10)

/-- Whether a character is a decimal digit. -/
def isDigit (byte : UInt8) : Bool := 48 ≤ byte && byte ≤ 57

/-- The last `width` decimal digits of a number. -/
def fixed : Nat → Nat → List UInt8
  | 0, _ => []
  | width + 1, n => fixed width (n / 10) ++ [digit n]

/-- How many decimal digits a number has. -/
def digitCount (n : Nat) : Nat := Nat.log 10 n + 1

/-- The text of a number. -/
def decimal (n : Nat) : List UInt8 := fixed (digitCount n) n

/-- The value of a sequence of digits that follows a number. -/
def decimalValue (value : Nat) (bytes : List UInt8) : Nat :=
  bytes.foldl (fun v byte => 10 * v + (byte.toNat - 48)) value

/-- Read a number; anything but a sequence of digits is refused. -/
def readDecimal (bytes : List UInt8) : Option Nat :=
  if bytes ≠ [] ∧ bytes.all isDigit then some (decimalValue 0 bytes) else none

/-! ## Digits -/

theorem toNat_digit (n : Nat) : (digit n).toNat = 48 + n % 10 := by
  rw [digit, UInt8.toNat_ofNat']
  omega

theorem isDigit_digit (n : Nat) : isDigit (digit n) = true := by
  rw [isDigit, Bool.and_eq_true, decide_eq_true_iff, decide_eq_true_iff, UInt8.le_iff_toNat_le,
    UInt8.le_iff_toNat_le, toNat_digit]
  exact ⟨Nat.le_add_right _ _, show 48 + n % 10 ≤ 57 by omega⟩

@[simp]
theorem length_fixed (width n : Nat) : (fixed width n).length = width := by
  induction width generalizing n with
  | zero => rfl
  | succ width ih => rw [fixed, List.length_append, ih, List.length_singleton]

theorem isDigit_of_mem_fixed {width n : Nat} {byte : UInt8} (listed : byte ∈ fixed width n) :
    isDigit byte = true := by
  induction width generalizing n with
  | zero => cases listed
  | succ width ih =>
      rw [fixed, List.mem_append, List.mem_singleton] at listed
      rcases listed with front | last
      · exact ih front
      · rw [last]
        exact isDigit_digit n

/-- A byte that is no digit does not stand in a number. -/
theorem notMem_fixed {byte : UInt8} (notDigit : isDigit byte = false) (width n : Nat) :
    byte ∉ fixed width n := by
  intro listed
  rw [isDigit_of_mem_fixed listed] at notDigit
  cases notDigit

/-- The last two digits are those of the remainder by one hundred. -/
theorem fixed_add_two (width n : Nat) :
    fixed (width + 2) n = fixed width (n / 100) ++ fixed 2 (n % 100) := by
  have htens : digit (n / 10) = digit (n % 100 / 10) := by
    rw [digit, digit]
    congr 2
    omega
  have hunits : digit n = digit (n % 100) := by
    rw [digit, digit]
    congr 2
    omega
  rw [fixed, fixed, Nat.div_div_eq_div_mul, htens, hunits]
  simp [fixed]

theorem fixed_zero (width : Nat) : fixed width 0 = List.replicate width 48 := by
  induction width with
  | zero => rfl
  | succ width ih =>
      rw [fixed, Nat.zero_div, ih, List.replicate_succ']
      rfl

/-- A number is filled up with zeros. -/
theorem fixed_of_lt {width n : Nat} (fits : n < 10 ^ width) (zeros : Nat) :
    fixed (zeros + width) n = List.replicate zeros 48 ++ fixed width n := by
  induction width generalizing n with
  | zero =>
      have hzero : n = 0 := by simpa using fits
      rw [hzero, fixed_zero, fixed, List.append_nil]
      rfl
  | succ width ih =>
      have hdiv : n / 10 < 10 ^ width := by
        rw [Nat.div_lt_iff_lt_mul (by decide), ← Nat.pow_succ]
        exact fits
      rw [← Nat.add_assoc, fixed, ih hdiv, fixed, List.append_assoc]

/-! ## Reading back -/

theorem decimalValue_append (value : Nat) (front back : List UInt8) :
    decimalValue value (front ++ back) = decimalValue (decimalValue value front) back :=
  List.foldl_append

theorem decimalValue_fixed {width n : Nat} (fits : n < 10 ^ width) :
    decimalValue 0 (fixed width n) = n := by
  induction width generalizing n with
  | zero =>
      have hzero : n = 0 := by simpa using fits
      rw [hzero]
      rfl
  | succ width ih =>
      have hdiv : n / 10 < 10 ^ width := by
        rw [Nat.div_lt_iff_lt_mul (by decide), ← Nat.pow_succ]
        exact fits
      have hlast : decimalValue (n / 10) [digit n] = 10 * (n / 10) + ((digit n).toNat - 48) := rfl
      rw [fixed, decimalValue_append, ih hdiv, hlast, toNat_digit]
      omega

/-- A text of enough digits is read as the number it was made of. -/
theorem readDecimal_fixed {width n : Nat} (some_digit : 0 < width) (fits : n < 10 ^ width) :
    readDecimal (fixed width n) = some n := by
  have hne : fixed width n ≠ [] := by
    rw [← List.length_pos_iff, length_fixed]
    exact some_digit
  have hall : (fixed width n).all isDigit = true := by
    rw [List.all_eq_true]
    intro byte listed
    exact isDigit_of_mem_fixed listed
  rw [readDecimal, if_pos ⟨hne, hall⟩, decimalValue_fixed fits]

/-! ## Numbers without leading zeros -/

theorem lt_pow_digitCount (n : Nat) : n < 10 ^ digitCount n :=
  Nat.lt_pow_succ_log_self (by decide) n

theorem digitCount_pos (n : Nat) : 0 < digitCount n := Nat.succ_pos _

theorem digitCount_eq {width n : Nat} (low : 10 ^ width ≤ n) (high : n < 10 ^ (width + 1)) :
    digitCount n = width + 1 := by
  rw [digitCount, Nat.log_eq_of_pow_le_of_lt_pow low high]

theorem digitCount_of_lt_ten {n : Nat} (small : n < 10) : digitCount n = 1 := by
  rw [digitCount, Nat.log_of_lt small]

theorem digitCount_le_iff {width n : Nat} (some_digit : 0 < width) :
    digitCount n ≤ width ↔ n < 10 ^ width := by
  rw [digitCount, Nat.succ_le_iff]
  by_cases hzero : n = 0
  · have hpow : 0 < 10 ^ width := Nat.pow_pos (by decide)
    simpa [hzero, hpow] using some_digit
  · exact Nat.log_lt_iff_lt_pow (by decide) hzero

/-- A number of more than two digits has two digits more than its hundreds. -/
theorem digitCount_div_hundred {n : Nat} (large : 100 ≤ n) :
    digitCount n = digitCount (n / 100) + 2 := by
  have htens : Nat.log 10 n = Nat.log 10 (n / 10) + 1 :=
    Nat.log_of_one_lt_of_le (by decide) (by omega)
  have hhundreds : Nat.log 10 (n / 10) = Nat.log 10 (n / 10 / 10) + 1 :=
    Nat.log_of_one_lt_of_le (by decide) (by omega)
  rw [digitCount, digitCount, htens, hhundreds, Nat.div_div_eq_div_mul]

theorem digitCount_div_ten {n : Nat} (large : 10 ≤ n) : digitCount n = digitCount (n / 10) + 1 := by
  rw [digitCount, digitCount, Nat.log_of_one_lt_of_le (by decide) large]

@[simp]
theorem length_decimal (n : Nat) : (decimal n).length = digitCount n := length_fixed _ _

theorem decimal_of_lt_ten {n : Nat} (small : n < 10) : decimal n = [digit n] := by
  rw [decimal, digitCount_of_lt_ten small]
  rfl

theorem decimal_div_hundred {n : Nat} (large : 100 ≤ n) :
    decimal n = decimal (n / 100) ++ fixed 2 (n % 100) := by
  rw [decimal, digitCount_div_hundred large, fixed_add_two, decimal]

theorem decimal_div_ten {n : Nat} (large : 10 ≤ n) : decimal n = decimal (n / 10) ++ [digit n] := by
  rw [decimal, digitCount_div_ten large, fixed, decimal]

theorem readDecimal_decimal (n : Nat) : readDecimal (decimal n) = some n :=
  readDecimal_fixed (digitCount_pos n) (lt_pow_digitCount n)

theorem decimal_injective {n m : Nat} (same : decimal n = decimal m) : n = m := by
  have hread := congrArg readDecimal same
  rw [readDecimal_decimal, readDecimal_decimal] at hread
  exact Option.some.inj hread

/-- A number is less than the power of its width. -/
theorem decimalValue_lt {bytes : List UInt8} (digits : ∀ byte ∈ bytes, isDigit byte = true)
    (value : Nat) : decimalValue value bytes < (value + 1) * 10 ^ bytes.length := by
  induction bytes generalizing value with
  | nil =>
      rw [decimalValue, List.foldl_nil, List.length_nil, Nat.pow_zero, Nat.mul_one]
      exact Nat.lt_succ_self value
  | cons byte bytes ih =>
      have hdigit := digits byte List.mem_cons_self
      simp only [isDigit, Bool.and_eq_true, decide_eq_true_iff, UInt8.le_iff_toNat_le] at hdigit
      have hhigh : byte.toNat ≤ 57 := hdigit.2
      have hrest := ih (fun b listed => digits b (List.mem_cons_of_mem _ listed))
        (10 * value + (byte.toNat - 48))
      calc decimalValue value (byte :: bytes)
          = decimalValue (10 * value + (byte.toNat - 48)) bytes := rfl
        _ < (10 * value + (byte.toNat - 48) + 1) * 10 ^ bytes.length := hrest
        _ ≤ ((value + 1) * 10) * 10 ^ bytes.length := Nat.mul_le_mul_right _ (by omega)
        _ = (value + 1) * 10 ^ (byte :: bytes).length := by
            rw [List.length_cons, Nat.pow_succ', Nat.mul_assoc]

/-- A number takes at least its digits. -/
theorem digitCount_le_length {bytes : List UInt8} {n : Nat} (read : readDecimal bytes = some n) :
    digitCount n ≤ bytes.length := by
  rw [readDecimal] at read
  split_ifs at read with hdigits
  rcases Option.some.inj read with rfl
  rw [digitCount_le_iff (List.length_pos_iff.mpr hdigits.1)]
  have hlt := decimalValue_lt (List.all_eq_true.mp hdigits.2) 0
  rwa [Nat.zero_add, Nat.one_mul] at hlt

/-- A text that stands for a number, such that no shorter text does. -/
structure ShortestDecimal (text : List UInt8) (n : Nat) : Prop where
  worth : readDecimal text = some n
  shortest : ∀ other, readDecimal other = some n → text.length ≤ other.length

theorem shortestDecimal_decimal (n : Nat) : ShortestDecimal (decimal n) n := by
  refine ⟨readDecimal_decimal n, ?_⟩
  intro other read
  rw [length_decimal]
  exact digitCount_le_length read

/-- Only zero itself begins with a zero. -/
theorem ShortestDecimal.eq_nil {rest : List UInt8} {n : Nat}
    (shortest : ShortestDecimal (48 :: rest) n) : rest = [] := by
  by_contra hrest
  have hworth := shortest.worth
  rw [readDecimal] at hworth
  split_ifs at hworth with hdigits
  have hall : rest.all isDigit = true := by
    have hcons := hdigits.2
    rw [List.all_cons, Bool.and_eq_true] at hcons
    exact hcons.2
  have hvalue : decimalValue 0 rest = decimalValue 0 (48 :: rest) := rfl
  have hread : readDecimal rest = some n := by
    rw [readDecimal, if_pos ⟨hrest, hall⟩, hvalue]
    exact hworth
  have hle := shortest.shortest rest hread
  rw [List.length_cons] at hle
  exact Nat.lt_irrefl _ hle

/-- Numbers with a separator between them. -/
def decimals (separator : UInt8) (numbers : List Nat) : List UInt8 :=
  List.intercalate [separator] (numbers.map decimal)

@[simp]
theorem decimals_nil (separator : UInt8) : decimals separator [] = [] := rfl

/-- The first number, and each of the others behind a separator. -/
theorem decimals_cons (separator : UInt8) (n : Nat) (numbers : List Nat) :
    decimals separator (n :: numbers) =
      decimal n ++ numbers.flatMap fun n => separator :: decimal n := by
  induction numbers generalizing n with
  | nil =>
      rw [List.flatMap_nil, List.append_nil]
      exact List.intercalate_singleton
  | cons next numbers ih =>
      have hnext : decimals separator (n :: next :: numbers) =
          decimal n ++ [separator] ++ decimals separator (next :: numbers) :=
        List.intercalate_cons_cons
      rw [hnext, ih, List.flatMap_cons, List.append_assoc]
      rfl

/-- Each number has its digits and a separator at most. -/
theorem length_decimals_le (separator : UInt8) {numbers : List Nat} {width : Nat}
    (narrow : ∀ n ∈ numbers, digitCount n ≤ width) :
    (decimals separator numbers).length ≤ (width + 1) * numbers.length := by
  induction numbers with
  | nil => exact Nat.zero_le _
  | cons n numbers ih =>
      rw [List.forall_mem_cons] at narrow
      have hrest := ih narrow.2
      rw [List.length_cons, Nat.mul_succ]
      cases numbers with
      | nil =>
          rw [decimals_cons, List.flatMap_nil, List.append_nil, length_decimal]
          omega
      | cons next numbers =>
          rw [decimals_cons, List.length_append, length_decimal, List.flatMap_cons,
            List.cons_append, List.length_cons, ← decimals_cons]
          omega

/-- There are digits and separators in the text, and nothing else. -/
theorem notMem_decimals {byte separator : UInt8} (notDigit : isDigit byte = false)
    (other : byte ≠ separator) (numbers : List Nat) : byte ∉ decimals separator numbers := by
  cases numbers with
  | nil => exact List.not_mem_nil
  | cons n numbers =>
      rw [decimals_cons]
      simp [decimal, notMem_fixed notDigit, other]

/-! ## Numbers at the beginning of a text -/

/-- `isspace` -/
def isSpace (byte : UInt8) : Bool := byte == 32 || (9 ≤ byte && byte ≤ 13)

/-- The digits at the beginning of a text. -/
def leadingDigits (bytes : List UInt8) : Nat := decimalValue 0 (bytes.takeWhile isDigit)

/-- `atoi` and `atol`: white space, a sign and digits are read, and the rest is
ignored.  A text without a number is 0. -/
def atoi (bytes : List UInt8) : Int :=
  match bytes.dropWhile isSpace with
  | 45 :: digits => -(leadingDigits digits : Int)
  | 43 :: digits => leadingDigits digits
  | digits => leadingDigits digits

theorem ne_of_toNat_lt {byte other : UInt8} (below : other.toNat < byte.toNat) : byte ≠ other := by
  rintro rfl
  exact Nat.lt_irrefl _ below

/-- White space ends with the blank. -/
theorem isSpace_eq_false {byte : UInt8} (printable : 32 < byte.toNat) : isSpace byte = false := by
  rw [isSpace, Bool.or_eq_false_iff, beq_eq_false_iff_ne, Bool.and_eq_false_iff]
  refine ⟨ne_of_toNat_lt printable, Or.inr ?_⟩
  rw [decide_eq_false_iff_not, UInt8.le_iff_toNat_le]
  exact fun hle => absurd (show byte.toNat ≤ 13 from hle) (by omega)

/-- A digit is neither white space nor a sign. -/
theorem not_isSpace_of_isDigit {byte : UInt8} (isDigit : isDigit byte = true) :
    isSpace byte = false ∧ byte ≠ 45 ∧ byte ≠ 43 := by
  rw [Math.isDigit, Bool.and_eq_true, decide_eq_true_iff, decide_eq_true_iff,
    UInt8.le_iff_toNat_le, UInt8.le_iff_toNat_le] at isDigit
  have hlow : 48 ≤ byte.toNat := isDigit.1
  exact ⟨isSpace_eq_false (Nat.lt_of_lt_of_le (by decide) hlow),
    ne_of_toNat_lt (Nat.lt_of_lt_of_le (by decide) hlow),
    ne_of_toNat_lt (Nat.lt_of_lt_of_le (by decide) hlow)⟩

/-- A text that begins with a letter, or another byte behind the digits, is 0. -/
theorem atoi_eq_zero {byte : UInt8} (rest : List UInt8) (behind : 58 ≤ byte) :
    atoi (byte :: rest) = 0 := by
  have hbound : 58 ≤ byte.toNat := UInt8.le_iff_toNat_le.mp behind
  have hspace := isSpace_eq_false (Nat.lt_of_lt_of_le (by decide) hbound)
  have hdigit : isDigit byte = false := by
    rw [isDigit, Bool.and_eq_false_iff]
    apply Or.inr
    rw [decide_eq_false_iff_not, UInt8.le_iff_toNat_le]
    exact fun hle => absurd (show byte.toNat ≤ 57 from hle) (by omega)
  have hne : ∀ other : UInt8, other.toNat < 58 → byte ≠ other := fun other hother =>
    ne_of_toNat_lt (Nat.lt_of_lt_of_le hother hbound)
  unfold atoi
  rw [List.dropWhile_cons_of_neg (by simp [hspace])]
  split
  · next hminus => exact absurd (List.cons.inj hminus).1 (hne 45 (by decide))
  · next hplus => exact absurd (List.cons.inj hplus).1 (hne 43 (by decide))
  · rw [leadingDigits, List.takeWhile_cons_of_neg (by simp [hdigit])]
    rfl

/-- The number that some digits stand for, when no digit follows. -/
theorem atoi_append {digits : List UInt8} (given : digits ≠ [])
    (number : ∀ byte ∈ digits, isDigit byte = true) (rest : List UInt8)
    (stops : rest.takeWhile isDigit = []) : atoi (digits ++ rest) = decimalValue 0 digits := by
  have hdigits : (digits ++ rest).takeWhile isDigit = digits := by
    rw [List.takeWhile_append_of_pos number, stops, List.append_nil]
  have hvalue : leadingDigits (digits ++ rest) = decimalValue 0 digits := by
    rw [leadingDigits, hdigits]
  rcases List.exists_cons_of_ne_nil given with ⟨first, others, rfl⟩
  have hclass := not_isSpace_of_isDigit (number first List.mem_cons_self)
  unfold atoi
  rw [List.cons_append, List.dropWhile_cons_of_neg (by simp [hclass.1])]
  split
  · next hminus => exact absurd (List.cons.inj hminus).1 hclass.2.1
  · next hplus => exact absurd (List.cons.inj hplus).1 hclass.2.2
  · rw [← List.cons_append, hvalue]

theorem atoi_of_readDecimal {bytes : List UInt8} {n : Nat} (read : readDecimal bytes = some n) :
    atoi bytes = n := by
  rw [readDecimal] at read
  split_ifs at read with hdigits
  cases read
  have hatoi := atoi_append hdigits.1 (fun byte listed => List.all_eq_true.mp hdigits.2 byte listed)
    [] rfl
  rwa [List.append_nil] at hatoi

/-- The number that a text of digits stands for, when no digit follows. -/
theorem atoi_fixed {width n : Nat} (fits : n < 10 ^ width) (rest : List UInt8)
    (stops : rest.takeWhile isDigit = []) (some_digit : 0 < width) :
    atoi (fixed width n ++ rest) = n := by
  have hgiven : fixed width n ≠ [] := by
    intro hnil
    have hlength := length_fixed width n
    rw [hnil] at hlength
    exact absurd hlength.symm some_digit.ne'
  rw [atoi_append hgiven (fun byte => isDigit_of_mem_fixed) rest stops, decimalValue_fixed fits]

theorem atoi_decimal (n : Nat) (rest : List UInt8) (stops : rest.takeWhile isDigit = []) :
    atoi (decimal n ++ rest) = n :=
  atoi_fixed (lt_pow_digitCount n) rest stops (digitCount_pos n)

/-! ## Bytes in hexadecimal -/

/-- The character of a hexadecimal digit. -/
def hexDigit (n : Nat) : UInt8 := if n < 10 then UInt8.ofNat (48 + n) else UInt8.ofNat (55 + n)

/-- The value of a hexadecimal digit. -/
def hexValue (byte : UInt8) : Option Nat :=
  if isDigit byte then some (byte.toNat - 48)
  else if 65 ≤ byte ∧ byte ≤ 70 then some (byte.toNat - 55) else none

/-- The two hexadecimal digits of a byte. -/
def hexText (byte : UInt8) : List UInt8 := [hexDigit (byte.toNat / 16), hexDigit (byte.toNat % 16)]

/-- Read a byte that is given by two hexadecimal digits. -/
def readHex : List UInt8 → Option UInt8
  | [high, low] => do
      let high ← hexValue high
      let low ← hexValue low
      return UInt8.ofNat (16 * high + low)
  | _ => none

theorem hexValue_hexDigit : ∀ n < 16, hexValue (hexDigit n) = some n := by decide

theorem readHex_hexText (byte : UInt8) : readHex (hexText byte) = some byte := by
  have hhigh : byte.toNat / 16 < 16 := by
    have := byte.toNat_lt
    omega
  have hbyte : 16 * (byte.toNat / 16) + byte.toNat % 16 = byte.toNat := Nat.div_add_mod _ _
  simp only [readHex, hexText, hexValue_hexDigit _ hhigh,
    hexValue_hexDigit _ (Nat.mod_lt byte.toNat (by decide : 0 < 16)), Option.bind_eq_bind,
    Option.bind_some, pure, hbyte, UInt8.ofNat_toNat]

end MmtProbe.Math
