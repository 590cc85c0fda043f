/-
# Texts of doubles

`printf` prints a double with a fixed number of decimals.  The double is a number
`mantissa * 2 ^ exponent`, which is brought to the nearest multiple of the last decimal,
and to the even one when two are equally near.  No double has more than 309 digits before
the point.
-/

import MmtProbe.Math.Bytes
import MmtProbe.Math.Decimal

namespace MmtProbe.Math

open Float.Model (UnpackedFloat)

/-- A quotient, rounded to the nearest number, and to the even one of two. -/
def roundEven (a b : Nat) : Nat :=
  if 2 * (a % b) < b ∨ (2 * (a % b) = b ∧ a / b % 2 = 0) then a / b else a / b + 1

/-- A number of units of the last decimal. -/
def pointText (decimals units : Nat) : List UInt8 :=
  decimal (units / 10 ^ decimals) ++ 46 :: fixed decimals (units % 10 ^ decimals)

/-- The minus in front of a number. -/
def signText (sign : UnpackedFloat.Sign) : List UInt8 :=
  match sign with
  | .negative => [45]
  | .positive => []

/-- What `printf` makes of a double for `%.{decimals}f`.  A double that is not a number comes
from a division by 0 here, and such a one has its sign set on x86-64. -/
def doubleText (decimals : Nat) (x : Float.Model) : List UInt8 :=
  match x.unpack with
  | .notANumber => bytesOf "-nan"
  | .infinity sign => signText sign ++ bytesOf "inf"
  | .zero sign => signText sign ++ pointText decimals 0
  | .finite sign mantissa exponent _ =>
      signText sign ++ pointText decimals
        (roundEven (mantissa * 2 ^ exponent.toNat * 10 ^ decimals) (2 ^ (-exponent).toNat))

/-- 1 / 2000 is a little more as a double, and 1 / 16 lies between two texts. -/
example : doubleText 3 (.ofUInt32 1 / .ofUInt32 2000) = bytesOf "0.001" ∧
    doubleText 3 (.ofUInt32 1 / .ofUInt32 16) = bytesOf "0.062" ∧
    doubleText 3 (.ofUInt32 1 / .ofUInt32 0) = bytesOf "inf" := by decide +kernel

/-! ## The length of a text -/

theorem roundEven_le {a b n : Nat} (below : a ≤ n * b) (nonzero : 0 < b) :
    roundEven a b ≤ n := by
  have hle : a / b ≤ n := Nat.div_le_of_le_mul (by rwa [Nat.mul_comm])
  rw [roundEven]
  split_ifs with hdown
  · exact hle
  · rcases Nat.lt_or_eq_of_le hle with hlt | heq
    · exact hlt
    · -- nothing is left over, and so the quotient is not rounded up
      have hsum := Nat.div_add_mod a b
      rw [heq, Nat.mul_comm b n] at hsum
      exact absurd (.inl (by omega)) hdown

theorem length_signText_le (sign : UnpackedFloat.Sign) : (signText sign).length ≤ 1 := by
  cases sign <;> decide

theorem length_pointText_le {decimals units digits : Nat} (some_digit : 0 < digits)
    (below : units < 10 ^ digits * 10 ^ decimals) :
    (pointText decimals units).length ≤ digits + 1 + decimals := by
  have hdigits : digitCount (units / 10 ^ decimals) ≤ digits :=
    (digitCount_le_iff some_digit).mpr (Nat.div_lt_of_lt_mul (by rwa [Nat.mul_comm]))
  rw [pointText, List.length_append, List.length_cons, length_decimal, length_fixed]
  omega

/-- The mantissa and the exponent of a finite double are small. -/
theorem unpack_finite_bounds {x : Float.Model} {sign : UnpackedFloat.Sign} {mantissa : Nat}
    {exponent : Int} {pos : 0 < mantissa}
    (unpacked : x.unpack = .finite sign mantissa exponent pos) :
    mantissa < 2 ^ 53 ∧ exponent ≤ 971 := by
  let bits : BitVec Float.Model.Format.binary64.numBits := x.toBits.toBitVec
  have hbias : (Float.Model.Format.binary64.exponentBias : Int) = 1023 := rfl
  have hexponent : (UnpackedFloat.unpackExponent bits).toNat < 2 ^ 11 := BitVec.isLt _
  change UnpackedFloat.unpack _ bits = _ at unpacked
  delta UnpackedFloat.unpack at unpacked
  dsimp only at unpacked
  by_cases hones : UnpackedFloat.unpackExponent bits = -1#_
  · -- an infinity, or no number
    rw [if_pos hones] at unpacked
    by_cases hnan : UnpackedFloat.unpackMantissa bits = 0#_
    · rw [if_pos hnan] at unpacked
      cases unpacked
    · rw [if_neg hnan] at unpacked
      cases unpacked
  rw [if_neg hones] at unpacked
  by_cases hzeros : UnpackedFloat.unpackExponent bits = 0#_
  · rw [if_pos hzeros] at unpacked
    by_cases hnone : UnpackedFloat.unpackMantissa bits = 0#_
    · rw [dif_pos hnone] at unpacked
      cases unpacked
    rw [dif_neg hnone] at unpacked
    -- subnormal
    rcases UnpackedFloat.finite.inj unpacked with ⟨_, hmantissa, hvalue⟩
    rw [hbias] at hvalue
    have hlt : (UnpackedFloat.unpackMantissa bits).toNat < 2 ^ 52 := BitVec.isLt _
    have hzero : (UnpackedFloat.unpackExponent bits).toNat = 0 := by
      rw [hzeros]
      rfl
    constructor <;> omega
  · rw [if_neg hzeros] at unpacked
    -- normal
    rcases UnpackedFloat.finite.inj unpacked with ⟨_, hmantissa, hvalue⟩
    rw [hbias] at hvalue
    have hlt : (1#1 ++ UnpackedFloat.unpackMantissa bits).toNat < 2 ^ 53 := BitVec.isLt _
    have hne : (UnpackedFloat.unpackExponent bits).toNat ≠ 2047 :=
      fun hall => hones (BitVec.eq_of_toNat_eq hall)
    constructor <;> omega

/-- A double is less than 2 ^ 1024, and so it has at most 309 digits before the point. -/
theorem length_doubleText_le (decimals : Nat) (x : Float.Model) :
    (doubleText decimals x).length ≤ 311 + decimals := by
  have hten : 0 < 10 ^ decimals := Nat.pow_pos (by decide)
  have htwo : ∀ n, 0 < 2 ^ n := fun n => Nat.pow_pos (by decide)
  rw [doubleText]
  split
  next =>
    have hnan : (bytesOf "-nan").length = 4 := by decide +kernel
    omega
  next sign _ =>
    have hsign := length_signText_le sign
    have hinf : (bytesOf "inf").length = 3 := by decide +kernel
    rw [List.length_append]
    omega
  next sign _ =>
    have hsign := length_signText_le sign
    have hzero := @length_pointText_le decimals 0 1 Nat.one_pos (by omega)
    rw [List.length_append]
    omega
  next sign mantissa exponent pos unpacked =>
    rcases unpack_finite_bounds unpacked with ⟨hmantissa, hexponent⟩
    have hsign := length_signText_le sign
    have hpower := Nat.pow_le_pow_right Nat.two_pos (show exponent.toNat ≤ 971 by omega)
    have hvalue : mantissa * 2 ^ exponent.toNat < 10 ^ 309 :=
      calc mantissa * 2 ^ exponent.toNat ≤ 2 ^ 53 * 2 ^ 971 :=
            Nat.mul_le_mul hmantissa.le hpower
        _ < 10 ^ 309 := by decide +kernel
    have hunits : roundEven (mantissa * 2 ^ exponent.toNat * 10 ^ decimals)
        (2 ^ (-exponent).toNat) ≤ mantissa * 2 ^ exponent.toNat * 10 ^ decimals :=
      roundEven_le (Nat.le_mul_of_pos_right _ (htwo _)) (htwo _)
    have htext := @length_pointText_le decimals _ 309 (by decide)
      (hunits.trans_lt (Nat.mul_lt_mul_of_pos_right hvalue hten))
    rw [List.length_append]
    omega

end MmtProbe.Math
