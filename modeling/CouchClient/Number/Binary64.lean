/-! # Binary64 — double-precision numbers in exact arithmetic

    A finite number is a sign, a mantissa below 2^53 and an exponent of
    two that is at least -1074; the mantissa is below 2^52 only at the
    least exponent, so every number is written in one way.  Reading a
    decimal rounds its exact value to the nearest such number, a tie to
    the even mantissa, and values beyond the largest one to infinity. -/

namespace CouchClient

/-- A double-precision number. -/
inductive Binary64 where
  | nan
  | infinite (negative : Bool)
  | finite (negative : Bool) (mantissa : Nat) (exponent : Int)
deriving DecidableEq

namespace Binary64

/-- Whether the number is neither infinite nor undefined. -/
def isFinite : Binary64 → Bool
  | .finite _ _ _ => true
  | _ => false

/-- Whether the number equals zero, of either sign. -/
def isZero : Binary64 → Bool
  | .finite _ 0 _ => true
  | _ => false

/-- The zero of the given sign. -/
def zero (negative : Bool) : Binary64 := .finite negative 0 (-1074)

/-! ## Powers

    A power with a negative exponent is a division, so a quotient of
    natural numbers is scaled by multiplying one of its sides: by `twoTo k`
    the numerator and by `twoTo (-k)` the denominator. -/

/-- The power `2 ^ k`, or one if `k` is negative. -/
def twoTo (k : Int) : Nat := Nat.pow 2 k.toNat

/-- The power `10 ^ k`, or one if `k` is negative. -/
def tenTo (k : Int) : Nat := Nat.pow 10 k.toNat

/-! ## Rounding -/

/-- The quotient rounded to the nearest number, a tie to the even one. -/
def roundDiv (num den : Nat) : Nat :=
  let q := num / den
  let r := num % den
  if 2 * r > den ∨ (2 * r = den ∧ q % 2 = 1) then q + 1 else q

/-- Whether `num / den` is at least `2 ^ k`. -/
def reachesPower (num den : Nat) (k : Int) : Bool :=
  decide (den * twoTo k ≤ num * twoTo (-k))

/-- The greatest `k` with `2 ^ k ≤ num / den`, for positive numbers. -/
def binaryExponent (num den : Nat) : Int :=
  let k : Int := num.log2 - den.log2
  if reachesPower num den k then k else k - 1

/-- The number nearest to `num / den`. -/
def ofRatio (negative : Bool) (num den : Nat) : Binary64 :=
  if num = 0 then zero negative
  else
    let e := max (-1074) (binaryExponent num den - 52)
    let m := roundDiv (num * twoTo (-e)) (den * twoTo e)
    -- rounding up may reach the next power of two
    let (m, e) := if m = twoTo 53 then (twoTo 52, e + 1) else (m, e)
    if e > 971 then .infinite negative else .finite negative m e

/-- The number of decimal digits, at least one. -/
def decimalLength (n : Nat) : Nat := (Nat.toDigits 10 n).length

/-- The number nearest to `digits * 10 ^ exponent`.  Exponents far out of
    range are decided by the length alone. -/
def ofDecimal (negative : Bool) (digits : Nat) (exponent : Int) : Binary64 :=
  let magnitude := exponent + decimalLength digits
  if digits = 0 ∨ magnitude < -400 then zero negative
  else if magnitude > 400 then .infinite negative
  else
    ofRatio negative (digits * tenTo exponent) (tenTo (-exponent))

/-- The exact value of a finite number as a signed numerator over a
    positive denominator. -/
def toRatio? : Binary64 → Option (Int × Nat)
  | .finite negative m e =>
      let num : Int := (m * twoTo e : Nat)
      some (if negative then -num else num, twoTo (-e))
  | _ => none

end Binary64

end CouchClient
