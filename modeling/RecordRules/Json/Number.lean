import RecordRules.Binary64
import RecordRules.Decimal.Numeral
import RecordRules.Json.Basic

/-!
# Numbers of JSON text

The value of a number as it is written.  Digits without point or exponent that
fit 64 bits are an integer.  Any other number is computed in double precision:
its leading digits, as many as fit 64 bits, are rounded, and then multiplied or
divided by a rounded power of ten.  That is not always the nearest number to
the one written.  A number that is too great is refused.
-/

namespace RecordRules.Json

open Binary64

/-- The least number that does not fit 64 bits, 2^64. -/
def wordBound : Nat := 0x10000000000000000

/-- A significand of 64 bits takes up the digits before the point, as long as
it fits; also the number of digits that are left out. -/
def absorbWhole (significand : Nat) : List Nat → Nat × Nat
  | [] => (significand, 0)
  | d :: ds =>
    if 10 * significand + d < wordBound then absorbWhole (10 * significand + d) ds
    else (significand, ds.length + 1)

/-- A significand of 64 bits takes up the digits after the point, as long as it
fits; also the number of digits that are taken up. -/
def absorbFraction (significand : Nat) : List Nat → Nat × Nat
  | [] => (significand, 0)
  | d :: ds =>
    if 10 * significand + d < wordBound then
      let (significand, taken) := absorbFraction (10 * significand + d) ds
      (significand, taken + 1)
    else (significand, 0)

/-- The power of ten nearest in double precision. -/
def powerOfTen (exponent : Nat) : Binary64 := ofRatio false (Nat.pow 10 exponent) 1

/-- The rounded significand, multiplied or divided by a power of ten, in two
steps where the power itself is out of range.  There is none that is infinite. -/
def scaleByTen? (significand : Nat) (exponent : Int) : Option Binary64 :=
  let f := ofRatio false significand 1
  if significand = 0 || exponent < -616 then some (zero false)
  else if exponent < -308 then
    some (div (div f (powerOfTen 308)) (powerOfTen (-exponent - 308).toNat))
  else if exponent < 0 then some (div f (powerOfTen (-exponent).toNat))
  else if 308 < exponent then none
  else
    let product := mul f (powerOfTen exponent.toNat)
    if product.isInfinite then none else some product

/-- The integer of 64 bits that digits write: an unsigned one, or with a minus a
signed one.  Minus zero is none. -/
def integer? (negative : Bool) (n : Nat) : Option Int :=
  if negative then if 1 ≤ n && n ≤ signBit then some (-n) else none
  else some n

/-- The value of a number. -/
def Number.ofNumeral? (x : Decimal.Numeral) : Option Number :=
  let (significand, left) := absorbWhole 0 x.whole
  if x.fraction.isEmpty && x.exponent.isNone && left = 0 then
    match integer? x.negative significand with
    | some n => some (.integer n)
    | none => some (.float (ofRatio x.negative significand 1))
  else
    let (significand, taken) := absorbFraction significand x.fraction
    (scaleByTen? significand (left - taken + x.exponent.getD 0)).map fun f =>
      .float (ofMagnitude x.negative f.magnitude)

end RecordRules.Json
