/-!
# Double precision numbers

The 64-bit words of the binary64 format and the numbers they stand for.  A word
is a sign bit over 63 bits of magnitude, and the magnitude grows with its bits:
below `infinity` it is a whole number of units of 2^-1074 (`units`), at
`infinity` it is infinite, and above it the word is no number.

Values are compared exactly (`order`), and also with integers (`orderInteger`).
A quotient of natural numbers is rounded to the nearest number, and of two that
are equally near to the one with an even last bit (`ofRatio`).
-/

namespace RecordRules

/-- A double precision number, given by its bits. -/
structure Binary64 where
  bits : UInt64
  deriving DecidableEq

namespace Binary64

/-! ## Words -/

/-- The sign bit of a word, 2^63. -/
def signBit : Nat := 0x8000000000000000

/-- The lowest bit of the exponent, 2^52, which is also the leading bit that a
word leaves out. -/
def leadingBit : Nat := 0x10000000000000

/-- The magnitude bits of infinity. -/
def infinityBits : Nat := 0x7ff0000000000000

/-- The word with the given sign and magnitude bits. -/
def ofMagnitude (negative : Bool) (magnitude : Nat) : Binary64 :=
  ⟨UInt64.ofNat (if negative then signBit + magnitude else magnitude)⟩

/-- Whether the sign bit is set. -/
def isNegative (x : Binary64) : Bool := signBit ≤ x.bits.toNat

/-- The bits below the sign. -/
def magnitude (x : Binary64) : Nat := x.bits.toNat % signBit

def isNaN (x : Binary64) : Bool := infinityBits < x.magnitude

def isInfinite (x : Binary64) : Bool := x.magnitude == infinityBits

def isFinite (x : Binary64) : Bool := x.magnitude < infinityBits

/-- Zero, with a sign. -/
def zero (negative : Bool) : Binary64 := ofMagnitude negative 0

/-- Infinity, with a sign. -/
def infinity (negative : Bool) : Binary64 := ofMagnitude negative infinityBits

/-- The word that stands for every word that is no number. -/
def nan : Binary64 := ⟨0x7ff8000000000000⟩

/-! ## Values -/

/-- The number of units in one, 2^1074. -/
def unitsPerOne : Nat := 1 <<< 1074

/-- The whole number of units of 2^-1074 that a magnitude stands for: the
fraction as it is in the lowest binade, and with its leading bit, shifted by the
exponent, in the others. -/
def unitsOf (magnitude : Nat) : Nat :=
  let exponent := magnitude / leadingBit
  let fraction := magnitude % leadingBit
  if exponent = 0 then fraction else (leadingBit + fraction) <<< (exponent - 1)

/-- The value in units of 2^-1074.  Infinity counts as the value one binade
above the greatest finite numbers. -/
def units (x : Binary64) : Int :=
  if x.isNegative then -(unitsOf x.magnitude : Int) else unitsOf x.magnitude

/-- Whether a relation holds of two values; none does where a word is no number. -/
def relate (p : Int → Int → Bool) (x y : Binary64) : Bool :=
  !x.isNaN && !y.isNaN && p x.units y.units

/-- The order of two values; a word that is no number has none. -/
def order (x y : Binary64) : Option Ordering :=
  if x.isNaN || y.isNaN then none else some (compare x.units y.units)

/-- The value without its fraction. -/
def truncate (x : Binary64) : Int := x.units.tdiv unitsPerOne

/-- The order of an integer and a value.  At 2^63 and above every value exceeds
the integer, below -2^63 every value is under it; between them the whole part is
an integer of 64 bits, and where it equals the integer the fraction decides. -/
def orderInteger (n : Int64) (x : Binary64) : Option Ordering :=
  if x.isNaN then none
  else if (signBit * unitsPerOne : Nat) ≤ x.units then some .lt
  else if x.units < -(signBit * unitsPerOne : Nat) then some .gt
  else
    let whole := Int64.ofIntClamp x.truncate
    match compare n.toInt whole.toInt with
    | .eq => some (compare (x.truncate * unitsPerOne) x.units)
    | o => some o

/-! ## Rounding -/

/-- The natural number nearest to a quotient, an exact half going to the even one. -/
def divideHalfEven (num den : Nat) : Nat :=
  let q := num / den
  let twice := 2 * (num % den)
  if twice < den then q else if den < twice then q + 1 else q + q % 2

/-- The magnitude bits of the number nearest to a quotient.  The shift leaves
53 bits before the point, and rounding up to a power of two carries into the
exponent. -/
def magnitudeOfRatio (num den : Nat) : Nat :=
  let scaled := num * unitsPerOne
  let shift := (scaled / den).log2 - 52
  min (shift * leadingBit + divideHalfEven scaled (den <<< shift)) infinityBits

/-- The number nearest to a quotient, with a sign. -/
def ofRatio (negative : Bool) (num den : Nat) : Binary64 :=
  ofMagnitude negative (magnitudeOfRatio num den)

/-- The number nearest to an integer. -/
def ofInt (n : Int) : Binary64 := ofRatio (n < 0) n.natAbs 1

/-- The rounded product of two finite numbers. -/
def mul (x y : Binary64) : Binary64 :=
  ofRatio (x.isNegative != y.isNegative) (unitsOf x.magnitude * unitsOf y.magnitude)
    (unitsPerOne * unitsPerOne)

/-- The rounded quotient of two finite numbers, the second of which is not zero. -/
def div (x y : Binary64) : Binary64 :=
  ofRatio (x.isNegative != y.isNegative) (unitsOf x.magnitude) (unitsOf y.magnitude)

end Binary64

end RecordRules
