import RecordRules.Binary64

/-!
# Shortest decimals

The text of a finite number is a minus where its sign bit is set, and the digits of its
shortest decimal, either in place or with an exponent (`Layout.text`).  The two layouts
in use are `Layout.json`, for JSON text, and `Layout.plain`, for showing values.

The shortest decimal is the one with the fewest digits that rounds to a given double
precision number (`shortest`).  The decimals that round to it fill an interval around it,
which includes its ends where the last bit of the number is even.  On the coarsest grid
of multiples of a power of ten that has a point in the interval, one of the two
neighbours of the number is such a point; of two, the nearer is taken.

All lengths are counted in quarters of the unit 2^-1074, so that the ends of the
interval are whole numbers.
-/

namespace RecordRules.Decimal

/-- The decimal number `significand * 10 ^ exponent`. -/
structure Scaled where
  significand : Nat
  exponent : Int
  deriving DecidableEq

/-- Which of two decimals on a grid is taken for a number half way between them. -/
inductive Tie
  | toEven
  | up
  deriving DecidableEq

/-- The decimals that round to a number. -/
structure Interval where
  low : Nat
  middle : Nat
  high : Nat
  closed : Bool
  deriving DecidableEq

/-- The interval of a magnitude: half way to the next number on either side.
Below a power of two the numbers lie twice as close. -/
def interval (magnitude : Nat) : Interval :=
  let exponent := magnitude / Binary64.leadingBit
  let step := 1 <<< (exponent - 1)
  let middle := 4 * Binary64.unitsOf magnitude
  let below := if magnitude % Binary64.leadingBit = 0 && 1 < exponent then step else 2 * step
  ⟨middle - below, middle, middle + 2 * step, magnitude % 2 == 0⟩

namespace Interval

/-- Whether the quotient lies in the interval. -/
def holds (i : Interval) (num den : Nat) : Bool :=
  if i.closed then i.low * den ≤ num && num ≤ i.high * den
  else i.low * den < num && num < i.high * den

/-- The multiple of `10 ^ exponent` in the interval that is nearest to the middle. -/
def nearestMultiple? (i : Interval) (tie : Tie) (exponent : Int) : Option Nat :=
  let up := Nat.pow 10 exponent.toNat * (4 * Binary64.unitsPerOne)
  let down := Nat.pow 10 (-exponent).toNat
  let n := i.middle * down / up
  let twice := 2 * (i.middle * down % up)
  match i.holds (n * up) down, i.holds ((n + 1) * up) down with
  | false, false => none
  | true, false => some n
  | false, true => some (n + 1)
  | true, true =>
    if twice < up then some n
    else if up < twice then some (n + 1)
    else match tie with
      | .up => some (n + 1)
      | .toEven => some (n + n % 2)

/-- The decimal on the coarsest grid that has one in the interval, among the
grids from `10 ^ exponent` downwards. -/
def coarsest (i : Interval) (tie : Tie) : (grids : Nat) → (exponent : Int) → Scaled
  | 0, exponent => ⟨0, exponent⟩
  | grids + 1, exponent =>
    match i.nearestMultiple? tie exponent with
    | some n => ⟨n, exponent⟩
    | none => coarsest i tie grids (exponent - 1)

end Interval

/-- A power of ten that is above every number of the given bit length, counted
in quarters of the unit.  The factor is the decimal logarithm of two. -/
def powerAbove (bits : Nat) : Int := ((bits : Int) - 1076) * 30103 / 100000 + 2

/-- The shortest decimal of a magnitude.  Twenty-four grids below a power of ten
above the number are as fine as the numbers are. -/
def shortest (tie : Tie) (magnitude : Nat) : Scaled :=
  if magnitude = 0 then ⟨0, 0⟩
  else
    let i := interval magnitude
    i.coarsest tie 24 (powerAbove (i.middle.log2 + 1))

/-! ## Layouts -/

/-- The decisions of a number format. -/
structure Layout where
  /-- What becomes of a number half way between two shortest decimals. -/
  tie : Tie
  /-- Whether digits are written in place when the first of them stands for this power of ten. -/
  inPlace : Int → Bool
  /-- What follows the digits of a whole number written in place. -/
  wholeTail : List Char

namespace Layout

/-- Digits in place from 10^-5 up to below 10^16, always with a decimal. -/
def json : Layout := ⟨.toEven, fun e => -5 ≤ e && e ≤ 15, ".0".toList⟩

/-- Digits always in place, without a point in whole numbers. -/
def plain : Layout := ⟨.up, fun _ => true, []⟩

end Layout

/-- Digits in place, the first of which stands for the power of ten `top`. -/
def digitsInPlace (wholeTail digits : List Char) (top : Int) : List Char :=
  if top < 0 then '0' :: '.' :: List.replicate (-top - 1).toNat '0' ++ digits
  else
    let places := top.toNat + 1
    if digits.length ≤ places then
      digits ++ List.replicate (places - digits.length) '0' ++ wholeTail
    else digits.take places ++ '.' :: digits.drop places

/-- Digits with a point after the first of them, and an exponent with its sign. -/
def digitsWithExponent (digits : List Char) (top : Int) : List Char :=
  let mantissa := if digits.length ≤ 1 then digits else digits.take 1 ++ '.' :: digits.drop 1
  mantissa ++ 'e' :: (if top < 0 then '-' else '+') :: Nat.toDigits 10 top.natAbs

/-- The text of a finite number. -/
def Layout.text (layout : Layout) (x : Binary64) : List Char :=
  let decimal := shortest layout.tie x.magnitude
  let digits := Nat.toDigits 10 decimal.significand
  let top := decimal.exponent + digits.length - 1
  let body :=
    if layout.inPlace top then digitsInPlace layout.wholeTail digits top
    else digitsWithExponent digits top
  if x.isNegative then '-' :: body else body

end RecordRules.Decimal
