import RecordRules.Binary64
import RecordRules.Text

/-!
# Decimal numerals

A decimal numeral taken apart: sign, digits before and after the point, and the
exponent where one is written.  Its value is `significand · 10 ^ scale`, and
`toBinary64` is the double precision number nearest to it.

A literal of a rule is a number (`literal?`) when, without the blanks at its ends, it is
an optional sign followed by `inf`, `infinity` or `nan` in letters of either case, or by
decimal digits with an optional point among them and an optional exponent.  At least one
digit is written beside the point, and at least one in an exponent.
-/

namespace RecordRules.Decimal

/-- A written decimal number. -/
structure Numeral where
  negative : Bool
  whole : List Nat
  fraction : List Nat
  exponent : Option Int
  deriving DecidableEq

/-- The number that a list of decimal digits writes. -/
def ofDigits (digits : List Nat) : Nat := digits.foldl (fun n d => 10 * n + d) 0

/-- The digit that a character writes. -/
def digitValue (c : Char) : Nat := c.toNat - '0'.toNat

/-- The decimal digits at the head of a text, and the text after them. -/
def takeDigits (cs : List Char) : List Nat × List Char :=
  ((cs.takeWhile Char.isDigit).map digitValue, cs.dropWhile Char.isDigit)

/-! ## Parts of a written number -/

/-- The sign at the head of a text (whether it is a minus), and the text after it. -/
def takeSign : List Char → Bool × List Char
  | '+' :: cs => (false, cs)
  | '-' :: cs => (true, cs)
  | cs => (false, cs)

/-- The integer that a text of an optional sign and digits writes. -/
def signedInteger? (cs : List Char) : Option Int :=
  let (negative, cs) := takeSign cs
  match takeDigits cs with
  | (d :: ds, []) => some (if negative then -(ofDigits (d :: ds) : Int) else ofDigits (d :: ds))
  | _ => none

/-- The exponent that follows the digits of a numeral: nothing, or `e` and an integer. -/
def exponent? : List Char → Option (Option Int)
  | [] => some none
  | c :: cs => if c = 'e' || c = 'E' then (signedInteger? cs).map some else none

/-- The digits after a point at the head of a text, and the text after them. -/
def takeFraction : List Char → List Nat × List Char
  | '.' :: cs => takeDigits cs
  | cs => ([], cs)

/-! ## Values -/

namespace Numeral

/-- All digits of the numeral. -/
def digits (x : Numeral) : List Nat := x.whole ++ x.fraction

/-- The digits of the numeral read as one number. -/
def significand (x : Numeral) : Nat := ofDigits x.digits

/-- The power of ten by which the significand is multiplied. -/
def scale (x : Numeral) : Int := x.exponent.getD 0 - x.fraction.length

/-- The number nearest to the numeral.  With `top` the numeral is below
`10 ^ top` and not below a tenth of it, so from 10^310 on it is infinite, and
below 10^-330 it is zero, whatever its digits. -/
def toBinary64 (x : Numeral) : Binary64 :=
  let top := x.scale + (x.digits.dropWhile (· == 0)).length
  if x.significand = 0 || top < -330 then .zero x.negative
  else if 310 < top then .infinity x.negative
  else .ofRatio x.negative (x.significand * Nat.pow 10 x.scale.toNat) (Nat.pow 10 (-x.scale).toNat)

end Numeral

/-! ## Literals -/

/-- The numeral with the given sign and the digits, point and exponent of a text. -/
def numeral? (negative : Bool) (cs : List Char) : Option Numeral := do
  let (whole, cs) := takeDigits cs
  let (fraction, cs) := takeFraction cs
  if whole.isEmpty && fraction.isEmpty then none
  let exponent ← exponent? cs
  return ⟨negative, whole, fraction, exponent⟩

/-- The number that a name stands for, in letters of either case. -/
def namedNumber? (negative : Bool) (cs : List Char) : Option Binary64 :=
  match String.ofList (cs.map Char.toLower) with
  | "inf" => some (.infinity negative)
  | "infinity" => some (.infinity negative)
  | "nan" => some .nan
  | _ => none

/-- The number that a literal writes. -/
def literal? (text : String) : Option Binary64 :=
  let (negative, cs) := takeSign (Text.trim text.toList)
  match numeral? negative cs with
  | some x => some x.toBinary64
  | none => namedNumber? negative cs

end RecordRules.Decimal
