import RecordRules.Decimal.Shortest
import RecordRules.Json.Basic

/-!
# Writing JSON

The compact text of a JSON value: no blanks, members in the order in which the
object holds them.  A string escapes the quote, the backslash and the control
characters below U+0020, and holds every other character as it is.
-/

namespace RecordRules.Json

/-! ## Scalars -/

/-- The hexadecimal digit of a number below sixteen, in lower case. -/
def hexDigit (n : Nat) : Char := Nat.digitChar n

/-- A character inside a string. -/
def writeChar (c : Char) : List Char :=
  if c = '"' then ['\\', '"']
  else if c = '\\' then ['\\', '\\']
  else if c.toNat = 0x08 then ['\\', 'b']
  else if c.toNat = 0x09 then ['\\', 't']
  else if c.toNat = 0x0a then ['\\', 'n']
  else if c.toNat = 0x0c then ['\\', 'f']
  else if c.toNat = 0x0d then ['\\', 'r']
  else if c.toNat < 0x20 then
    ['\\', 'u', '0', '0', hexDigit (c.toNat / 16), hexDigit (c.toNat % 16)]
  else [c]

/-- A string with its quotes. -/
def writeString (s : String) : List Char :=
  '"' :: s.toList.flatMap writeChar ++ ['"']

/-- An integer. -/
def writeInt (n : Int) : List Char :=
  if n < 0 then '-' :: Nat.toDigits 10 n.natAbs else Nat.toDigits 10 n.natAbs

/-- A number.  A word that is no finite number has no JSON form but `null`. -/
def Number.write : Number → List Char
  | integer n => writeInt n
  | float x => if x.isFinite then Decimal.Layout.json.text x else "null".toList

/-- A truth value. -/
def writeBool (b : Bool) : List Char := (if b then "true" else "false").toList

/-! ## Values -/

mutual

/-- The text of a value, with `rest` after it. -/
def writeBefore (rest : List Char) : Json → List Char
  | .null => "null".toList ++ rest
  | .bool b => writeBool b ++ rest
  | .number x => x.write ++ rest
  | .string s => writeString s ++ rest
  | .array [] => '[' :: ']' :: rest
  | .array (item :: items) => '[' :: writeBefore (writeItems rest items) item
  | .object [] => '{' :: '}' :: rest
  | .object ((key, value) :: members) =>
    '{' :: writeString key ++ ':' :: writeBefore (writeMembers rest members) value

/-- The items of an array after its first, and the bracket, with `rest` after them. -/
def writeItems (rest : List Char) : List Json → List Char
  | [] => ']' :: rest
  | item :: items => ',' :: writeBefore (writeItems rest items) item

/-- The members of an object after its first, and the brace, with `rest` after them. -/
def writeMembers (rest : List Char) : List (String × Json) → List Char
  | [] => '}' :: rest
  | (key, value) :: members =>
    ',' :: writeString key ++ ':' :: writeBefore (writeMembers rest members) value

end

/-- The characters of the text of a value. -/
def write (j : Json) : List Char := writeBefore [] j

/-- The text of a value. -/
def render (j : Json) : String := String.ofList j.write

end RecordRules.Json
