import RecordRules.Binary64

/-!
# JSON values

A number is an integer or a double precision number, depending on how it is
written.  The members of an object are kept in the order of their keys, one
under each key.  Error texts name a value by its kind.
-/

namespace RecordRules

namespace Json

/-- A JSON number. -/
inductive Number
  | integer (n : Int)
  | float (x : Binary64)
  deriving DecidableEq

/-- The kind of a JSON value. -/
inductive Kind
  | null
  | boolean
  | number
  | string
  | array
  | object
  deriving DecidableEq

/-- The word for the kind in an error text. -/
def Kind.name : Kind → String
  | .null => "null"
  | .boolean => "boolean"
  | .number => "number"
  | .string => "string"
  | .array => "array"
  | .object => "object"

end Json

/-- A JSON value. -/
inductive Json
  | null
  | bool (b : Bool)
  | number (x : Json.Number)
  | string (s : String)
  | array (items : List Json)
  | object (members : List (String × Json))

/-- The kind of the value. -/
def Json.kind : Json → Json.Kind
  | .null => .null
  | .bool _ => .boolean
  | .number _ => .number
  | .string _ => .string
  | .array _ => .array
  | .object _ => .object

end RecordRules
