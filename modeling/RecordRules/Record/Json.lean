import RecordRules.Error
import RecordRules.Json.Value
import RecordRules.Json.Writer
import RecordRules.Record
import RecordRules.Rule.Mapping
import RecordRules.Text

/-!
# Records as JSON

A record is an object of numbers and strings.  An integer of 64 bits stays one,
and every other number is a double precision number.  A record is read either
from a value (`Record.ofJson`) or from a document (`Record.ofDocument?`), in
which every member counts, also one that a later member replaces.
-/

namespace RecordRules

/-! ## Showing and writing -/

/-- The text of a value. -/
def FieldValue.display : FieldValue → String
  | integer n => toString n.toInt
  | number x =>
    if x.isNaN then "NaN"
    else if x.isInfinite then (if x.isNegative then "-inf" else "inf")
    else String.ofList (Decimal.Layout.plain.text x)
  | text s => s

/-- The JSON form of a value.  Only a finite number has one of its own. -/
def FieldValue.toJson : FieldValue → Json
  | integer n => .number (.integer n.toInt)
  | number x => if x.isFinite then .number (.float x) else .null
  | text s => .string s

/-- The JSON form of fields, in the order in which they are given. -/
def Record.objectOf (fields : List (String × FieldValue)) : Json :=
  .object (fields.map fun p => (p.1, p.2.toJson))

/-- The JSON form of a record. -/
def Record.toJson (r : Record) : Json := objectOf r.fields

/-- The record as JSON text. -/
def Record.toJsonText (r : Record) : String := r.toJson.render

/-! ## Reading -/

/-- The field value of a JSON number. -/
def FieldValue.ofNumber : Json.Number → FieldValue
  | .integer n =>
    if Int64.minValue.toInt ≤ n && n ≤ Int64.maxValue.toInt then .integer (Int64.ofInt n)
    else .number (Binary64.ofInt n)
  | .float x => .number x

/-- The field value of a JSON value: a number or a string. -/
def FieldValue.ofJson? : Json → Option FieldValue
  | .number x => some (ofNumber x)
  | .string s => some (.text s)
  | _ => none

/-- The field value of a document: a number or a string. -/
def FieldValue.ofDocument? : Json.Document → Option FieldValue
  | .number x => (Json.Number.ofNumeral? x).map ofNumber
  | .string parts => (Json.string? parts).map .text
  | _ => none

/-- What an error text calls a JSON value that is no object. -/
def Json.description : Json → String
  | .null => "null"
  | .bool b => "boolean `" ++ String.ofList (writeBool b) ++ "`"
  | .number (.integer n) => "integer `" ++ toString n ++ "`"
  | .number (.float x) => "floating point `" ++ String.ofList (Number.float x).write ++ "`"
  | .string s => "string " ++ String.ofList (Text.quote s.toList)
  | .array _ => "sequence"
  | .object _ => "map"

namespace Record

/-- The field of an object member. -/
def ofMember? (p : String × Json) : Option (String × FieldValue) :=
  (FieldValue.ofJson? p.2).map fun v => (p.1, v)

/-- The record that a JSON value writes. -/
def ofJson : Json → Except Error Record
  | .object members =>
    match members.mapM ofMember? with
    | some pairs => .ok (ofList pairs)
    | none => .error (.badSyntax (.record .badFieldValue))
  | other => .error (.badSyntax (.record (.notMapping other.description)))

/-- The record that a JSON text writes. -/
def parse (text : String) : Except Error Record := Json.parse text >>= ofJson

/-- The field of a document's member. -/
def ofDocumentMember? (p : List Json.StringPart × Json.Document) :
    Option (String × FieldValue) := do
  let name ← Json.string? p.1
  let v ← FieldValue.ofDocument? p.2
  return (name, v)

/-- The record that a document writes. -/
def ofDocument? : Json.Document → Option Record
  | .object members => (members.mapM ofDocumentMember?).map ofList
  | _ => none

end Record

end RecordRules
