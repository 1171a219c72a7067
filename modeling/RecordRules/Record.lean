import RecordRules.Binary64
import RecordRules.Fields

/-!
# Records

The data that rules are evaluated against: a flat map from field names to
integers, double precision numbers and texts.
-/

namespace RecordRules

/-- The value of a field. -/
inductive FieldValue
  | integer (n : Int64)
  | number (x : Binary64)
  | text (s : String)
  deriving DecidableEq

/-- The word for the type of a value. -/
def FieldValue.typeName : FieldValue → String
  | integer _ | number _ => "number"
  | text _ => "string"

/-- A record: its fields, in the order of their names. -/
structure Record where
  fields : List (String × FieldValue)
  sorted : Fields.Sorted fields
  deriving DecidableEq

namespace Record

/-- The record without fields. -/
def empty : Record := ⟨[], List.Pairwise.nil⟩

/-- The record with the value under the name, which replaces the one that was there. -/
def insert (r : Record) (name : String) (value : FieldValue) : Record :=
  ⟨Fields.insert name value r.fields, r.sorted.insert name value⟩

/-- The value of a field. -/
def get? (r : Record) (name : String) : Option FieldValue := Fields.get? name r.fields

/-- The number of fields. -/
def size (r : Record) : Nat := r.fields.length

def isEmpty (r : Record) : Bool := r.fields.isEmpty

/-- The record that the pairs, inserted one after the other, make of a record. -/
def insertAll (r : Record) (pairs : List (String × FieldValue)) : Record :=
  ⟨Fields.insertAll r.fields pairs, r.sorted.insertAll pairs⟩

/-- The record of the pairs; of two under one name the later counts. -/
def ofList (pairs : List (String × FieldValue)) : Record := empty.insertAll pairs

theorem get?_insert (r : Record) (name other : String) (value : FieldValue) :
    (r.insert name value).get? other = if name = other then some value else r.get? other :=
  Fields.get?_insert name other value r.fields

end Record

end RecordRules
