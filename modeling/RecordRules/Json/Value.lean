import RecordRules.Fields
import RecordRules.Json.Document
import RecordRules.Json.Number

/-!
# The value of a JSON document

A document has a value when its arrays and objects nest no deeper than the
levels there are, every string is made of whole characters, and no number is
out of range.  Of the members of an object under one key the last counts.

A document may also give parts that have names (`Document.parts?`), as the
members of an object, where unknown keys are of no account and a known key
occurs once, or as the items of an array in the order of the names, where the
last ones may be left out.
-/

namespace RecordRules.Json

/-- The character of a pair of surrogate code units. -/
def surrogatePair (high low : Nat) : Char :=
  Char.ofNat (0x10000 + (high - 0xd800) * 0x400 + (low - 0xdc00))

/-- The characters of a string.  A code unit stands for a character of its own,
or is a high surrogate with a low one right after it. -/
def characters? : List StringPart → Option (List Char)
  | [] => some []
  | .char c :: rest => (characters? rest).map (c :: ·)
  | .unit high :: .unit low :: rest =>
    if high < 0xd800 || 0xdfff < high then
      (characters? (.unit low :: rest)).map (Char.ofNat high :: ·)
    else if high < 0xdc00 && 0xdc00 ≤ low && low ≤ 0xdfff then
      (characters? rest).map (surrogatePair high low :: ·)
    else none
  | .unit code :: rest =>
    if code < 0xd800 || 0xdfff < code then (characters? rest).map (Char.ofNat code :: ·)
    else none

/-- The text of a string. -/
def string? (parts : List StringPart) : Option String :=
  (characters? parts).map String.ofList

namespace Document

mutual

/-- The value of a document whose arrays and objects nest no deeper than the levels. -/
def value? (levels : Nat) : Document → Option Json
  | .null => some .null
  | .bool b => some (.bool b)
  | .number x => (Number.ofNumeral? x).map .number
  | .string parts => (string? parts).map .string
  | .array items =>
    match levels with
    | 0 => none
    | levels + 1 => (values? levels items).map .array
  | .object members =>
    match levels with
    | 0 => none
    | levels + 1 => (pairs? levels members).map fun pairs => .object (Fields.insertAll [] pairs)

/-- The values of the items of an array. -/
def values? (levels : Nat) : List Document → Option (List Json)
  | [] => some []
  | item :: items => do
    let v ← value? levels item
    let vs ← values? levels items
    return v :: vs

/-- The keys and values of the members of an object. -/
def pairs? (levels : Nat) : List (List StringPart × Document) → Option (List (String × Json))
  | [] => some []
  | (key, member) :: members => do
    let k ← string? key
    let v ← value? levels member
    let vs ← pairs? levels members
    return (k, v) :: vs

end

/-! ## Named parts -/

/-- The only part under the name; absent when there is none, refused when there
are several. -/
def onlyPart? (name : String) (members : List (String × Document)) : Option (Option Document) :=
  match members.filter fun p => p.1 = name with
  | [] => some none
  | [p] => some (some p.2)
  | _ => none

/-- The parts under the names, in their order, each with a document if it is given. -/
def parts? (names : List String) : Document → Option (List (Option Document))
  | .array items =>
    if names.length < items.length then none
    else some (items.map some ++ List.replicate (names.length - items.length) none)
  | .object members => do
    let members ← members.mapM fun p => (string? p.1).map fun key => (key, p.2)
    names.mapM fun name => onlyPart? name members
  | _ => none

/-- The text that a document writes. -/
def text? : Document → Option String
  | .string parts => string? parts
  | _ => none

/-- The natural number of 64 bits that a document writes as an integer. -/
def natural? : Document → Option Nat
  | .number x =>
    match Number.ofNumeral? x with
    | some (.integer n) => if 0 ≤ n then some n.toNat else none
    | _ => none
  | _ => none

end Document

/-! ## Texts -/

/-- The number of levels to which arrays and objects may nest in a text. -/
def nestingLimit : Nat := 127

/-- The value that a text writes. -/
def parse? (text : String) : Option Json :=
  Document.read? text >>= Document.value? nestingLimit

end RecordRules.Json
