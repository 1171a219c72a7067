import RecordRules.Json.Lexeme

/-!
# JSON documents

A document is a JSON text taken apart without loss: numbers as they are
written, strings with their escapes, the members of objects in the order of the
text and with every repetition.  It is built from lexemes by a machine with a
stack of the arrays and objects that are still open (`State.step`).
-/

namespace RecordRules.Json

/-- A JSON text taken apart. -/
inductive Document
  | null
  | bool (b : Bool)
  | number (x : Decimal.Numeral)
  | string (parts : List StringPart)
  | array (items : List Document)
  | object (members : List (List StringPart × Document))

namespace Document

/-- The members of an object that are complete, the last of them first. -/
abbrev Members := List (List StringPart × Document)

/-- An array or an object that is still open around a value: its complete items
or members, the last of them first, and the key that the value belongs to. -/
inductive Frame
  | array (items : List Document)
  | object (members : Members) (key : List StringPart)

/-- What may come next: a value; the first item of an array, or its end; the
first key of an object, or its end; a later key; the colon after a key; or,
where a value is complete, what continues or ends the array or object around it. -/
inductive State
  | value (stack : List Frame)
  | firstItem (stack : List Frame)
  | firstKey (stack : List Frame)
  | key (stack : List Frame) (members : Members)
  | colon (stack : List Frame) (members : Members) (key : List StringPart)
  | complete (stack : List Frame) (value : Document)

namespace State

/-- A lexeme where a value must come. -/
def start (stack : List Frame) : Lexeme → Option State
  | .null => some (complete stack .null)
  | .bool b => some (complete stack (.bool b))
  | .number x => some (complete stack (.number x))
  | .string parts => some (complete stack (.string parts))
  | .openArray => some (firstItem stack)
  | .openObject => some (firstKey stack)
  | _ => none

/-- What a lexeme leads to. -/
def step : State → Lexeme → Option State
  | value stack, l => start stack l
  | firstItem stack, .closeArray => some (complete stack (.array []))
  | firstItem stack, l => start (.array [] :: stack) l
  | firstKey stack, .closeObject => some (complete stack (.object []))
  | firstKey stack, .string k => some (colon stack [] k)
  | key stack members, .string k => some (colon stack members k)
  | colon stack members k, .colon => some (value (.object members k :: stack))
  | complete (.array items :: stack) v, .comma => some (value (.array (v :: items) :: stack))
  | complete (.array items :: stack) v, .closeArray =>
    some (complete stack (.array (v :: items).reverse))
  | complete (.object members k :: stack) v, .comma => some (key stack ((k, v) :: members))
  | complete (.object members k :: stack) v, .closeObject =>
    some (complete stack (.object ((k, v) :: members).reverse))
  | _, _ => none

end State

/-- The document that the lexemes make up. -/
def ofLexemes? (lexemes : List Lexeme) : Option Document :=
  match lexemes.foldlM State.step (.value []) with
  | some (.complete [] v) => some v
  | _ => none

/-- The document that a text writes. -/
def read? (text : String) : Option Document := lexemes? text.toList >>= ofLexemes?

end Document

end RecordRules.Json
