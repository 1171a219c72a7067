import RecordRules.Json.Value
import RecordRules.Record.Json

/-!
# Requests

What a caller sends as JSON text: a rule to be created, or a rule in mapping
form with a record to evaluate it on.
-/

namespace RecordRules

/-- Asks for the mapping form of a rule. -/
structure CreateRequest where
  rule : String

/-- Asks for the verdict of a rule in mapping form on a record. -/
structure EvaluateRequest where
  rule : Json
  data : Record

namespace CreateRequest

/-- The request that a document writes. -/
def ofDocument? (d : Json.Document) : Option CreateRequest :=
  match d.parts? ["rule_string"] with
  | some [some rule] => rule.text?.map CreateRequest.mk
  | _ => none

/-- The request that a JSON text writes. -/
def parse (text : String) : Except Error CreateRequest :=
  match Json.Document.read? text >>= ofDocument? with
  | some request => .ok request
  | none => .error .malformedJson

/-- The request as a JSON value. -/
def toJson (request : CreateRequest) : Json := .object [("rule_string", .string request.rule)]

end CreateRequest

namespace EvaluateRequest

/-- The rule of a request: null where none is given.  The request itself is the
first level of nesting. -/
def ruleValue? : Option Json.Document → Option Json
  | none => some .null
  | some d => d.value? (Json.nestingLimit - 1)

/-- The request that a document writes. -/
def ofDocument? (d : Json.Document) : Option EvaluateRequest :=
  match d.parts? ["rule", "data"] with
  | some [rule, some data] => do
    let rule ← ruleValue? rule
    let data ← Record.ofDocument? data
    return ⟨rule, data⟩
  | _ => none

/-- The request that a JSON text writes. -/
def parse (text : String) : Except Error EvaluateRequest :=
  match Json.Document.read? text >>= ofDocument? with
  | some request => .ok request
  | none => .error .malformedJson

/-- The request as a JSON value. -/
def toJson (request : EvaluateRequest) : Json :=
  .object [("data", request.data.toJson), ("rule", request.rule)]

end EvaluateRequest

end RecordRules
