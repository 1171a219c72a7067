import RecordRules.Connective
import RecordRules.Json.Basic
import RecordRules.Operator

/-!
# Errors

Every way in which reading or evaluating a rule fails, as a cause.  The wording
is in one place: `Error.message`.  An error belongs to one of three kinds,
which a caller can tell apart without reading the message.
-/

namespace RecordRules

/-- The three places of a condition. -/
inductive Slot
  | field
  | operator
  | value
  deriving DecidableEq

/-- The name of the place, in error texts and as a key of the mapping form. -/
def Slot.name : Slot → String
  | .field => "field"
  | .operator => "operator"
  | .value => "value"

/-- The two sub-rules of a combination. -/
inductive Side
  | left
  | right
  deriving DecidableEq

/-- The name of the side, in error texts and as a key of the mapping form. -/
def Side.name : Side → String
  | .left => "left"
  | .right => "right"

/-- How a JSON value fails to be the mapping form of a rule. -/
inductive NodeFault
  | notMapping (found : Json.Kind)
  | noType
  | typeNotString (found : Json.Kind)
  | unknownType (text : String)
  | conditionWithoutPayload
  | payloadNotMapping
  | slotMissing (slot : Slot)
  | slotNotString (slot : Slot) (found : Json.Kind)
  | literalNotScalar (found : Json.Kind)
  | connectiveNotString
  | childMissing (side : Side)
  deriving DecidableEq

/-- How a JSON value fails to be a record: it is no mapping but the value
described, or one of its fields is neither a number nor a text. -/
inductive RecordFault
  | notMapping (found : String)
  | badFieldValue
  deriving DecidableEq

/-- How a text or a JSON value fails to denote a rule, a record or a request. -/
inductive SyntaxFault
  | emptyRule
  | tooDeep (limit : Nat)
  | endOfRule
  | endAfter (c : Connective)
  | unclosedGroup
  | unmatchedClose
  | trailingToken (text : String)
  | shortCondition (found : List String)
  | misplacedToken (slot : Slot) (text : String)
  | node (fault : NodeFault)
  | record (fault : RecordFault)
  | malformedJson
  | described (text : String)
  deriving DecidableEq

/-- Why a rule has no verdict. -/
inductive Error
  | badSyntax (fault : SyntaxFault)
  | fieldNotFound (name : String)
  | typeMismatch (operator : Operator)
  | depthExceeded (limit : Nat)
  | unsupportedOperator (text : String)
  deriving DecidableEq

/-- The coarse classification of an error. -/
inductive ErrorKind
  | badSyntax
  | evaluation
  | unsupportedOperator
  deriving DecidableEq

/-- The name of the kind. -/
def ErrorKind.name : ErrorKind → String
  | .badSyntax => "SyntaxError"
  | .evaluation => "EvaluationError"
  | .unsupportedOperator => "UnsupportedOperatorError"

/-! ## Wording -/

/-- The text of a fault of the mapping form. -/
def NodeFault.message : NodeFault → String
  | .notMapping found => "Rule node must be a mapping, found " ++ found.name
  | .noType => "Rule node is missing 'type'"
  | .typeNotString found => "Rule node 'type' must be a string, found " ++ found.name
  | .unknownType text => "Unknown node type '" ++ text ++ "'"
  | .conditionWithoutPayload => "Operand node is missing 'value'"
  | .payloadNotMapping => "Operand 'value' must be a mapping with field, operator and value"
  | .slotMissing slot => "Operand is missing '" ++ slot.name ++ "'"
  | .slotNotString slot found =>
    "Operand '" ++ slot.name ++ "' must be a string, found " ++ found.name
  | .literalNotScalar found => "Operand 'value' must be a scalar, found " ++ found.name
  | .connectiveNotString => "Operator node 'value' must be an operator string"
  | .childMissing side => "Operator node is missing '" ++ side.name ++ "' child"

/-- The text of a fault of a record. -/
def RecordFault.message : RecordFault → String
  | .notMapping found => "invalid type: " ++ found ++ ", expected a map"
  | .badFieldValue => "data did not match any variant of untagged enum FieldValue"

/-- The text for nesting beyond a limit. -/
def tooDeepMessage (limit : Nat) : String :=
  "Rule nesting exceeds maximum depth of " ++ toString limit

/-- The text of a syntactic fault.  Where a text is not JSON this is only how the message
begins; what the JSON reader has to say of the place comes after it. -/
def SyntaxFault.message : SyntaxFault → String
  | .emptyRule => "Empty rule string"
  | .tooDeep limit => tooDeepMessage limit
  | .endOfRule => "Unexpected end of expression"
  | .endAfter c => "Unexpected end of expression after '" ++ c.keyword ++ "'"
  | .unclosedGroup => "Missing closing parenthesis"
  | .unmatchedClose => "Unmatched closing parenthesis"
  | .trailingToken text => "Unexpected token '" ++ text ++ "' after end of expression"
  | .shortCondition found =>
    "Invalid condition format: expected FIELD OPERATOR VALUE, found '" ++
      String.intercalate " " found ++ "'"
  | .misplacedToken slot text =>
    "Expected condition " ++ slot.name ++ " but found '" ++ text ++ "'"
  | .node fault => fault.message
  | .record fault => "Invalid record: " ++ fault.message
  | .malformedJson => "malformed JSON"
  | .described text => text

namespace Error

/-- The text of an error.  A type mismatch always sets a numeric field against
a literal that is no number. -/
def message : Error → String
  | badSyntax fault => "Invalid rule syntax: " ++ fault.message
  | fieldNotFound name => "Field " ++ name ++ " not found in data"
  | typeMismatch operator =>
    "Cannot compare number with string using '" ++ operator.symbol ++ "'"
  | depthExceeded limit => tooDeepMessage limit
  | unsupportedOperator text => "Unsupported operator: " ++ text

/-- The kind of an error. -/
def kind : Error → ErrorKind
  | badSyntax _ => .badSyntax
  | fieldNotFound _ | typeMismatch _ | depthExceeded _ => .evaluation
  | unsupportedOperator _ => .unsupportedOperator

/-- Every failure is caused by the caller's rule or record. -/
def isClientFault : Error → Bool := fun _ => true

/-- The error of a text or JSON value nested deeper than the limit. -/
abbrev nestedTooDeep (limit : Nat) : Error := badSyntax (.tooDeep limit)

/-- The error of a text that is not JSON, or not JSON of the form asked for. -/
abbrev malformedJson : Error := badSyntax .malformedJson

end Error

end RecordRules
