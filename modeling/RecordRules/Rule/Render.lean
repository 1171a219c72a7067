import RecordRules.Rule.Basic
import RecordRules.Token

/-!
# Writing a rule

The text of a rule in its own language.  Chains nest to the right, so only a
combination on the left of another is put in parentheses.  A word that would
not be read back as itself (nothing, a keyword, a symbol, a text with a quote at
one end) is written between quotes.  Blanks and parentheses inside a word have
no written form: a text that holds them is not read back.
-/

namespace RecordRules.Rule

/-- Whether the text, written as it is, reads as the literal it is. -/
def standsForItself (word : List Char) : Bool :=
  !word.isEmpty && Token.ofWord word == .literal (String.ofList word)

/-- A field name or a value. -/
def renderWord (text : String) : String :=
  if standsForItself text.toList then text else "'" ++ text ++ "'"

/-- The operator of a condition: a comparison symbol as it is, else a word. -/
def renderOperator (text : String) : String :=
  if (Operator.ofSymbol? text).isSome then text else renderWord text

/-- A condition. -/
def renderCondition (c : Condition) : String :=
  renderWord c.field ++ " " ++ renderOperator c.operator ++ " " ++ renderWord c.value

/-- The text of the rule. -/
def render : Rule → String
  | condition c => renderCondition c
  | combine op l r =>
    let left := if l.isCondition then l.render else "(" ++ l.render ++ ")"
    left ++ " " ++ op ++ " " ++ r.render

end RecordRules.Rule
