import RecordRules.Error
import RecordRules.Rule.Basic
import RecordRules.Token

/-!
# Reading a rule

    Expression := Term ((AND | OR) Expression)?
    Term       := '(' Expression ')' | Field Operator Value

`AND` and `OR` bind alike and chain to the right.  Each expression after a
connective or inside parentheses lies one level below the expression around
it, and no expression lies deeper than the limit.  Readers take the tokens that
are left and return the rule they read with the tokens after it.

The token lists that write a rule are also given as derivations (`Expression`, `Term`),
with the nesting of each derivation.  Parentheses leave no trace in the rule.
-/

namespace RecordRules.Rule

/-! ## Derivations -/

mutual

/-- `Expression ts t n`: the tokens `ts` write the rule `t` as an expression
that nests `n` levels. -/
inductive Expression : List Token → Rule → Nat → Prop
  | term {ts t n} : Term ts t n → Expression ts t (n + 1)
  | chain {ts t n us u m} (c : Connective) : Term ts t n → Expression us u m →
    Expression (ts ++ .connective c :: us) (.combine c.keyword t u) (max n m + 1)

/-- `Term ts t n`: the tokens `ts` write the rule `t` as a term whose
expressions nest `n` levels. -/
inductive Term : List Token → Rule → Nat → Prop
  | condition {f o v : Token} {field operator value : String} :
    f.word? = some field → o.word? = some operator → v.word? = some value →
    Term [f, o, v] (.condition ⟨field, operator, value⟩) 0
  | group {ts t n} : Expression ts t n → Term (.openParen :: ts ++ [.closeParen]) t n

end

/-! ## Readers -/

/-- What a reader answers: a rule and the tokens after it. -/
abbrev Reading := Except Error (Rule × List Token)

/-- The text of the token at one of the places of a condition. -/
def readSlot (slot : Slot) (token : Token) : Except Error String :=
  match token.word? with
  | some text => .ok text
  | none => .error (.badSyntax (.misplacedToken slot token.text))

/-- Reads a condition: three tokens, each a comparison or a literal. -/
def readCondition : List Token → Reading
  | field :: operator :: value :: rest => do
    let field ← readSlot .field field
    let operator ← readSlot .operator operator
    let value ← readSlot .value value
    return (condition ⟨field, operator, value⟩, rest)
  | tokens => .error (.badSyntax (.shortCondition (tokens.map Token.text)))

/-- Reads a term, given the reader of the expression inside parentheses. -/
def readTerm (inner : List Token → Reading) : List Token → Reading
  | [] => .error (.badSyntax .endOfRule)
  | .openParen :: rest => do
    let (t, rest) ← inner rest
    match rest with
    | .closeParen :: rest => return (t, rest)
    | _ => .error (.badSyntax .unclosedGroup)
  | tokens => readCondition tokens

/-- Reads an expression that may nest as many levels as are left.  `limit` is
the number of levels there were at first. -/
def readExpression (limit : Nat) : (levels : Nat) → List Token → Reading
  | 0, _ => .error (.nestedTooDeep limit)
  | levels + 1, tokens => do
    let (t, rest) ← readTerm (readExpression limit levels) tokens
    match rest with
    | [.connective c] => .error (.badSyntax (.endAfter c))
    | .connective c :: rest => do
      let (u, rest) ← readExpression limit levels rest
      return (combine c.keyword t u, rest)
    | rest => return (t, rest)

/-- The rule that the tokens write, each of which must be used. -/
def ofTokens (limit : Nat) (tokens : List Token) : Except Error Rule := do
  if tokens.isEmpty then .error (.badSyntax .emptyRule)
  let (t, rest) ← readExpression limit limit tokens
  match rest with
  | [] => return t
  | .closeParen :: _ => .error (.badSyntax .unmatchedClose)
  | token :: _ => .error (.badSyntax (.trailingToken token.text))

/-- The rule that a text writes, nested no deeper than the limit. -/
def parse (limit : Nat) (text : String) : Except Error Rule :=
  ofTokens limit (Token.tokenize text)

end RecordRules.Rule
