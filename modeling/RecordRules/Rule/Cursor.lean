import RecordRules.Rule.Parser

/-!
# Reading a rule by positions

The readers of a rule over one list of tokens and a position in it.  Levels are counted
upwards from the first, and a run keeps a record of the calls it makes.  A reader may
look for a token where there is none, but a part of the list or a token that is taken
without looking must be there: a run that takes one that is not there breaks off
(`Stop.outOfRange`).
-/

namespace RecordRules.Rule

/-- The three readers. -/
inductive Reader
  | expression
  | term
  | condition
  deriving DecidableEq

/-- A call of a reader: where it starts, and the level of the expression it belongs to. -/
structure Call where
  reader : Reader
  position : Nat
  level : Nat
  deriving DecidableEq

/-- What ends a run without an answer. -/
inductive Stop
  | failed (e : Error)
  | outOfRange
  deriving DecidableEq

/-- The calls that a run makes, in their order, and its answer. -/
structure Run (α : Type) where
  calls : List Call
  answer : Except Stop α

namespace Run

variable {α β : Type}

instance : Monad Run where
  pure a := ⟨[], .ok a⟩
  bind x f :=
    match x.answer with
    | .ok a => ⟨x.calls ++ (f a).calls, (f a).answer⟩
    | .error stop => ⟨x.calls, .error stop⟩

/-- The run that only records a call. -/
def call (reader : Reader) (position level : Nat) : Run Unit :=
  ⟨[⟨reader, position, level⟩], .ok ()⟩

/-- The run that breaks off at something that is not there. -/
def outOfRange : Run α := ⟨[], .error .outOfRange⟩

/-- The run of a computation that calls no reader. -/
def ofExcept : Except Error α → Run α
  | .ok a => ⟨[], .ok a⟩
  | .error e => ⟨[], .error (.failed e)⟩

/-- The run that fails with a fault of syntax. -/
def fail (fault : SyntaxFault) : Run α := ofExcept (.error (.badSyntax fault))

end Run

/-- The tokens from a position on, which may be the end of the list but not lie beyond it. -/
def tokensFrom (tokens : List Token) (position : Nat) : Run (List Token) :=
  if position ≤ tokens.length then return tokens.drop position else .outOfRange

/-- The token at an index, which must be there. -/
def tokenAt (tokens : List Token) (index : Nat) : Run Token :=
  match tokens[index]? with
  | some token => return token
  | none => .outOfRange

variable (tokens : List Token)

/-- Reads a condition; the answers of this and the next readers come with the position
after what they have read. -/
def readConditionAt (position level : Nat) : Run (Rule × Nat) := do
  .call .condition position level
  let remaining ← tokensFrom tokens position
  if remaining.length < 3 then .fail (.shortCondition (remaining.map Token.text))
  else
    let field ← .ofExcept (readSlot .field (← tokenAt remaining 0))
    let operator ← .ofExcept (readSlot .operator (← tokenAt remaining 1))
    let value ← .ofExcept (readSlot .value (← tokenAt remaining 2))
    return (condition ⟨field, operator, value⟩, position + 3)

/-- Reads a term, given the reader of the expression inside parentheses. -/
def readTermAt (inner : Nat → Run (Rule × Nat)) (position level : Nat) : Run (Rule × Nat) := do
  .call .term position level
  match tokens[position]? with
  | none => .fail .endOfRule
  | some .openParen =>
    let (t, position) ← inner (position + 1)
    match tokens[position]? with
    | some .closeParen => return (t, position + 1)
    | _ => .fail .unclosedGroup
  | some _ => readConditionAt tokens position level

/-- Reads an expression on a level, which must not lie beyond the limit. -/
def readExpressionAt (limit position level : Nat) : Run (Rule × Nat) := do
  .call .expression position level
  if limit < level then .fail (.tooDeep limit)
  else
    let (t, position) ←
      readTermAt tokens (fun position => readExpressionAt limit position (level + 1)) position level
    match tokens[position]? with
    | some (.connective c) =>
      match tokens[position + 1]? with
      | none => .fail (.endAfter c)
      | some _ =>
        let (u, position) ← readExpressionAt limit (position + 1) (level + 1)
        return (combine c.keyword t u, position)
    | _ => return (t, position)
  termination_by limit + 1 - level

/-- The rule that the tokens write, each of which must be used. -/
def ofTokensAt (limit : Nat) : Run Rule := do
  if tokens.isEmpty then .fail .emptyRule
  else
    let (t, position) ← readExpressionAt tokens limit 0 1
    match tokens[position]? with
    | none => return t
    | some .closeParen => .fail .unmatchedClose
    | some token => .fail (.trailingToken token.text)

end RecordRules.Rule
