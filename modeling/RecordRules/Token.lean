import RecordRules.Operator
import RecordRules.Connective
import RecordRules.Text

/-!
# Tokens

A rule is a sequence of tokens.  Parentheses stand alone wherever they are
written; everything else is a *word*, a longest run of characters that are
neither blank nor a parenthesis.  A word is a connective, a comparison symbol,
or a literal, which loses one quote at each end (`Token.ofWord`).

* `Token.scan_append_blank`, `Token.scan_append_open`, `Token.scan_append_close`:
  a blank or a parenthesis cuts a text into two that are scanned on their own.
-/

namespace RecordRules

open Text

/-- A lexical unit of a rule. -/
inductive Token
  | openParen
  | closeParen
  | connective (c : Connective)
  | comparison (o : Operator)
  | literal (text : String)
  deriving DecidableEq

namespace Token

/-! ## Algorithm -/

/-- The word without one quote at each end.  A lone quote is the empty word. -/
def unquote (word : List Char) : List Char :=
  let tail := if word.head? = some '\'' then word.tail else word
  if tail.getLast? = some '\'' then tail.dropLast else tail

/-- The token that a word stands for when it is read on its own. -/
def ofWord (word : List Char) : Token :=
  match String.ofList word with
  | "(" => openParen
  | ")" => closeParen
  | text =>
    match Connective.ofKeyword? text with
    | some c => connective c
    | none =>
      match Operator.ofSymbol? text with
      | some o => comparison o
      | none => literal (String.ofList (unquote word))

/-- The tokens of a word that has just ended, given last character first. -/
def endWord : List Char → List Token
  | [] => []
  | c :: cs => [ofWord (c :: cs).reverse]

/-- The tokens of a text, where `word` holds the part of a word already read,
last character first. -/
def scan (word : List Char) : List Char → List Token
  | [] => endWord word
  | c :: cs =>
    if isBlank c then endWord word ++ scan [] cs
    else if c = '(' then endWord word ++ openParen :: scan [] cs
    else if c = ')' then endWord word ++ closeParen :: scan [] cs
    else scan (c :: word) cs

/-- The tokens of a rule. -/
def tokenize (rule : String) : List Token := scan [] rule.toList

/-- The token as it is shown. -/
def text : Token → String
  | openParen => "("
  | closeParen => ")"
  | connective c => c.keyword
  | comparison o => o.symbol
  | literal text => text

/-- The text that the token contributes to a condition; only comparisons and
literals have one. -/
def word? : Token → Option String
  | comparison o => some o.symbol
  | literal text => some text
  | _ => none

/-! ## Lemmas -/

theorem scan_append_blank {c : Char} (hc : isBlank c = true) (a b word : List Char) :
    scan word (a ++ c :: b) = scan word a ++ scan [] b := by
  induction a generalizing word with
  | nil => simp [scan, hc]
  | cons x a ih =>
    simp only [List.cons_append, scan, ih]
    repeat' split
    all_goals simp

theorem scan_append_open (a b word : List Char) :
    scan word (a ++ '(' :: b) = scan word a ++ openParen :: scan [] b := by
  induction a generalizing word with
  | nil => simp [scan, show isBlank '(' = false by decide]
  | cons x a ih =>
    simp only [List.cons_append, scan, ih]
    repeat' split
    all_goals simp

theorem scan_append_close (a b word : List Char) :
    scan word (a ++ ')' :: b) = scan word a ++ closeParen :: scan [] b := by
  induction a generalizing word with
  | nil => simp [scan, show isBlank ')' = false by decide]
  | cons x a ih =>
    simp only [List.cons_append, scan, ih]
    repeat' split
    all_goals simp

end Token

end RecordRules
