import RecordRules.Decimal.Numeral

/-!
# Lexemes of JSON text

The first step of reading JSON: the text becomes a list of brackets, commas,
words, numbers and strings.  An automaton takes one character at a time
(`Mode.step`); a word or a number ends at the first character that cannot
belong to it.  Escapes of the form `\uXXXX` stay as the code units they name,
since whether those pair up matters only where the string is used.
-/

namespace RecordRules.Json

/-- A part of a string: a character, or a code unit written as `\uXXXX`. -/
inductive StringPart
  | char (c : Char)
  | unit (code : Nat)
  deriving DecidableEq

/-- A lexical unit of JSON text. -/
inductive Lexeme
  | openObject
  | closeObject
  | openArray
  | closeArray
  | colon
  | comma
  | null
  | bool (b : Bool)
  | number (x : Decimal.Numeral)
  | string (parts : List StringPart)
  deriving DecidableEq

/-! ## Words and numbers -/

/-- The lexeme of a word. -/
def Lexeme.ofWord? (word : List Char) : Option Lexeme :=
  match String.ofList word with
  | "null" => some .null
  | "true" => some (.bool true)
  | "false" => some (.bool false)
  | _ => none

/-- The minus at the head of a text, and the text after it. -/
def takeMinus : List Char → Bool × List Char
  | '-' :: cs => (true, cs)
  | cs => (false, cs)

/-- The lexeme of a number: digits without a superfluous zero at their head,
and at least one digit after a point. -/
def Lexeme.ofNumeral? (cs : List Char) : Option Lexeme := do
  let (negative, cs) := takeMinus cs
  let (whole, cs) := Decimal.takeDigits cs
  if whole.isEmpty || (whole.head? = some 0 && 1 < whole.length) then none
  let (fraction, rest) := Decimal.takeFraction cs
  if cs.head? = some '.' && fraction.isEmpty then none
  let exponent ← Decimal.exponent? rest
  return .number ⟨negative, whole, fraction, exponent⟩

/-! ## The automaton -/

/-- Where the automaton stands.  What it has read of a word, a number or a
string comes last part first. -/
inductive Mode
  | between
  | word (read : List Char)
  | number (read : List Char)
  | string (read : List StringPart)
  | escape (read : List StringPart)
  | unit (read : List StringPart) (code : Nat) (missing : Nat)

/-- A blank between lexemes. -/
def isSpace (c : Char) : Bool := c = ' ' || c = '\t' || c = '\n' || c = '\r'

/-- A character that a number may hold. -/
def isNumberChar (c : Char) : Bool :=
  c.isDigit || c = '-' || c = '+' || c = '.' || c = 'e' || c = 'E'

/-- The value of a hexadecimal digit. -/
def hexValue? (c : Char) : Option Nat :=
  if c.isDigit then some (c.toNat - '0'.toNat)
  else if 'a' ≤ c && c ≤ 'f' then some (c.toNat - 'a'.toNat + 10)
  else if 'A' ≤ c && c ≤ 'F' then some (c.toNat - 'A'.toNat + 10)
  else none

/-- The character that a backslash and a letter stand for. -/
def escaped? (c : Char) : Option Char :=
  match c with
  | '"' => some '"'
  | '\\' => some '\\'
  | '/' => some '/'
  | 'b' => some '\x08'
  | 'f' => some '\x0c'
  | 'n' => some '\n'
  | 'r' => some '\r'
  | 't' => some '\t'
  | _ => none

namespace Mode

/-- A character between lexemes. -/
def start (c : Char) : Option (Mode × List Lexeme) :=
  match c with
  | '{' => some (between, [.openObject])
  | '}' => some (between, [.closeObject])
  | '[' => some (between, [.openArray])
  | ']' => some (between, [.closeArray])
  | ':' => some (between, [.colon])
  | ',' => some (between, [.comma])
  | '"' => some (string [], [])
  | c =>
    if isSpace c then some (between, [])
    else if c.isLower then some (word [c], [])
    else if c.isDigit || c = '-' then some (number [c], [])
    else none

/-- A character between lexemes, after one that has just ended. -/
def startAfter (ended : Option Lexeme) (c : Char) : Option (Mode × List Lexeme) := do
  let lexeme ← ended
  let (mode, lexemes) ← start c
  return (mode, lexeme :: lexemes)

/-- What a character leads to: the next mode, and the lexemes that it ends. -/
def step : Mode → Char → Option (Mode × List Lexeme)
  | between, c => start c
  | word read, c =>
    if c.isLower then some (word (c :: read), [])
    else startAfter (Lexeme.ofWord? read.reverse) c
  | number read, c =>
    if isNumberChar c then some (number (c :: read), [])
    else startAfter (Lexeme.ofNumeral? read.reverse) c
  | string read, c =>
    if c = '"' then some (between, [.string read.reverse])
    else if c = '\\' then some (escape read, [])
    else if c.toNat < 0x20 then none
    else some (string (.char c :: read), [])
  | escape read, c =>
    if c = 'u' then some (unit read 0 3, [])
    else (escaped? c).map fun c => (string (.char c :: read), [])
  | unit read code missing, c => do
    let code := 16 * code + (← hexValue? c)
    match missing with
    | 0 => return (string (.unit code :: read), [])
    | missing + 1 => return (unit read code missing, [])

/-- The lexemes that the end of the text ends. -/
def finish : Mode → Option (List Lexeme)
  | between => some []
  | word read => (Lexeme.ofWord? read.reverse).map fun l => [l]
  | number read => (Lexeme.ofNumeral? read.reverse).map fun l => [l]
  | _ => none

end Mode

/-- The automaton and the lexemes it has found, the last of them first. -/
structure Lexer where
  mode : Mode
  found : List Lexeme

/-- One character. -/
def Lexer.step (lexer : Lexer) (c : Char) : Option Lexer := do
  let (mode, lexemes) ← lexer.mode.step c
  return ⟨mode, lexemes.reverse ++ lexer.found⟩

/-- The lexemes of a text. -/
def lexemes? (text : List Char) : Option (List Lexeme) := do
  let lexer ← text.foldlM Lexer.step ⟨.between, []⟩
  let last ← lexer.mode.finish
  return (last.reverse ++ lexer.found).reverse

end RecordRules.Json
