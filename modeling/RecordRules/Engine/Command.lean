import RecordRules.Engine.Basic

/-!
# Runs of an engine

Everything that may be asked of an engine, as one type of commands, the engine
after a sequence of them, and its answers on the way.
-/

namespace RecordRules.Engine

/-- What may be asked of an engine. -/
inductive Command
  | parse (text : String)
  | create (text : String)
  | ofMapping (mapping : Json)
  | evaluate (t : Rule) (record : Record)
  | evaluateMapping (mapping : Json) (record : Record)
  | check (text : String) (record : Record)
  | createText (body : String)
  | evaluateText (body : String)
  | clear

/-- What a command answers where it does not fail. -/
inductive Answer
  | rule (t : Option Rule)
  | mapping (j : Json)
  | verdict (b : Bool)
  | body (text : String)
  | done

/-- The answer to a command, and the engine after it. -/
def perform (e : Engine) : Command → Except Error Answer × Engine
  | .parse text => let (a, e) := e.parse text; (a.map fun t => .rule (some t), e)
  | .create text => let (a, e) := e.create text; (a.map .mapping, e)
  | .ofMapping mapping => ((e.ofMapping mapping).map .rule, e)
  | .evaluate t record => ((e.evaluate t record).map .verdict, e)
  | .evaluateMapping mapping record => ((e.evaluateMapping mapping record).map .verdict, e)
  | .check text record => let (a, e) := e.check text record; (a.map .verdict, e)
  | .createText body => let (a, e) := e.createText body; (a.map .body, e)
  | .evaluateText body => ((e.evaluateText body).map .body, e)
  | .clear => (.ok .done, e.clear)

/-- The engine after commands. -/
def run (e : Engine) (commands : List Command) : Engine :=
  commands.foldl (fun e command => (e.perform command).2) e

/-- The answers to commands, each asked of the engine that those before it leave. -/
def answers (e : Engine) : List Command → List (Except Error Answer)
  | [] => []
  | command :: commands =>
    let (answer, e) := e.perform command
    answer :: e.answers commands

end RecordRules.Engine
