import RecordRules.Cache
import RecordRules.Request
import RecordRules.Rule.Mapping

/-!
# The engine

Reading and evaluating rules under one configuration, with a cache of those
that were parsed before.  What changes the cache answers with the engine after
it.  Requests and answers may be JSON text; then a failure is answered by a body
that holds the kind and the text of the error.
-/

namespace RecordRules

/-- An engine: its cache, and with it the configuration that the cache keeps to. -/
structure Engine where
  cache : Cache

namespace Engine

/-- The engine with an empty cache. -/
def new (config : Config) : Engine := ⟨.empty config⟩

/-- The settings of the engine. -/
def config (e : Engine) : Config := e.cache.config

/-- The rule that a text writes. -/
def parse (e : Engine) (text : String) : Except Error Rule × Engine :=
  let (answer, cache) := e.cache.get text
  (answer, ⟨cache⟩)

/-- The mapping form of the rule that a text writes. -/
def create (e : Engine) (text : String) : Except Error Json × Engine :=
  let (answer, e) := e.parse text
  (answer.map Rule.toMapping, e)

/-- The rule that a JSON value writes, or no rule. -/
def ofMapping (e : Engine) (mapping : Json) : Except Error (Option Rule) :=
  Rule.ofMapping e.config.depthLimit mapping

/-- The verdict of a rule on a record. -/
def evaluate (e : Engine) (t : Rule) (record : Record) : Except Error Bool :=
  t.evaluate e.config.depthLimit record

/-- The verdict of a rule in mapping form; no rule always holds. -/
def evaluateMapping (e : Engine) (mapping : Json) (record : Record) : Except Error Bool := do
  Rule.evaluateOptional e.config.depthLimit (← e.ofMapping mapping) record

/-- The verdict of the rule that a text writes; a blank text always holds. -/
def check (e : Engine) (text : String) (record : Record) : Except Error Bool × Engine :=
  let (answer, cache) := e.cache.check text record
  (answer, ⟨cache⟩)

/-- The engine with an empty cache. -/
def clear (e : Engine) : Engine := ⟨e.cache.clear⟩

end Engine

/-! ## Requests -/

/-- The body of an answer that is a verdict. -/
def verdictBody (b : Bool) : String := (Json.object [("result", .bool b)]).render

/-- The body of an answer that is a failure. -/
def Error.body (e : Error) : String :=
  (Json.object [("error", .string e.kind.name), ("detail", .string e.message)]).render

namespace Engine

/-- Answers a request for the mapping form of a rule. -/
def serveCreate (e : Engine) (request : CreateRequest) : Except Error Json × Engine :=
  e.create request.rule

/-- Answers a request for a verdict. -/
def serveEvaluate (e : Engine) (request : EvaluateRequest) : Except Error Bool :=
  e.evaluateMapping request.rule request.data

/-- Answers the text of a request for the mapping form of a rule. -/
def createText (e : Engine) (body : String) : Except Error String × Engine :=
  match CreateRequest.parse body with
  | .error error => (.error error, e)
  | .ok request =>
    let (answer, e) := e.serveCreate request
    (answer.map Json.render, e)

/-- Answers the text of a request for a verdict. -/
def evaluateText (e : Engine) (body : String) : Except Error String := do
  let verdict ← e.serveEvaluate (← EvaluateRequest.parse body)
  return verdictBody verdict

end Engine

end RecordRules
