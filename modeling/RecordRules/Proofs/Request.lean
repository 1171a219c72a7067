import RecordRules.Proofs.Json.RoundTrip
import RecordRules.Request

/-!
# Requests as text

A request to create is read back from its own text, whatever its rule is.  A
request to evaluate is put together from the texts of its rule and its data, and
is read when both are:

    CreateRequest.parse request.toJson.render = ok request
    read? rule = some d → read? data = some d' →
      EvaluateRequest.parse (text rule data) = (ruleValue? d, Record.ofDocument? d')
-/

namespace RecordRules

open Json Document State

/-- The named parts of an object whose keys are written. -/
theorem parts?_object (names : List String) (members : List (String × Document)) :
    parts? names (.object (members.map fun p => (partsOf p.1, p.2))) =
      names.mapM fun name => onlyPart? name members := by
  have hkeys : (members.map fun p => (partsOf p.1, p.2)).mapM
      (fun p => (string? p.1).map fun key => (key, p.2)) = some members := by
    induction members with
    | nil => rfl
    | cons p members ih =>
      rw [List.map_cons, List.mapM_cons, ih, string?_partsOf]
      rfl
  rw [parts?, hkeys]
  rfl

namespace CreateRequest

theorem canonical_toJson (request : CreateRequest) : request.toJson.Canonical := by
  refine .object (List.pairwise_singleton _ _) fun p hp => ?_
  obtain rfl : p = ("rule_string", .string request.rule) := List.mem_singleton.1 hp
  exact .string request.rule

/-- A request is read back from its text. -/
theorem parse_render (request : CreateRequest) : parse request.toJson.render = .ok request := by
  have hparts : parts? ["rule_string"] request.toJson.document =
      some [some (.string (partsOf request.rule))] := by
    refine (parts?_object _ [("rule_string", .string (partsOf request.rule))]).trans ?_
    simp [onlyPart?]
  have htext : text? (.string (partsOf request.rule)) = some request.rule :=
    string?_partsOf request.rule
  have hdocument : ofDocument? request.toJson.document = some request := by
    rw [ofDocument?, hparts]
    dsimp only
    rw [htext]
    rfl
  rw [parse, read?_render request.canonical_toJson, Option.bind_eq_bind, Option.bind_some,
    hdocument]

end CreateRequest

namespace EvaluateRequest

/-- The text of a request, put together from those of its rule and its data. -/
def text (rule data : String) : String :=
  "\x7b\"rule\":" ++ rule ++ ",\"data\":" ++ data ++ "\x7d"

theorem toList_text (rule data : String) :
    (text rule data).toList =
      '{' :: (writeString "rule" ++ ':' :: (rule.toList ++
        ',' :: (writeString "data" ++ ':' :: (data.toList ++ ['}'])))) := by
  have hrule : "\x7b\"rule\":".toList = '{' :: (writeString "rule" ++ [':']) := by decide
  have hdata : ",\"data\":".toList = ',' :: (writeString "data" ++ [':']) := by decide
  have hclose : "\x7d".toList = ['}'] := by decide
  simp only [text, String.toList_append, hrule, hdata, hclose, List.append_assoc,
    List.cons_append, List.nil_append]

/-- A request whose parts are documents is the document that holds them. -/
theorem read?_text {rule data : String} {d d' : Document} (hrule : read? rule = some d)
    (hdata : read? data = some d') :
    read? (text rule data) = some (.object [(partsOf "rule", d), (partsOf "data", d')]) := by
  apply read?_of_resume
  rw [toList_text, resume_mark mark_openObject]
  show State.resume (.firstKey []) _ = _
  rw [resume_key rfl, resume_document hrule (mark_comma.delimiting _) (enters_value _),
    resume_mark mark_comma]
  show State.resume (.key [] [(partsOf "rule", d)]) _ = _
  rw [resume_key rfl, resume_document hdata (mark_closeObject.delimiting _) (enters_value _),
    resume_mark mark_closeObject]
  rfl

/-- The request whose parts are documents, where the rule has a value one level down. -/
theorem parse_text {rule data : String} {d d' : Document} (hrule : read? rule = some d)
    (hdata : read? data = some d') {record : Record}
    (hrecord : Record.ofDocument? d' = some record) :
    parse (text rule data) =
      match d.value? (nestingLimit - 1) with
      | some j => .ok ⟨j, record⟩
      | none => .error .malformedJson := by
  have hparts : parts? ["rule", "data"] (.object [(partsOf "rule", d), (partsOf "data", d')]) =
      some [some d, some d'] := by
    refine (parts?_object _ [("rule", d), ("data", d')]).trans ?_
    simp [onlyPart?]
  rw [parse, read?_text hrule hdata, Option.bind_eq_bind, Option.bind_some, ofDocument?, hparts]
  dsimp only
  rw [hrecord, ruleValue?]
  cases d.value? (nestingLimit - 1) <;> rfl

end EvaluateRequest

end RecordRules
