import RecordRules.Proofs.Engine.Routes
import RecordRules.Proofs.Request
import RecordRules.Proofs.Rule.JsonText

/-!
# Creating and evaluating over JSON text

The text of a created rule, put into the text of a request together with the
text of a record, is answered as the rule text itself is checked on that record.
The request is one level of nesting and the texts of a condition are another, so
of the 127 levels of JSON text a rule may take up 125:

    e.createText (request for text) = ok written → depth ≤ 125 →
      e.evaluateText (EvaluateRequest.text written data) = (e.check text record).map verdictBody

A deeper rule is refused as malformed, and none is deeper under the default limit.
-/

namespace RecordRules.Engine

open Json

variable {config : Config} {e : Engine}

/-! ## Answers to texts -/

theorem createText_fst (h : e.Sound config) (text : String) :
    (e.createText (CreateRequest.toJson ⟨text⟩).render).1 =
      (Rule.parse config.depthLimit text).map Rule.toJsonText := by
  rw [createText, CreateRequest.parse_render]
  show (e.create text).1.map Json.render = _
  rw [create_fst h]
  cases Rule.parse config.depthLimit text <;> rfl

/-- A request with a rule that was read from a text: the JSON reader decides by the depth
of the rule, and then the verdict is that of the text. -/
theorem evaluateText_toJsonText (h : e.Sound config) {text : String} {t : Rule}
    (ht : Rule.parse config.depthLimit text = .ok t) {data : String} {record : Record}
    (hdata : (Document.read? data >>= Record.ofDocument?) = some record) :
    e.evaluateText (EvaluateRequest.text t.toJsonText data) =
      if t.depth ≤ 125 then (e.check text record).1.map verdictBody
      else .error .malformedJson := by
  obtain ⟨d, hd, hrecord⟩ := Option.bind_eq_some_iff.1 hdata
  have hparse := EvaluateRequest.parse_text t.read?_toJsonText hd hrecord
  rw [t.value?_toMapping] at hparse
  rw [evaluateText, hparse]
  by_cases hdepth : t.depth ≤ 125
  · have hlevels : t.depth + 1 ≤ nestingLimit - 1 := Nat.add_le_add_right hdepth 1
    rw [if_pos hlevels, if_pos hdepth, check_of_parse h ht, ← evaluateMapping_of_parse h ht]
    show (e.evaluateMapping t.toMapping record >>= fun b => .ok (verdictBody b)) = _
    cases e.evaluateMapping t.toMapping record <;> rfl
  · have hlevels : ¬ t.depth + 1 ≤ nestingLimit - 1 :=
      fun hle => hdepth (Nat.le_of_add_le_add_right hle)
    rw [if_neg hlevels, if_neg hdepth]
    rfl

/-! ## The exchange -/

theorem verdictBody_eq (b : Bool) :
    verdictBody b = "\x7b\"result\":" ++ (if b then "true" else "false") ++ "\x7d" := by
  cases b <;> decide

theorem verdictBody_injective {b c : Bool} (h : verdictBody b = verdictBody c) : b = c := by
  revert h
  cases b <;> cases c <;> decide

/-- A rule that fits is answered as its text is checked, verdicts and errors alike. -/
theorem evaluateText_iff_check (h : e.Sound config) {text : String} {t : Rule}
    (ht : Rule.parse config.depthLimit text = .ok t) (hdepth : t.depth ≤ 125) {data : String}
    {record : Record} (hdata : (Document.read? data >>= Record.ofDocument?) = some record) :
    (∀ b, e.evaluateText (EvaluateRequest.text t.toJsonText data) = .ok (verdictBody b) ↔
      (e.check text record).1 = .ok b) ∧
    ∀ err, e.evaluateText (EvaluateRequest.text t.toJsonText data) = .error err ↔
      (e.check text record).1 = .error err := by
  rw [evaluateText_toJsonText h ht hdata, if_pos hdepth]
  constructor
  · intro b
    rw [map_eq_ok_iff]
    constructor
    · rintro ⟨c, hc, hbody⟩
      rw [hc, verdictBody_injective hbody]
    · intro hb
      exact ⟨b, hb, rfl⟩
  · intro err
    exact map_eq_error_iff

/-- No engine fails to check a text that is a rule because of malformed JSON. -/
theorem check_ne_malformedJson (h : e.Sound config) {text : String} {t : Rule}
    (ht : Rule.parse config.depthLimit text = .ok t) (record : Record) :
    (e.check text record).1 ≠ .error .malformedJson := by
  rw [check_of_parse h ht]
  exact fun herr => ofRecord_of_evaluate h ht herr

/-- **Create, then Evaluate, over text.**  A rule text is created exactly when it parses,
and else fails with the same error.  What is created is answered, in the text of a request
with a record, by the verdict or the error of checking the rule text on that record, when
the rule is at most 125 deep; deeper it is malformed.  With a limit up to the default, no
rule that is created is malformed when it is submitted. -/
theorem createText_then_evaluateText (config : Config) (past past' : List Command)
    (text data : String) (record : Record)
    (hdata : (Document.read? data >>= Record.ofDocument?) = some record) :
    let e := (Engine.new config).run past
    let e' := (Engine.new config).run past'
    let created := (e.createText (CreateRequest.toJson ⟨text⟩).render).1
    let answer := fun written => e'.evaluateText (EvaluateRequest.text written data)
    ((∃ written, created = .ok written) ↔ ∃ t, (e.parse text).1 = .ok t) ∧
    (∀ err, created = .error err ↔ (e.parse text).1 = .error err) ∧
    ∀ written, created = .ok written → ∃ t, (e.parse text).1 = .ok t ∧
      (t.depth ≤ 125 →
        (∀ b, answer written =
            .ok ("\x7b\"result\":" ++ (if b then "true" else "false") ++ "\x7d") ↔
          (e'.check text record).1 = .ok b) ∧
        ∀ err, answer written = .error err ↔ (e'.check text record).1 = .error err) ∧
      (126 ≤ t.depth → answer written = .error .malformedJson) ∧
      (config.depthLimit ≤ Config.defaultDepthLimit →
        t.depth ≤ 125 ∧ answer written ≠ .error .malformedJson) := by
  intro e e' created answer
  have h : e.Sound config := sound_run config past
  have h' : e'.Sound config := sound_run config past'
  have hcreated : created = (Rule.parse config.depthLimit text).map Rule.toJsonText :=
    createText_fst h text
  rw [hcreated, parse_fst h]
  refine ⟨?_, ?_, ?_⟩
  · cases Rule.parse config.depthLimit text with
    | ok t => exact ⟨fun _ => ⟨t, rfl⟩, fun _ => ⟨_, rfl⟩⟩
    | error err => simp [Except.map]
  · intro err
    exact map_eq_error_iff
  · intro written hwritten
    obtain ⟨t, ht, rfl⟩ := map_eq_ok_iff.1 hwritten
    have hanswer : answer t.toJsonText = _ := evaluateText_toJsonText h' ht hdata
    refine ⟨t, ht, ?_, ?_, ?_⟩
    · intro hdepth
      simp only [← verdictBody_eq]
      exact evaluateText_iff_check h' ht hdepth hdata
    · intro hdepth
      rw [hanswer, if_neg (by omega)]
    · intro hlimit
      have hdepth : t.depth ≤ 125 := by
        have hparsed := Rule.depth_le_of_parse ht
        rw [Config.defaultDepthLimit] at hlimit
        omega
      refine ⟨hdepth, ?_⟩
      rw [hanswer, if_pos hdepth, Ne, map_eq_error_iff]
      exact check_ne_malformedJson h' ht record

theorem createText_then_evaluateText_age :
    let e := (Engine.new Config.default).run []
    let data := "\x7b\"age\": 35\x7d"
    let record := Record.ofList [("age", .integer 35)]
    (Document.read? data >>= Record.ofDocument?) = some record ∧
    ∃ written, (e.createText (CreateRequest.toJson ⟨"age > 30"⟩).render).1 = .ok written ∧
      e.evaluateText (EvaluateRequest.text written data) = .ok "\x7b\"result\":true\x7d" := by
  intro e data record
  have hdata : (Document.read? data >>= Record.ofDocument?) = some record := by decide +kernel
  have h : e.Sound Config.default := sound_run Config.default []
  have hparse : Rule.parse Config.default.depthLimit "age > 30" =
      .ok (.condition ⟨"age", ">", "30"⟩) :=
    toOption_eq_some_iff.1 (by decide +kernel)
  have hcheck : (e.check "age > 30" record).1 = .ok true := by
    rw [check_of_parse h hparse, evaluate, h.config_eq]
    exact toOption_eq_some_iff.1 (by decide +kernel)
  obtain ⟨hcreated, -, hanswer⟩ :=
    createText_then_evaluateText Config.default [] [] "age > 30" data record hdata
  obtain ⟨written, hwritten⟩ := hcreated.2 ⟨_, (parse_fst h _).trans hparse⟩
  obtain ⟨t, ht, hshallow, -, hdefault⟩ := hanswer written hwritten
  exact ⟨hdata, written, hwritten, ((hshallow (hdefault (Nat.le_refl _)).1).1 true).2 hcheck⟩

end RecordRules.Engine
