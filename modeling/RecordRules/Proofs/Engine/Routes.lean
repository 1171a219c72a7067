import RecordRules.Proofs.Engine.History
import RecordRules.Proofs.Rule.Mapping
import RecordRules.Proofs.Rule.Reading
import RecordRules.Proofs.Rule.Verdict

/-!
# Two routes to a verdict

A rule text is evaluated at once (`check`), or its mapping form is created first
and evaluated later (`create`, `evaluateMapping`).  Reading the text, reading the
mapping form and evaluating count their levels each on its own; what the text
passes, the other two pass, because a rule is no deeper than its text nests.

    e.create text = ok m → e.evaluateMapping m record = e.check text record
    e.create text = error err → e.check text record = error err     (unless the text is blank)
-/

namespace RecordRules.Engine

variable {config : Config} {e : Engine}

/-- A rule that was read from a text comes back from its mapping form. -/
theorem ofMapping_of_parse (h : e.Sound config) {text : String} {t : Rule}
    (ht : Rule.parse config.depthLimit text = .ok t) : e.ofMapping t.toMapping = .ok (some t) := by
  rw [ofMapping, h.config_eq, Rule.ofMapping_toMapping, if_pos (Rule.depth_le_of_parse ht)]

theorem evaluateMapping_of_parse (h : e.Sound config) {text : String} {t : Rule}
    (ht : Rule.parse config.depthLimit text = .ok t) (record : Record) :
    e.evaluateMapping t.toMapping record = e.evaluate t record := by
  rw [evaluateMapping, ofMapping_of_parse h ht]
  rfl

/-- A text that is read is not blank, so checking it evaluates its rule. -/
theorem check_of_parse (h : e.Sound config) {text : String} {t : Rule}
    (ht : Rule.parse config.depthLimit text = .ok t) (record : Record) :
    (e.check text record).1 = e.evaluate t record := by
  have hblank : ¬ Text.isBlankText text = true := by
    intro hblank
    rw [Rule.parse_eq_emptyRule_iff.2 hblank] at ht
    cases ht
  rw [check_fst h, if_neg hblank, ht, ok_bind, evaluate, h.config_eq]

theorem ofRecord_of_evaluate (h : e.Sound config) {text : String} {t : Rule}
    (ht : Rule.parse config.depthLimit text = .ok t) {record : Record} {err : Error}
    (herr : e.evaluate t record = .error err) : err.OfRecord := by
  rw [evaluate, h.config_eq] at herr
  exact Rule.ofRecord_of_evaluate (Rule.depth_le_of_parse ht) herr

/-- A blank text is no rule to create, and no objection to check. -/
theorem check_of_parse_error (h : e.Sound config) {text : String} {err : Error}
    (herr : Rule.parse config.depthLimit text = .error err) (record : Record) :
    if Text.isBlankText text then
      err = .badSyntax .emptyRule ∧ (e.check text record).1 = .ok true
    else (e.check text record).1 = .error err := by
  rw [check_fst h]
  split
  · next hblank =>
    rw [Rule.parse_eq_emptyRule_iff.2 hblank] at herr
    exact ⟨(Except.error.inj herr).symm, rfl⟩
  · rw [herr, error_bind]

theorem check_ne_emptyRule (h : e.Sound config) (text : String) (record : Record) :
    (e.check text record).1 ≠ .error (.badSyntax .emptyRule) := by
  cases ht : Rule.parse config.depthLimit text with
  | ok t =>
    rw [check_of_parse h ht]
    exact fun herr => ofRecord_of_evaluate h ht herr
  | error err =>
    have hcheck := check_of_parse_error h ht record
    split at hcheck
    · rw [hcheck.2]
      simp
    · next hblank =>
      rw [hcheck]
      rintro ⟨⟩
      exact hblank (Rule.parse_eq_emptyRule_iff.1 ht)

/-- **The two routes agree.**  What one engine creates from a text, it or any other engine
of the same configuration reads back as the rule of that text, and gives the verdict or
the error that checking the text gives.  No such error is about syntax or depth.  A text
from which nothing can be created fails to check for the same reason, except that a
blank text holds. -/
theorem create_then_evaluate (config : Config) (past past' : List Command) (text : String)
    (record : Record) :
    let e := (Engine.new config).run past
    let e' := (Engine.new config).run past'
    (∀ m, (e.create text).1 = .ok m → ∃ t, (e'.parse text).1 = .ok t ∧
      e'.ofMapping m = .ok (some t) ∧
      e'.evaluateMapping m record = e'.evaluate t record ∧
      e'.evaluate t record = (e'.check text record).1 ∧
      ∀ err, (e'.check text record).1 = .error err →
        (∀ fault, err ≠ .badSyntax fault) ∧ ∀ limit, err ≠ .depthExceeded limit) ∧
    (∀ err, (e.create text).1 = .error err →
      if Text.isBlankText text then
        err = .badSyntax .emptyRule ∧ (e'.check text record).1 = .ok true
      else (e'.check text record).1 = .error err) ∧
    (e'.check text record).1 ≠ .error (.badSyntax .emptyRule) ∧
    SyntaxFault.emptyRule.message = "Empty rule string" := by
  intro e e'
  have h : e.Sound config := sound_run config past
  have h' : e'.Sound config := sound_run config past'
  rw [create_fst h]
  refine ⟨?_, ?_, check_ne_emptyRule h' text record, rfl⟩
  · intro m hm
    cases ht : Rule.parse config.depthLimit text with
    | error err =>
      rw [ht] at hm
      cases hm
    | ok t =>
      rw [ht] at hm
      obtain rfl : t.toMapping = m := Except.ok.inj hm
      have hcheck := check_of_parse h' ht record
      refine ⟨t, (parse_fst h' text).trans ht, ofMapping_of_parse h' ht,
        evaluateMapping_of_parse h' ht record, hcheck.symm, fun err herr => ?_⟩
      have hkind := ofRecord_of_evaluate h' ht (hcheck.symm.trans herr)
      constructor
      · rintro fault rfl
        exact hkind
      · rintro limit rfl
        exact hkind
  · intro err herr
    cases ht : Rule.parse config.depthLimit text with
    | ok t =>
      rw [ht] at herr
      cases herr
    | error other =>
      rw [ht] at herr
      obtain rfl : other = err := Except.error.inj herr
      exact check_of_parse_error h' ht record

end RecordRules.Engine
