import RecordRules.Proofs.Answer
import RecordRules.Rule.Evaluation

/-!
# Errors of a verdict

A rule within the limit fails on a record only for what it says of the record: a
field that is not there, a comparison that makes no sense, or an operator that
does not exist.  Its syntax and its depth are no longer in question.
-/

namespace RecordRules

/-- An error that a rule within the limit can meet on a record. -/
def Error.OfRecord : Error → Prop
  | .fieldNotFound _ | .typeMismatch _ | .unsupportedOperator _ => True
  | .badSyntax _ | .depthExceeded _ => False

/-- The three ways in which a condition fails, in the order in which they are met. -/
theorem Condition.check_eq_error {c : Condition} {record : Record} {e : Error}
    (h : c.check record = .error e) :
    e = .fieldNotFound c.field ∨
      e = .unsupportedOperator c.operator ∧ Operator.ofSymbol? c.operator = none ∨
      ∃ operator, e = .typeMismatch operator := by
  unfold Condition.check at h
  split at h
  · cases h
    exact .inl rfl
  · split at h
    · next hsymbol =>
      cases h
      exact .inr (.inl ⟨rfl, hsymbol⟩)
    · next operator _ =>
      rw [FieldValue.compareLiteral_eq] at h
      split at h
      · cases h
      · refine .inr (.inr ⟨operator, ?_⟩)
        cases operator <;> cases h <;> rfl

theorem Condition.ofRecord_of_check {c : Condition} {record : Record} {e : Error}
    (h : c.check record = .error e) : e.OfRecord := by
  rcases check_eq_error h with rfl | ⟨rfl, -⟩ | ⟨operator, rfl⟩
  · trivial
  · trivial
  · trivial

/-- A condition complains of an operator only if it is its own, and no comparison symbol. -/
theorem Condition.operator_of_check {c : Condition} {record : Record} {text : String}
    (h : c.check record = .error (.unsupportedOperator text)) :
    c.operator = text ∧ Operator.ofSymbol? text = none := by
  rcases check_eq_error h with ⟨⟨⟩⟩ | ⟨⟨⟩, hsymbol⟩ | ⟨operator, ⟨⟩⟩
  exact ⟨rfl, hsymbol⟩

namespace Rule

theorem verdict_ofRecord {limit : Nat} {record : Record} {t : Rule} {levels : Nat}
    (hdepth : t.depth ≤ levels) : FailsWith Error.OfRecord (verdict limit record t levels) := by
  induction t generalizing levels with
  | condition c =>
    cases levels with
    | zero => simp [depth] at hdepth
    | succ levels =>
      intro e he
      exact Condition.ofRecord_of_check he
  | combine op l r ihl ihr =>
    cases levels with
    | zero => simp [depth] at hdepth
    | succ levels =>
      rw [depth] at hdepth
      rw [verdict]
      refine (ihl (by omega)).bind fun a => ?_
      refine (ihr (by omega)).bind fun b => ?_
      split
      · exact failsWith_ok _
      · exact failsWith_error trivial

theorem ofRecord_of_evaluate {limit : Nat} {record : Record} {t : Rule} {e : Error}
    (hdepth : t.depth ≤ limit) (h : t.evaluate limit record = .error e) : e.OfRecord :=
  verdict_ofRecord hdepth e h

end Rule

end RecordRules
