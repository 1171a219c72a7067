import RecordRules.Proofs.Rule.Comparison

/-!
# Negation

Rules have no negation, but every rule has a dual: `AND` and `OR` change places, and each
operator gives way to its opposite.  Where NaN is not compared, the dual answers the opposite,
and fails where the rule fails:

    verdict limit record t.dual levels = negated (verdict limit record t levels)   (verdict_dual)

An error of the dual is the error of the rule, with a mismatch named after the opposite operator
(`Error.dual`), so that its kind is the same.  NaN has to be left out: against it neither `<` nor
its opposite `>=` holds.
-/

namespace RecordRules

/-! ## Duals -/

/-- The operator that holds where this one does not. -/
def Operator.dual : Operator → Operator
  | greater => lessEqual
  | less => greaterEqual
  | greaterEqual => less
  | lessEqual => greater
  | equal => notEqual
  | notEqual => equal

/-- The other connective. -/
def Connective.dual : Connective → Connective
  | and => or
  | or => and

/-- The symbol of the opposite operator; a text that is no operator is kept. -/
def Operator.dualText (text : String) : String :=
  match ofSymbol? text with
  | some op => op.dual.symbol
  | none => text

/-- The keyword of the other connective; a text that is no connective is kept. -/
def Connective.dualText (text : String) : String :=
  match ofKeyword? text with
  | some c => c.dual.keyword
  | none => text

/-- The condition with the opposite operator. -/
def Condition.dual (c : Condition) : Condition :=
  { c with operator := Operator.dualText c.operator }

/-- The rule with the other connective and the opposite operator throughout. -/
def Rule.dual : Rule → Rule
  | condition c => condition c.dual
  | combine op l r => combine (Connective.dualText op) l.dual r.dual

/-- The error with the opposite operator, where it names one. -/
def Error.dual : Error → Error
  | typeMismatch op => typeMismatch op.dual
  | e => e

/-- The opposite answer. -/
def negated : Except Error Bool → Except Error Bool
  | .ok b => .ok (!b)
  | .error e => .error e.dual

theorem Error.kind_dual (e : Error) : e.dual.kind = e.kind := by
  cases e <;> rfl

theorem negated_eq_ok_iff {x : Except Error Bool} {b : Bool} :
    negated x = .ok (!b) ↔ x = .ok b := by
  cases x <;> simp [negated]

theorem negated_bind {x : Except Error Bool} {f g : Bool → Except Error Bool}
    (h : ∀ a, negated (f a) = g (!a)) : negated (x >>= f) = (negated x >>= g) := by
  cases x with
  | ok a => exact h a
  | error e => rfl

/-! ## Conditions -/

theorem Operator.holds_dual {o : Option Ordering} (ho : o ≠ none) (op : Operator) :
    op.dual.holds o = !op.holds o := by
  cases o with
  | none => exact absurd rfl ho
  | some o => cases op <;> cases o <;> rfl

theorem Operator.mismatched_dual (op : Operator) : op.dual.mismatched = negated op.mismatched := by
  cases op <;> rfl

theorem FieldValue.compareLiteral_dual {v : FieldValue} {literal : String}
    (h : v.meetsNaN literal = false) (op : Operator) :
    v.compareLiteral op.dual literal = negated (v.compareLiteral op literal) := by
  by_cases hmismatch : v.Mismatches literal
  · rw [compareLiteral_of_mismatches hmismatch, compareLiteral_of_mismatches hmismatch,
      Operator.mismatched_dual]
  · obtain ⟨o, ho⟩ := exists_order hmismatch
    have hne : o ≠ none := by
      rw [Ne, eq_none_iff_of_orderLiteral? ho, h]
      exact Bool.false_ne_true
    rw [compareLiteral_of_order ho, compareLiteral_of_order ho, Operator.holds_dual hne, negated]

/-- Whether the condition compares a numeric field of the record, and NaN is on one side. -/
def Condition.meetsNaN (record : Record) (c : Condition) : Bool :=
  (record.get? c.field).any fun v => v.meetsNaN c.value

theorem Operator.dualText_of_not_symbol {text : String} (h : ofSymbol? text = none) :
    dualText text = text := by
  rw [dualText, h]

theorem Operator.dualText_symbol (op : Operator) : dualText op.symbol = op.dual.symbol := by
  rw [dualText, ofSymbol?_symbol]

theorem Condition.check_dual {record : Record} {c : Condition}
    (h : c.meetsNaN record = false) : c.dual.check record = negated (c.check record) := by
  cases hfield : record.get? c.field with
  | none =>
    have hfield' : record.get? c.dual.field = none := hfield
    rw [check_of_absent hfield, check_of_absent hfield']
    rfl
  | some v =>
    have hfield' : record.get? c.dual.field = some v := hfield
    cases hoperator : Operator.ofSymbol? c.operator with
    | none =>
      have hkept : c.dual.operator = c.operator := Operator.dualText_of_not_symbol hoperator
      rw [check_of_not_symbol hfield hoperator, check_of_not_symbol hfield' (hkept ▸ hoperator),
        hkept]
      rfl
    | some op =>
      have hsymbol := Operator.ofSymbol?_eq_some_iff.1 hoperator
      have hdual : c.dual.operator = op.dual.symbol := by
        rw [dual, hsymbol, Operator.dualText_symbol]
      have hnan : v.meetsNaN c.value = false := by rwa [meetsNaN, hfield, Option.any_some] at h
      rw [check_of_symbol hfield hsymbol, check_of_symbol hfield' hdual]
      exact FieldValue.compareLiteral_dual hnan op

/-! ## Rules -/

theorem Connective.apply_dual (c : Connective) (a b : Bool) :
    c.dual.apply (!a) (!b) = !c.apply a b := by
  cases c with
  | and => exact (Bool.not_and a b).symm
  | or => exact (Bool.not_or a b).symm

theorem Connective.dualText_of_not_keyword {text : String} (h : ofKeyword? text = none) :
    dualText text = text := by
  rw [dualText, h]

theorem Connective.ofKeyword?_dualText (text : String) :
    ofKeyword? (dualText text) = (ofKeyword? text).map dual := by
  unfold dualText
  split
  · next c hc => rw [ofKeyword?_keyword, hc, Option.map_some]
  · next hnone => rw [hnone, Option.map_none]

namespace Rule

variable {record : Record} {t : Rule}

/-- At every level the dual fails where the rule fails, and else answers the opposite. -/
theorem verdict_dual (limit levels : Nat) (h : ∀ c ∈ t.conditions, c.meetsNaN record = false) :
    verdict limit record t.dual levels = negated (verdict limit record t levels) := by
  induction t generalizing levels with
  | condition c =>
    cases levels with
    | zero => rfl
    | succ levels => exact Condition.check_dual (h c (by simp [conditions]))
  | combine op l r ihl ihr =>
    obtain ⟨hl, hr⟩ := forall_conditions_combine.1 h
    cases levels with
    | zero => rfl
    | succ levels =>
      rw [dual, verdict, verdict, ihl levels hl, ihr levels hr]
      symm
      refine negated_bind fun a => negated_bind fun b => ?_
      rw [Connective.ofKeyword?_dualText]
      cases hop : Connective.ofKeyword? op with
      | none => rw [Option.map_none, Connective.dualText_of_not_keyword hop]; rfl
      | some c => exact congrArg Except.ok (c.apply_dual a b).symm

/-- **Negation.**  Where no condition compares NaN, the dual of a rule has the opposite verdict
under every limit.  It has none exactly where the rule has none, and both errors are then of one
kind. -/
theorem evaluate_dual (limit : Nat) (h : ∀ c ∈ t.conditions, c.meetsNaN record = false) :
    (∀ b, t.dual.evaluate limit record = .ok (!b) ↔ t.evaluate limit record = .ok b) ∧
    ((∀ b, t.evaluate limit record ≠ .ok b) →
      ∃ e e', t.evaluate limit record = .error e ∧ t.dual.evaluate limit record = .error e' ∧
        e'.kind = e.kind) := by
  have hverdict : t.dual.evaluate limit record = negated (t.evaluate limit record) :=
    verdict_dual limit limit h
  rw [hverdict]
  refine ⟨fun b => negated_eq_ok_iff, fun hnone => ?_⟩
  cases hanswer : t.evaluate limit record with
  | ok b => exact absurd hanswer (hnone b)
  | error e => exact ⟨e, e.dual, rfl, rfl, e.kind_dual⟩

/-- A rule on all three types of fields, and a condition that fails on the first of them.  The
text "nan" is no NaN, being compared as a text. -/
theorem evaluate_dual_mixed :
    let t := combine "OR" (combine "AND" (condition ⟨"age", "!=", "old"⟩)
      (condition ⟨"name", ">", "nan"⟩)) (condition ⟨"rate", "<=", " -1e-1 "⟩)
    let u := condition ⟨"age", ">", "old"⟩
    let record := Record.ofList
      [("age", .integer 40), ("name", .text "ann"), ("rate", .number ⟨0⟩)]
    (∀ c ∈ t.conditions, c.meetsNaN record = false) ∧
    (t.dual.evaluate 3 record = .ok (!false) ↔ t.evaluate 3 record = .ok false) ∧
    t.evaluate 3 record = .ok false ∧
    t.dual = combine "AND" (combine "OR" (condition ⟨"age", "=", "old"⟩)
      (condition ⟨"name", "<=", "nan"⟩)) (condition ⟨"rate", ">", " -1e-1 "⟩) ∧
    (∀ c ∈ u.conditions, c.meetsNaN record = false) ∧
    (∃ e e', u.evaluate 3 record = .error e ∧ u.dual.evaluate 3 record = .error e' ∧
      e'.kind = e.kind) ∧
    u.dual.evaluate 3 record = .error (.typeMismatch .lessEqual) := by
  intro t u record
  have ht : ∀ c ∈ t.conditions, c.meetsNaN record = false := by decide +kernel
  have hu : ∀ c ∈ u.conditions, c.meetsNaN record = false := by decide +kernel
  have hverdict : t.evaluate 3 record = .ok false := toOption_eq_some_iff.1 (by decide +kernel)
  have hfails : u.evaluate 3 record = .error (.typeMismatch .greater) := rfl
  refine ⟨ht, (evaluate_dual 3 ht).1 false, hverdict, rfl, hu, (evaluate_dual 3 hu).2 ?_, rfl⟩
  rw [hfails]
  rintro b ⟨⟩

-- Against NaN neither an operator nor its opposite holds.
example :
    let record := Record.ofList [("x", .number Binary64.nan)]
    let t := condition ⟨"x", "<", "1"⟩
    (t.evaluate 1 record).toOption = some false ∧
      (t.dual.evaluate 1 record).toOption = some false := by decide +kernel

end Rule

end RecordRules
