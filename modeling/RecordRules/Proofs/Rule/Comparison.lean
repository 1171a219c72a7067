import RecordRules.Proofs.Answer
import RecordRules.Proofs.Binary64.Comparison
import RecordRules.Rule.Evaluation

/-!
# The six comparisons of a field with a literal

The answers of the six operators about one field and one literal fit together (`Coherent`).
They all come from one comparison, and the field and the literal show beforehand whether it can
be made, and whether it finds an order:

    v.orderLiteral? literal = none     ↔  v.Mismatches literal       (orderLiteral?_eq_none_iff)
    v.orderLiteral? literal = some o   →  (o = none ↔ v.meetsNaN literal = true)
                                                                (eq_none_iff_of_orderLiteral?)

On a mismatch only equality has an answer (`coherent_of_mismatches`); else all six are read off
the order, or off its absence (`coherent_of_order`).
-/

namespace RecordRules

open Binary64

/-! ## Fields and literals -/

/-- Whether the field holds a number. -/
def FieldValue.isNumeric : FieldValue → Bool
  | integer _ | number _ => true
  | text _ => false

/-- Whether the field holds NaN. -/
def FieldValue.isNaN : FieldValue → Bool
  | number x => x.isNaN
  | integer _ | text _ => false

/-- Whether the literal, read as a number, is NaN. -/
def Decimal.writesNaN (literal : String) : Bool := (literal? literal).any (·.isNaN)

/-- Whether a numeric comparison of the field with the literal has NaN on one of its sides. -/
def FieldValue.meetsNaN (v : FieldValue) (literal : String) : Bool :=
  v.isNumeric && (v.isNaN || Decimal.writesNaN literal)

/-- A field that holds a number, against a literal that writes none. -/
def FieldValue.Mismatches (v : FieldValue) (literal : String) : Prop :=
  v.isNumeric = true ∧ Decimal.literal? literal = none

namespace FieldValue

variable {v : FieldValue} {literal : String} {o : Option Ordering}

theorem orderLiteral?_eq_none_iff : v.orderLiteral? literal = none ↔ v.Mismatches literal := by
  cases v with
  | integer n => simp [orderLiteral?, Mismatches, isNumeric]
  | number x => simp [orderLiteral?, Mismatches, isNumeric]
  | text s => simp [orderLiteral?, Mismatches, isNumeric]

/-- Where the two can be compared, it is NaN that leaves them without an order. -/
theorem eq_none_iff_of_orderLiteral? (h : v.orderLiteral? literal = some o) :
    o = none ↔ v.meetsNaN literal = true := by
  cases v with
  | integer n =>
    obtain ⟨x, hx, rfl⟩ := Option.map_eq_some_iff.1 h
    rw [orderInteger_eq_none_iff]
    simp [meetsNaN, isNumeric, isNaN, Decimal.writesNaN, hx]
  | number y =>
    obtain ⟨x, hx, rfl⟩ := Option.map_eq_some_iff.1 h
    rw [order_eq_none_iff]
    simp [meetsNaN, isNumeric, isNaN, Decimal.writesNaN, hx]
  | text s =>
    obtain rfl : some (Text.byteOrder s literal) = o := Option.some.inj h
    simp [meetsNaN, isNumeric]

theorem compareLiteral_of_order (h : v.orderLiteral? literal = some o) (op : Operator) :
    v.compareLiteral op literal = .ok (op.holds o) := by
  rw [compareLiteral_eq, h]

theorem compareLiteral_of_mismatches (h : v.Mismatches literal) (op : Operator) :
    v.compareLiteral op literal = op.mismatched := by
  rw [compareLiteral_eq, orderLiteral?_eq_none_iff.2 h]

/-- A field and a literal that do not mismatch have an order, or are known to have none. -/
theorem exists_order (h : ¬ v.Mismatches literal) : ∃ o, v.orderLiteral? literal = some o := by
  rw [← orderLiteral?_eq_none_iff] at h
  exact Option.ne_none_iff_exists'.1 h

end FieldValue

/-! ## Operators -/

/-- An operator that asks for the order of two values, and not only whether they are equal. -/
def Operator.IsOrdering : Operator → Prop
  | .greater | .less | .greaterEqual | .lessEqual => True
  | .equal | .notEqual => False

namespace Operator

theorem holds_notEqual (o : Option Ordering) : notEqual.holds o = !equal.holds o := rfl

theorem holds_greaterEqual (o : Option Ordering) :
    greaterEqual.holds o = (greater.holds o || equal.holds o) := rfl

theorem holds_lessEqual (o : Option Ordering) :
    lessEqual.holds o = (less.holds o || equal.holds o) := rfl

/-- How many of the three orders hold: one, unless there is no order. -/
theorem count_holds (o : Option Ordering) :
    (less.holds o).toNat + (equal.holds o).toNat + (greater.holds o).toNat =
      if o = none then 0 else 1 := by
  cases o with
  | none => rfl
  | some o => cases o <;> rfl

theorem mismatched_of_isOrdering {op : Operator} (h : op.IsOrdering) :
    op.mismatched = .error (.typeMismatch op) := by
  cases op with
  | equal => cases h
  | notEqual => cases h
  | _ => rfl

end Operator

/-! ## Coherence -/

/-- What the answers of the six operators about a field and a literal have to do with each
other. -/
structure Coherent (v : FieldValue) (literal : String) (answer : Operator → Except Error Bool) :
    Prop where
  /-- Equality always has an answer, and its opposite the opposite one. -/
  opposite : ∃ b, answer .equal = .ok b ∧ answer .notEqual = .ok (!b)
  /-- The other four have answers together. -/
  together : (∀ op : Operator, op.IsOrdering → ∃ b, answer op = .ok b) ∨
    ∀ op : Operator, op.IsOrdering → ∃ e, answer op = .error e
  /-- They fail on a mismatch alone, each with its own name. -/
  fails_iff : ∀ op : Operator, op.IsOrdering →
    ∀ e, answer op = .error e ↔ e = .typeMismatch op ∧ v.Mismatches literal
  /-- Else they all follow from three, of which one is true unless NaN is compared. -/
  ordered : ¬ v.Mismatches literal → ∃ less equal greater : Bool,
    answer .less = .ok less ∧ answer .equal = .ok equal ∧ answer .greater = .ok greater ∧
    answer .lessEqual = .ok (less || equal) ∧ answer .greaterEqual = .ok (greater || equal) ∧
    less.toNat + equal.toNat + greater.toNat ≤ 1 ∧
    (less.toNat + equal.toNat + greater.toNat = 1 ↔ v.meetsNaN literal = false)

theorem coherent_of_mismatches {v : FieldValue} {literal : String} (h : v.Mismatches literal) :
    Coherent v literal fun op => v.compareLiteral op literal := by
  simp only [FieldValue.compareLiteral_of_mismatches h]
  constructor
  case opposite => exact ⟨false, rfl, rfl⟩
  case together => exact .inr fun op hop => ⟨_, op.mismatched_of_isOrdering hop⟩
  case fails_iff =>
    intro op hop e
    rw [op.mismatched_of_isOrdering hop]
    constructor
    · rintro ⟨⟩
      exact ⟨rfl, h⟩
    · rintro ⟨rfl, -⟩
      rfl
  case ordered => exact fun hnot => absurd h hnot

theorem coherent_of_order {v : FieldValue} {literal : String} {o : Option Ordering}
    (h : v.orderLiteral? literal = some o) :
    Coherent v literal fun op => v.compareLiteral op literal := by
  have hnot : ¬ v.Mismatches literal := by
    rw [← FieldValue.orderLiteral?_eq_none_iff, h]
    exact Option.some_ne_none o
  simp only [FieldValue.compareLiteral_of_order h]
  constructor
  case opposite => exact ⟨_, rfl, congrArg _ (Operator.holds_notEqual o)⟩
  case together => exact .inl fun op _ => ⟨_, rfl⟩
  case fails_iff =>
    intro op _ e
    constructor
    · rintro ⟨⟩
    · rintro ⟨-, hmismatch⟩
      exact absurd hmismatch hnot
  case ordered =>
    intro _
    refine ⟨_, _, _, rfl, rfl, rfl, congrArg _ (Operator.holds_lessEqual o),
      congrArg _ (Operator.holds_greaterEqual o), ?_, ?_⟩
    · rw [Operator.count_holds]
      split <;> decide
    · -- one of the three holds exactly if an order was found
      rw [Operator.count_holds, ← Bool.not_eq_true, ← FieldValue.eq_none_iff_of_orderLiteral? h]
      split <;> simp_all

theorem coherent_compareLiteral (v : FieldValue) (literal : String) :
    Coherent v literal fun op => v.compareLiteral op literal := by
  by_cases h : v.Mismatches literal
  · exact coherent_of_mismatches h
  · obtain ⟨o, ho⟩ := FieldValue.exists_order h
    exact coherent_of_order ho

/-- **The six operators.**  About a field that is there they answer coherently.  A field that is
not there is the error of every condition on it, and else an operator outside the six is, both
whatever the rest of the condition says. -/
theorem check_coherent (record : Record) (field literal : String) :
    (∀ v, record.get? field = some v →
      Coherent v literal fun op => (Condition.mk field op.symbol literal).check record) ∧
    (record.get? field = none → ∀ operator,
      (Condition.mk field operator literal).check record = .error (.fieldNotFound field)) ∧
    ∀ v operator, record.get? field = some v → (∀ op : Operator, operator ≠ op.symbol) →
      (Condition.mk field operator literal).check record =
        .error (.unsupportedOperator operator) := by
  refine ⟨fun v hv => ?_, fun hnone operator => Condition.check_of_absent hnone,
    fun v operator hv hoperator => Condition.check_of_not_symbol hv ?_⟩
  · have hcheck : ∀ op : Operator, (Condition.mk field op.symbol literal).check record =
        v.compareLiteral op literal := fun op => Condition.check_of_symbol hv rfl
    simp only [hcheck]
    exact coherent_compareLiteral v literal
  · rw [Option.eq_none_iff_forall_ne_some]
    exact fun op hop => hoperator op (Operator.ofSymbol?_eq_some_iff.1 hop)

/-- A field that holds NaN, against a number: none of the three orders holds. -/
theorem check_coherent_nan :
    let record := Record.ofList [("x", .number nan)]
    record.get? "x" = some (.number nan) ∧ record.get? "y" = none ∧
    (∀ op : Operator, "==" ≠ op.symbol) ∧
    (Coherent (.number nan) " 1 " fun op => (Condition.mk "x" op.symbol " 1 ").check record) ∧
    (FieldValue.number nan).meetsNaN " 1 " = true ∧
    (Condition.mk "y" "==" " 1 ").check record = .error (.fieldNotFound "y") ∧
    (Condition.mk "x" "==" " 1 ").check record = .error (.unsupportedOperator "==") := by
  intro record
  have hsymbol : ∀ op : Operator, "==" ≠ op.symbol := by
    intro op
    cases op <;> decide
  obtain ⟨hcoherent, -, hunsupported⟩ := check_coherent record "x" " 1 "
  obtain ⟨-, habsent, -⟩ := check_coherent record "y" " 1 "
  exact ⟨rfl, rfl, hsymbol, hcoherent _ rfl, by decide +kernel, habsent rfl "==",
    hunsupported _ "==" rfl hsymbol⟩

end RecordRules
