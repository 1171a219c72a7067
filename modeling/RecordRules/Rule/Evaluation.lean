import RecordRules.Decimal.Numeral
import RecordRules.Error
import RecordRules.Record
import RecordRules.Rule.Basic
import RecordRules.Text

/-!
# Evaluating a rule

A condition compares a field with its literal: a number with the number that
the literal writes, a text with the literal as it stands.  A number is different
from a literal that writes none, and has no order against it.  An integer is
compared by its order against the number, numbers and texts by the relations of
their types; either way the answer is read off one order (`compareLiteral_eq`).

A rule is evaluated to the end on both sides of each connective, so that an
error anywhere is an error of the rule.  The first one counts: of the left side,
of the right side, then of the connective; and a rule below the limit is not
looked into.
-/

namespace RecordRules

/-! ## Comparisons -/

/-- Two numbers are compared by the relations of the format. -/
def Binary64.relations : Relations Binary64 where
  gt := relate fun a b => a > b
  lt := relate fun a b => a < b
  ge := relate fun a b => a ≥ b
  le := relate fun a b => a ≤ b
  eq := relate fun a b => a == b
  ne x y := !relate (fun a b => a == b) x y

/-- Two texts are equal when their bytes are, and else compared by the order of these. -/
def Text.relations : Relations String where
  gt s t := (byteOrder s t).isGT
  lt s t := (byteOrder s t).isLT
  ge s t := (byteOrder s t).isGE
  le s t := (byteOrder s t).isLE
  eq s t := utf8 s == utf8 t
  ne s t := !(utf8 s == utf8 t)

/-- The answer for a number and a literal that writes none. -/
def Operator.mismatched : Operator → Except Error Bool
  | .equal => .ok false
  | .notEqual => .ok true
  | operator => .error (.typeMismatch operator)

/-- Whether a comparison of a field value with a literal holds. -/
def FieldValue.compareLiteral (v : FieldValue) (operator : Operator) (literal : String) :
    Except Error Bool :=
  match v with
  | integer n =>
    match Decimal.literal? literal with
    | some x => .ok ((Binary64.orderInteger n x).elim (operator == .notEqual) operator.admits)
    | none => operator.mismatched
  | number x =>
    match Decimal.literal? literal with
    | some y => .ok (operator.compare Binary64.relations x y)
    | none => operator.mismatched
  | text s => .ok (operator.compare Text.relations s literal)

/-! ## One order for all operators -/

/-- The order of a field value and a literal, `none` where the value is a number
and the literal writes none. -/
def FieldValue.orderLiteral? (v : FieldValue) (literal : String) : Option (Option Ordering) :=
  match v with
  | integer n => (Decimal.literal? literal).map (Binary64.orderInteger n)
  | number x => (Decimal.literal? literal).map (Binary64.order x)
  | text s => some (some (Text.byteOrder s literal))

/-- A relation of two values that their order decides. -/
theorem Binary64.relate_eq {p : Int → Int → Bool} {q : Ordering → Bool}
    (h : ∀ a b, p a b = q (compare a b)) (x y : Binary64) :
    relate p x y = (order x y).any q := by
  unfold relate order
  cases x.isNaN with
  | true => rfl
  | false =>
    cases y.isNaN with
    | true => rfl
    | false => exact h x.units y.units

/-- The relations of the format are those of the order. -/
theorem Binary64.relations_eq : relations = .ofOrder order := by
  have hgt : ∀ a b : Int, decide (a > b) = (compare a b).isGT := by
    intro a b
    rw [Bool.eq_iff_iff, decide_eq_true_iff, Ordering.isGT_iff_eq_gt, Int.compare_eq_gt]
  have hlt : ∀ a b : Int, decide (a < b) = (compare a b).isLT := by
    intro a b
    rw [Bool.eq_iff_iff, decide_eq_true_iff, Ordering.isLT_iff_eq_lt, Int.compare_eq_lt]
  have hge : ∀ a b : Int, decide (a ≥ b) = (compare a b).isGE := by
    intro a b
    rw [Bool.eq_iff_iff, decide_eq_true_iff, Int.isGE_compare]
  have hle : ∀ a b : Int, decide (a ≤ b) = (compare a b).isLE := by
    intro a b
    rw [Bool.eq_iff_iff, decide_eq_true_iff, Int.isLE_compare]
  have heq : ∀ a b : Int, (a == b) = (compare a b).isEq := by
    intro a b
    rw [Bool.eq_iff_iff, beq_iff_eq, Ordering.isEq_iff_eq_eq, Int.compare_eq_eq]
  ext x y
  case gt => exact relate_eq hgt x y
  case lt => exact relate_eq hlt x y
  case ge => exact relate_eq hge x y
  case le => exact relate_eq hle x y
  case eq => exact relate_eq heq x y
  case ne => exact congrArg not (relate_eq heq x y)

/-- The relations of texts are those of the order of their bytes. -/
theorem Text.relations_eq : relations = .ofOrder fun s t => some (byteOrder s t) := by
  have heq : ∀ s t, (utf8 s == utf8 t) = (byteOrder s t).isEq := by
    intro s t
    rw [Bool.eq_iff_iff, beq_iff_eq, Ordering.isEq_iff_eq_eq, byteOrder,
      Std.LawfulEqOrd.compare_eq_iff_eq]
  ext s t
  case gt | lt | ge | le => rfl
  case eq => exact heq s t
  case ne => exact congrArg not (heq s t)

/-- The operators read one order, whatever decides them. -/
theorem FieldValue.compareLiteral_eq (v : FieldValue) (operator : Operator) (literal : String) :
    v.compareLiteral operator literal =
      match v.orderLiteral? literal with
      | some order => .ok (operator.holds order)
      | none => operator.mismatched := by
  cases v with
  | integer n =>
    rw [compareLiteral, orderLiteral?]
    cases Decimal.literal? literal with
    | none => rfl
    | some x => exact congrArg Except.ok (operator.elim_admits _)
  | number x =>
    rw [compareLiteral, orderLiteral?]
    cases Decimal.literal? literal with
    | none => rfl
    | some y =>
      rw [Binary64.relations_eq]
      exact congrArg Except.ok (operator.compare_ofOrder _ x y)
  | text s =>
    rw [compareLiteral, Text.relations_eq]
    exact congrArg Except.ok (operator.compare_ofOrder _ s literal)

/-! ## Conditions -/

/-- Whether the condition holds of a record. -/
def Condition.check (c : Condition) (record : Record) : Except Error Bool :=
  match record.get? c.field with
  | none => .error (.fieldNotFound c.field)
  | some v =>
    match Operator.ofSymbol? c.operator with
    | none => .error (.unsupportedOperator c.operator)
    | some operator => v.compareLiteral operator c.value

theorem Condition.check_of_absent {c : Condition} {record : Record}
    (h : record.get? c.field = none) : c.check record = .error (.fieldNotFound c.field) := by
  rw [check, h]

theorem Condition.check_of_not_symbol {c : Condition} {record : Record} {v : FieldValue}
    (hfield : record.get? c.field = some v) (hoperator : Operator.ofSymbol? c.operator = none) :
    c.check record = .error (.unsupportedOperator c.operator) := by
  rw [check, hfield]
  dsimp only
  rw [hoperator]

theorem Condition.check_of_symbol {c : Condition} {record : Record} {v : FieldValue}
    {op : Operator} (hfield : record.get? c.field = some v) (hoperator : c.operator = op.symbol) :
    c.check record = v.compareLiteral op c.value := by
  rw [check, hfield]
  dsimp only
  rw [hoperator, Operator.ofSymbol?_symbol]

namespace Rule

/-- The verdict of a rule that may nest as many levels as are left.  `limit` is
the number of levels there were at first. -/
def verdict (limit : Nat) (record : Record) : Rule → (levels : Nat) → Except Error Bool
  | _, 0 => .error (.depthExceeded limit)
  | condition c, _ + 1 => c.check record
  | combine op l r, levels + 1 => do
    let a ← verdict limit record l levels
    let b ← verdict limit record r levels
    match Connective.ofKeyword? op with
    | some c => return c.apply a b
    | none => .error (.unsupportedOperator op)

/-- The verdict of a rule on a record, nested no deeper than the limit. -/
def evaluate (limit : Nat) (t : Rule) (record : Record) : Except Error Bool :=
  verdict limit record t limit

/-- The verdict where there may be no rule: no rule always holds. -/
def evaluateOptional (limit : Nat) (t : Option Rule) (record : Record) : Except Error Bool :=
  match t with
  | some t => t.evaluate limit record
  | none => .ok true

end Rule

end RecordRules
