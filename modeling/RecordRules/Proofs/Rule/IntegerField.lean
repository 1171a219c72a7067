import RecordRules.Proofs.Binary64.Order
import RecordRules.Proofs.Decimal.Spelling
import RecordRules.Rule.Evaluation

/-!
# Integer fields against decimal literals

A condition on an integer field compares the integer, with no rounding of its own, with
the double precision number nearest to its literal.  So the comparison with the literal
itself comes out right unless the integer lies between the two:

    every operator is right about n and q  ↔  q = r, or n < q and n < r, or q < n and r < n

for the value `q` of the literal and the number `r` nearest to it
(`check_integer_iff_nearest`).  At 2^53 + 1 an integer is found different from itself
(`check_integer_ne_self`).
-/

namespace RecordRules

open Binary64

/-- The comparison of two rational numbers that an operator stands for. -/
def Operator.Relates : Operator → ℚ → ℚ → Prop
  | .greater, a, b => a > b
  | .less, a, b => a < b
  | .greaterEqual, a, b => a ≥ b
  | .lessEqual, a, b => a ≤ b
  | .equal, a, b => a = b
  | .notEqual, a, b => a ≠ b

theorem Operator.holds_compare_iff (op : Operator) (a b : ℚ) :
    op.holds (some (compare a b)) = true ↔ op.Relates a b := by
  rcases lt_trichotomy a b with h | h | h
  · rw [compare_lt_iff_lt.2 h]
    cases op <;> simp [holds, Relates, h, h.le, h.ne, h.not_gt, h.not_ge]
  · rw [compare_eq_iff_eq.2 h]
    cases op <;> simp [holds, Relates, h]
  · rw [compare_gt_iff_gt.2 h]
    cases op <;> simp [holds, Relates, h, h.le, h.ne', h.not_gt, h.not_ge]

/-- All operators agree about two right sides exactly when the left side is on the same
side of both, or the two are equal. -/
theorem Operator.relates_congr_iff {a b c : ℚ} :
    (∀ op : Operator, op.Relates a b ↔ op.Relates a c) ↔
      c = b ∨ a < c ∧ a < b ∨ c < a ∧ b < a := by
  constructor
  · intro h
    have hless : a < b ↔ a < c := h .less
    have hgreater : a > b ↔ a > c := h .greater
    rcases lt_trichotomy a b with hab | hab | hab
    · exact .inr (.inl ⟨hless.1 hab, hab⟩)
    · left
      have hequal : a = b ↔ a = c := h .equal
      rw [← hequal.1 hab, hab]
    · exact .inr (.inr ⟨hgreater.1 hab, hab⟩)
  · rintro (rfl | ⟨hc, hb⟩ | ⟨hc, hb⟩) op
    · exact Iff.rfl
    · cases op <;> simp [Relates, hc, hb, hc.le, hb.le, hc.ne, hb.ne, hc.not_gt, hb.not_gt,
        hc.not_ge, hb.not_ge]
    · cases op <;> simp [Relates, hc, hb, hc.le, hb.le, hc.ne', hb.ne', hc.not_gt, hb.not_gt,
        hc.not_ge, hb.not_ge]

/-- A literal that is a number is compared with an integer field as that number. -/
theorem Condition.check_integer {record : Record} {field : String} {n : Int64}
    (hfield : record.get? field = some (.integer n)) {literal : String} {x : Binary64}
    (hliteral : Decimal.literal? literal = some x) (hx : x.isNaN = false) (op : Operator) :
    (Condition.mk field op.symbol literal).check record =
      .ok (op.holds (some (compare (n.toInt : ℚ) x.value))) := by
  rw [check_of_symbol hfield rfl, FieldValue.compareLiteral_eq, FieldValue.orderLiteral?, hliteral,
    Option.map_some, orderInteger_eq n hx]

/-- For every operator the answer is whether it relates the two numbers. -/
def Decides (answer : Operator → Except Error Bool) (a b : ℚ) : Prop :=
  ∀ op, ∃ v, answer op = .ok v ∧ (v = true ↔ op.Relates a b)

/-- **Integer fields.**  Each operator compares the integer with the number nearest to the
literal, and the six of them are right about the literal itself exactly when the literal
is that number or the integer does not lie between them. -/
theorem check_integer_iff_nearest {record : Record} {field : String} {n : Int64}
    (hfield : record.get? field = some (.integer n)) (s : Decimal.Spelling) :
    let answer := fun op : Operator => (Condition.mk field op.symbol s.text).check record
    ∃ r : Binary64, r.IsNearest s.value ∧ Decides answer n.toInt r.value ∧
      (Decides answer n.toInt s.value ↔
        s.value = r.value ∨ n.toInt < s.value ∧ n.toInt < r.value ∨
          s.value < n.toInt ∧ r.value < n.toInt) := by
  intro answer
  obtain ⟨r, hliteral, hnearest⟩ := s.literal?_spelling
  have hcheck := Condition.check_integer hfield hliteral hnearest.isNaN_eq
  refine ⟨r, hnearest, fun op => ⟨_, hcheck op, op.holds_compare_iff _ _⟩, ?_⟩
  rw [← Operator.relates_congr_iff]
  constructor
  · intro h op
    obtain ⟨b, hb, hiff⟩ := h op
    rw [← hiff, ← Except.ok.inj ((hcheck op).symm.trans hb), op.holds_compare_iff]
  · intro h op
    exact ⟨_, hcheck op, (op.holds_compare_iff _ _).trans (h op)⟩

/-- The least natural number that is no double precision number, as it is written. -/
def leastInexact : Decimal.Spelling :=
  ⟨none, [9, 0, 0, 7, 1, 9, 9, 2, 5, 4, 7, 4, 0, 9, 9, 3], none, none, .inl (by simp)⟩

theorem check_integer_iff_nearest_leastInexact :
    let n : Int64 := 9007199254740993
    let record := Record.ofList [("id", .integer n)]
    let answer := fun op : Operator => (Condition.mk "id" op.symbol leastInexact.text).check record
    record.get? "id" = some (.integer n) ∧
    ∃ r : Binary64, r.IsNearest leastInexact.value ∧ Decides answer n.toInt r.value ∧
      (Decides answer n.toInt leastInexact.value ↔
        leastInexact.value = r.value ∨ n.toInt < leastInexact.value ∧ n.toInt < r.value ∨
          leastInexact.value < n.toInt ∧ r.value < n.toInt) :=
  ⟨rfl, check_integer_iff_nearest rfl leastInexact⟩

/-- The literal writes the integer that the field holds, and yet the two are not equal. -/
theorem check_integer_ne_self :
    leastInexact.text = "9007199254740993" ∧
    Operator.equal.Relates (9007199254740993 : Int64).toInt leastInexact.value ∧
    (Condition.mk "id" Operator.equal.symbol leastInexact.text).check
      (Record.ofList [("id", .integer 9007199254740993)]) = .ok false := by
  refine ⟨by decide, ?_, by decide +kernel⟩
  have hvalue : (9007199254740993 : Int64).toInt = 9007199254740993 := by decide
  simp [Operator.Relates, leastInexact, Decimal.Spelling.value, hvalue,
    Decimal.Spelling.fractionDigits, Decimal.Spelling.exponentValue, Decimal.digitsValue,
    Nat.ofDigits]

end RecordRules
