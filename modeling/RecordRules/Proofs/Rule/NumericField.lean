import RecordRules.Proofs.Answer
import RecordRules.Proofs.Binary64.Comparison
import RecordRules.Rule.Evaluation

/-!
# Integer fields and number fields

A field that holds a number may hold it as an integer or as a double precision number, and the
two are compared with a literal in different ways.  Where the integer is a double precision
number the ways agree, whatever the condition says:

    record.get? c.field = integer n → record'.get? c.field = number (ofInt n) →
      c.check record = c.check record'

for every `n` that the format has (`check_integer_eq_number`).
-/

namespace RecordRules

open Binary64

/-- A literal has the same order against an integer and against the number that it is. -/
theorem FieldValue.orderLiteral?_integer {n : Int64} {x : Binary64}
    (h : x.reading = some ((n.toInt : ℚ) : WithBotTop ℚ)) (literal : String) :
    (integer n).orderLiteral? literal = (number x).orderLiteral? literal := by
  have horder : orderInteger n = order x := funext (orderInteger_eq_order h)
  rw [orderLiteral?, orderLiteral?, horder]

/-- **One number, two fields.**  Let one record have an integer in the field of the condition,
and the other the number that the integer is converted into.  If some number is that integer,
then the condition has the same answer on both records, be it a verdict or an error. -/
theorem Condition.check_integer_eq_number {record record' : Record} {c : Condition} {n : Int64}
    (hn : ∃ x : Binary64, x.reading = some ((n.toInt : ℚ) : WithBotTop ℚ))
    (hinteger : record.get? c.field = some (.integer n))
    (hnumber : record'.get? c.field = some (.number (ofInt n.toInt))) :
    c.check record = c.check record' := by
  obtain ⟨x, hx⟩ := hn
  unfold check
  rw [hinteger, hnumber]
  dsimp only
  split
  · rfl
  · rw [FieldValue.compareLiteral_eq, FieldValue.compareLiteral_eq,
      FieldValue.orderLiteral?_integer (reading_ofInt hx)]

/-- At the lower bound of the integers, which is a number, and a literal that is none. -/
theorem Condition.check_integer_eq_number_minValue :
    let n := Int64.minValue
    let c : Condition := ⟨"id", "!=", " -NaN "⟩
    let record := Record.ofList [("id", .integer n), ("name", .text "x")]
    let record' := Record.ofList [("id", .number (ofInt n.toInt)), ("name", .text "x")]
    (∃ x : Binary64, x.reading = some ((n.toInt : ℚ) : WithBotTop ℚ)) ∧
    record.get? c.field = some (.integer n) ∧
    record'.get? c.field = some (.number (ofInt n.toInt)) ∧
    c.check record = c.check record' ∧ c.check record = .ok true := by
  intro n c record record'
  have hn : ∃ x : Binary64, x.reading = some ((n.toInt : ℚ) : WithBotTop ℚ) :=
    ⟨⟨0xc3e0000000000000⟩, by decide +kernel⟩
  have hinteger : record.get? c.field = some (.integer n) := by decide +kernel
  have hnumber : record'.get? c.field = some (.number (ofInt n.toInt)) := by decide +kernel
  have hanswer : c.check record = .ok true := toOption_eq_some_iff.1 (by decide +kernel)
  exact ⟨hn, hinteger, hnumber, check_integer_eq_number hn hinteger hnumber, hanswer⟩

-- An integer that is no number is not equal to the one it is converted into.
example :
    let c : Condition := ⟨"id", "=", "9007199254740992"⟩
    let n : Int64 := 9007199254740993
    (c.check (Record.ofList [("id", .integer n)])).toOption = some false ∧
      (c.check (Record.ofList [("id", .number (ofInt n.toInt))])).toOption = some true := by
  decide +kernel

end RecordRules
