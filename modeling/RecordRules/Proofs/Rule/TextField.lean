import RecordRules.Proofs.Text.ByteOrder
import RecordRules.Rule.Evaluation

/-!
# Text fields against literals

A condition on a text field always has an answer.  The literal is taken as it is written, blanks
included, and each operator compares the two texts as `byteOrder` does (`Condition.check_text`).
That is the lexicographic order of their code points as well as of their bytes:

    op.holds (some (byteOrder s t)) = true  ↔  op relates codePoints s to codePoints t
                                                           (holds_byteOrder_iff_codePoints)
    op.holds (some (byteOrder s t)) = true  ↔  op relates utf8 s to utf8 t
                                                           (holds_byteOrder_iff_bytes)
-/

namespace RecordRules

open Text

/-- The comparison that an operator stands for, given which values lie below which. -/
def Operator.RelatesBy {α : Type} (Below : α → α → Prop) : Operator → α → α → Prop
  | .greater, a, b => Below b a
  | .less, a, b => Below a b
  | .greaterEqual, a, b => Below b a ∨ a = b
  | .lessEqual, a, b => Below a b ∨ a = b
  | .equal, a, b => a = b
  | .notEqual, a, b => a ≠ b

/-- If each of the three orders is found exactly where it should be, an operator holds of the
order found exactly if it relates the values. -/
theorem Operator.holds_iff_relatesBy {α : Type} {Below : α → α → Prop} {a b : α} {o : Ordering}
    (hlt : o = .lt ↔ Below a b) (heq : o = .eq ↔ a = b) (hgt : o = .gt ↔ Below b a)
    (op : Operator) : op.holds (some o) = true ↔ op.RelatesBy Below a b := by
  cases op <;> simp [holds, RelatesBy, hlt, heq, hgt]

theorem Operator.holds_byteOrder_iff_codePoints (op : Operator) (s t : String) :
    op.holds (some (byteOrder s t)) = true ↔
      op.RelatesBy (List.Lex (· < ·)) (codePoints s) (codePoints t) :=
  op.holds_iff_relatesBy byteOrder_eq_lt_iff byteOrder_eq_eq_iff byteOrder_eq_gt_iff

theorem Operator.holds_byteOrder_iff_bytes (op : Operator) (s t : String) :
    op.holds (some (byteOrder s t)) = true ↔
      op.RelatesBy (List.Lex (· < ·)) (utf8 s) (utf8 t) :=
  op.holds_iff_relatesBy compare_bytes_eq_lt_iff Std.LawfulEqOrd.compare_eq_iff_eq
    compare_bytes_eq_gt_iff

theorem Condition.check_text {record : Record} {field s : String}
    (hfield : record.get? field = some (.text s)) (op : Operator) (literal : String) :
    (Condition.mk field op.symbol literal).check record =
      .ok (op.holds (some (byteOrder s literal))) := by
  rw [check_of_symbol hfield rfl, FieldValue.compareLiteral_eq]
  rfl

/-- **Text fields.**  Each operator compares a text field with the literal as it stands: with
their code points in lexicographic order, and to the same effect with the bytes of the two. -/
theorem check_text_iff_codePoints {record : Record} {field s : String}
    (hfield : record.get? field = some (.text s)) (op : Operator) (literal : String) :
    ∃ b, (Condition.mk field op.symbol literal).check record = .ok b ∧
      (b = true ↔ op.RelatesBy (List.Lex (· < ·)) (codePoints s) (codePoints literal)) ∧
      (b = true ↔
        op.RelatesBy (List.Lex (· < ·)) s.toUTF8.data.toList literal.toUTF8.data.toList) := by
  refine ⟨_, Condition.check_text hfield op literal,
    op.holds_byteOrder_iff_codePoints s literal, ?_⟩
  rw [toUTF8_eq_utf8, toUTF8_eq_utf8]
  exact op.holds_byteOrder_iff_bytes s literal

/-- The last code point of three bytes is below the first of four; compared by units of 16 bits
it would be above. -/
theorem check_text_iff_codePoints_fourBytes :
    let record := Record.ofList [("name", .text "\uffff")]
    record.get? "name" = some (.text "\uffff") ∧
    (Condition.mk "name" "<" "𐀀").check record = .ok true ∧
    ∃ b, (Condition.mk "name" Operator.less.symbol "𐀀").check record = .ok b ∧
      (b = true ↔
        Operator.less.RelatesBy (List.Lex (· < ·)) (codePoints "\uffff") (codePoints "𐀀")) ∧
      (b = true ↔ Operator.less.RelatesBy (List.Lex (· < ·)) "\uffff".toUTF8.data.toList
        "𐀀".toUTF8.data.toList) :=
  ⟨rfl, rfl, check_text_iff_codePoints rfl .less "𐀀"⟩

-- The literal is not trimmed, and a text is above its proper beginnings.
example : (Condition.mk "name" "<" "ann ").check (Record.ofList [("name", .text "ann")]) =
    .ok true := rfl

end RecordRules
