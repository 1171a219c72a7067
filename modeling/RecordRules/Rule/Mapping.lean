import RecordRules.Error
import RecordRules.Fields
import RecordRules.Json.Value
import RecordRules.Json.Writer
import RecordRules.Rule.Basic

/-!
# The mapping form of a rule

A rule as a JSON object.  Its `type` is `operand` for a condition, whose three
texts are an object under `value`, or `operator` for a combination, whose
connective is under `value` and whose sub-rules are under `left` and `right`.

Reading takes any object with these members; what else it holds is of no
account.  The literal of a condition may also be a number or a truth value,
which is kept as its JSON text.  The null value and the empty object are no rule.
-/

namespace RecordRules.Rule

/-! ## Writing -/

/-- The object that holds the texts of a condition. -/
def payload (c : Condition) : Json :=
  .object [("field", .string c.field), ("operator", .string c.operator), ("value", .string c.value)]

/-- The mapping form of a rule. -/
def toMapping : Rule → Json
  | condition c =>
    .object [("left", .null), ("right", .null), ("type", .string "operand"), ("value", payload c)]
  | combine op l r =>
    .object [("left", l.toMapping), ("right", r.toMapping), ("type", .string "operator"),
      ("value", .string op)]

/-- The mapping form as JSON text. -/
def toJsonText (t : Rule) : String := t.toMapping.render

/-! ## Reading -/

/-- The answer for a fault of the mapping form. -/
def faulty {α : Type} (fault : NodeFault) : Except Error α := .error (.badSyntax (.node fault))

/-- The text under the name of a slot. -/
def slotText (slot : Slot) (members : List (String × Json)) : Except Error String :=
  match Fields.get? slot.name members with
  | some (.string text) => .ok text
  | some other => faulty (.slotNotString slot other.kind)
  | none => faulty (.slotMissing slot)

/-- The literal of a condition: a text, or the JSON text of a number or a truth value. -/
def literalText (members : List (String × Json)) : Except Error String :=
  match Fields.get? Slot.value.name members with
  | some (.string text) => .ok text
  | some (.number x) => .ok (String.ofList x.write)
  | some (.bool b) => .ok (String.ofList (Json.writeBool b))
  | some other => faulty (.literalNotScalar other.kind)
  | none => faulty (.slotMissing .value)

/-- The condition that an object writes. -/
def ofPayload : Json → Except Error Condition
  | .object members => do
    let field ← slotText .field members
    let operator ← slotText .operator members
    let value ← literalText members
    return ⟨field, operator, value⟩
  | _ => faulty .payloadNotMapping

/-- The sub-rule on a side, given the reader of sub-rules. -/
def ofChild (read : Json → Except Error Rule) (side : Side) (members : List (String × Json)) :
    Except Error Rule :=
  match Fields.get? side.name members with
  | none => faulty (.childMissing side)
  | some .null => faulty (.childMissing side)
  | some child => read child

/-- The rule that a JSON value writes in as many levels as are left.  `limit` is
the number of levels there were at first. -/
def ofNode (limit : Nat) : (levels : Nat) → Json → Except Error Rule
  | 0, _ => .error (.nestedTooDeep limit)
  | levels + 1, .object members =>
    match Fields.get? "type" members with
    | some (.string "operand") =>
      match Fields.get? "value" members with
      | some value => (ofPayload value).map condition
      | none => faulty .conditionWithoutPayload
    | some (.string "operator") =>
      match Fields.get? "value" members with
      | some (.string op) => do
        let l ← ofChild (ofNode limit levels) .left members
        let r ← ofChild (ofNode limit levels) .right members
        return combine op l r
      | _ => faulty .connectiveNotString
    | some (.string other) => faulty (.unknownType other)
    | some other => faulty (.typeNotString other.kind)
    | none => faulty .noType
  | _ + 1, other => faulty (.notMapping other.kind)

/-- The rule that a JSON value writes, or no rule, nested no deeper than the limit. -/
def ofMapping (limit : Nat) : Json → Except Error (Option Rule)
  | .null => .ok none
  | .object [] => .ok none
  | j => (ofNode limit limit j).map some

end RecordRules.Rule

namespace RecordRules

/-- The value that a JSON text writes, as an answer. -/
def Json.parse (text : String) : Except Error Json :=
  match Json.parse? text with
  | some j => .ok j
  | none => .error .malformedJson

/-- The rule that a JSON text writes, or no rule, nested no deeper than the limit. -/
def Rule.ofJsonText (limit : Nat) (text : String) : Except Error (Option Rule) :=
  Json.parse text >>= Rule.ofMapping limit

end RecordRules
