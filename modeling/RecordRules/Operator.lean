/-!
# Comparison operators

The six operators that a condition may carry, and their symbols.  An operator is decided
either by the relations of a type (`Operator.compare`) or by an order that was found before
(`admits`).  Both come to one table, in which two values without an order are different
and no other comparison holds of them (`holds`).

* `ofSymbol?_eq_some_iff`: a text names an operator exactly when it is its symbol.
* `compare_ofOrder`, `elim_admits`: both ways come to the table.
-/

namespace RecordRules

/-- A comparison of a field with a literal. -/
inductive Operator
  | greater
  | less
  | greaterEqual
  | lessEqual
  | equal
  | notEqual
  deriving DecidableEq

/-- The relations by which the values of a type are compared. -/
@[ext]
structure Relations (α : Type) where
  gt : α → α → Bool
  lt : α → α → Bool
  ge : α → α → Bool
  le : α → α → Bool
  eq : α → α → Bool
  ne : α → α → Bool

/-- The relations of an order that two values need not have. -/
def Relations.ofOrder {α : Type} (order : α → α → Option Ordering) : Relations α where
  gt x y := (order x y).any Ordering.isGT
  lt x y := (order x y).any Ordering.isLT
  ge x y := (order x y).any Ordering.isGE
  le x y := (order x y).any Ordering.isLE
  eq x y := (order x y).any Ordering.isEq
  ne x y := !(order x y).any Ordering.isEq

namespace Operator

/-- How the operator is written in a rule. -/
def symbol : Operator → String
  | greater => ">"
  | less => "<"
  | greaterEqual => ">="
  | lessEqual => "<="
  | equal => "="
  | notEqual => "!="

/-- The operator that a text writes. -/
def ofSymbol? : String → Option Operator
  | ">" => some greater
  | "<" => some less
  | ">=" => some greaterEqual
  | "<=" => some lessEqual
  | "=" => some equal
  | "!=" => some notEqual
  | _ => none

/-- Whether the comparison holds of two values, by the relation that it stands for. -/
protected def compare {α : Type} (r : Relations α) (x y : α) : Operator → Bool
  | greater => r.gt x y
  | less => r.lt x y
  | greaterEqual => r.ge x y
  | lessEqual => r.le x y
  | equal => r.eq x y
  | notEqual => r.ne x y

/-- Whether the comparison holds of two values that are in the order. -/
def admits : Operator → Ordering → Bool
  | greater, o => o == .gt
  | less, o => o == .lt
  | greaterEqual, o => o != .lt
  | lessEqual, o => o != .gt
  | equal, o => o == .eq
  | notEqual, o => o != .eq

/-- Whether the comparison holds of two values in the given order.  Values with
no order between them (`none`) are different, and no other comparison holds of
them. -/
def holds : Operator → Option Ordering → Bool
  | greater, o => o == some .gt
  | less, o => o == some .lt
  | greaterEqual, o => o == some .gt || o == some .eq
  | lessEqual, o => o == some .lt || o == some .eq
  | equal, o => o == some .eq
  | notEqual, o => o != some .eq

/-- Every operator, in the order in which a list of all comparisons gives them. -/
def all : List Operator := [greater, less, greaterEqual, lessEqual, equal, notEqual]

@[simp] theorem ofSymbol?_symbol (o : Operator) : ofSymbol? o.symbol = some o := by
  cases o <;> rfl

theorem ofSymbol?_eq_some_iff {s : String} {o : Operator} :
    ofSymbol? s = some o ↔ s = o.symbol := by
  constructor
  · intro h
    unfold ofSymbol? at h
    split at h <;> simp_all [symbol] <;> subst h <;> rfl
  · rintro rfl
    exact ofSymbol?_symbol o

/-- The relations of an order decide as the table says of it. -/
theorem compare_ofOrder {α : Type} (op : Operator) (order : α → α → Option Ordering) (x y : α) :
    op.compare (.ofOrder order) x y = op.holds (order x y) := by
  cases h : order x y with
  | none => cases op <;> simp [Operator.compare, Relations.ofOrder, holds, h]
  | some o => cases o <;> cases op <;> simp [Operator.compare, Relations.ofOrder, holds, h]

/-- An order that was found, or not, decides as the table says. -/
theorem elim_admits (op : Operator) (o : Option Ordering) :
    o.elim (op == notEqual) op.admits = op.holds o := by
  match o with
  | none => cases op <;> rfl
  | some o => cases op <;> cases o <;> rfl

end Operator

end RecordRules
