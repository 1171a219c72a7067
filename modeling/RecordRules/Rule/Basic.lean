/-!
# Rules

A rule is a binary tree of conditions.  A condition keeps its three texts as
they were written, and a combination keeps the text of its connective; neither
is checked before the rule is evaluated.
-/

namespace RecordRules

/-- A comparison of a field with a literal, as written. -/
structure Condition where
  field : String
  operator : String
  value : String
  deriving DecidableEq

/-- A rule: a condition, or two rules joined by a connective. -/
inductive Rule
  | condition (c : Condition)
  | combine (operator : String) (left right : Rule)
  deriving DecidableEq

namespace Rule

/-- A rule that is a single condition. -/
def isCondition : Rule → Bool
  | condition _ => true
  | combine .. => false

/-- The number of rules on the longest path from the root to a condition. -/
def depth : Rule → Nat
  | condition _ => 1
  | combine _ l r => max l.depth r.depth + 1

/-- The conditions of the rule, from left to right. -/
def conditions : Rule → List Condition
  | condition c => [c]
  | combine _ l r => l.conditions ++ r.conditions

/-- The texts of the connectives in the rule, each before those below it. -/
def connectives : Rule → List String
  | condition _ => []
  | combine op l r => op :: (l.connectives ++ r.connectives)

/-- The number of conditions and combinations in the rule. -/
def size : Rule → Nat
  | condition _ => 1
  | combine _ l r => l.size + r.size + 1

theorem depth_pos (t : Rule) : 0 < t.depth := by
  cases t <;> simp [depth]

theorem forall_conditions_combine {p : Condition → Prop} {op : String} {l r : Rule} :
    (∀ c ∈ (combine op l r).conditions, p c) ↔
      (∀ c ∈ l.conditions, p c) ∧ ∀ c ∈ r.conditions, p c := List.forall_mem_append

theorem forall_connectives_combine {p : String → Prop} {op : String} {l r : Rule} :
    (∀ o ∈ (combine op l r).connectives, p o) ↔
      p op ∧ (∀ o ∈ l.connectives, p o) ∧ ∀ o ∈ r.connectives, p o := by
  rw [connectives, List.forall_mem_cons, List.forall_mem_append]

end Rule

end RecordRules
