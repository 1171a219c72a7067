import RecordRules.Rule.Basic

/-!
# Measures by a work list

The depth of a rule and the number of its conditions, computed by a loop over a
list of pending sub-rules, so that no call nests as deep as the rule.  Each
round takes one rule off the list and puts its two sub-rules on it.
-/

namespace RecordRules.Rule

/-- The number of nodes in the pending rules. -/
def pendingSize : List Rule → Nat
  | [] => 0
  | t :: pending => t.size + pendingSize pending

/-- The greatest of `deepest` and the levels at which the pending rules end;
each of them comes with the level of its root. -/
def deepestLevel (deepest : Nat) : List (Rule × Nat) → Nat
  | [] => deepest
  | (condition _, level) :: pending => deepestLevel (max deepest level) pending
  | (combine _ l r, level) :: pending =>
    deepestLevel (max deepest level) ((r, level + 1) :: (l, level + 1) :: pending)
  termination_by pending => pendingSize (pending.map (·.1))
  decreasing_by all_goals simp only [pendingSize, List.map_cons, size]; omega

/-- The depth of the rule. -/
def worklistDepth (t : Rule) : Nat := deepestLevel 0 [(t, 1)]

/-- `count` and the number of conditions in the pending rules. -/
def countConditions (count : Nat) : List Rule → Nat
  | [] => count
  | condition _ :: pending => countConditions (count + 1) pending
  | combine _ l r :: pending => countConditions count (r :: l :: pending)
  termination_by pending => pendingSize pending
  decreasing_by all_goals simp only [pendingSize, size]; omega

/-- The number of conditions in the rule. -/
def worklistCount (t : Rule) : Nat := countConditions 0 [t]

end RecordRules.Rule
