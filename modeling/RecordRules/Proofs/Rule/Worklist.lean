import Mathlib.Algebra.Group.Nat.Defs
import RecordRules.Rule.Worklist

/-!
# The work list computes the measures

The loops over pending sub-rules end, after one round for each node, with the depth of
the rule and with the number of its conditions.  What a loop has found and what the
pending rules still owe it stay together the same in every round:

    deepestLevel deepest pending = max deepest (levelOwed pending)          (deepestLevel_eq)
    countConditions count pending = count + conditionsOwed pending          (countConditions_eq)

Conditions are the leaves of a binary tree, so there are at least as many of them as the
rule is deep and at most as many as a full tree of that depth has.
-/

namespace RecordRules.Rule

/-! ## Rounds -/

/-- From `s` the loop makes `n` rounds and then stops in `s'`. -/
inductive Stops {σ : Type} (round : σ → Option σ) : σ → Nat → σ → Prop
  | done {s : σ} : round s = none → Stops round s 0 s
  | more {s next s' : σ} {n : Nat} : round s = some next → Stops round next n s' →
    Stops round s (n + 1) s'

/-- A round of the loop for the depth: one pending rule is taken off, and its sub-rules
are put on, one level below it. -/
def depthRound : Nat × List (Rule × Nat) → Option (Nat × List (Rule × Nat))
  | (_, []) => none
  | (deepest, (condition _, level) :: pending) => some (max deepest level, pending)
  | (deepest, (combine _ l r, level) :: pending) =>
    some (max deepest level, (r, level + 1) :: (l, level + 1) :: pending)

/-- A round of the loop for the number of conditions. -/
def countRound : Nat × List Rule → Option (Nat × List Rule)
  | (_, []) => none
  | (count, condition _ :: pending) => some (count + 1, pending)
  | (count, combine _ l r :: pending) => some (count, r :: l :: pending)

/-- Each round does away with one node, so the loop ends when all nodes are done. -/
theorem stops_depthRound (deepest : Nat) (pending : List (Rule × Nat)) :
    Stops depthRound (deepest, pending) (pendingSize (pending.map (·.1)))
      (deepestLevel deepest pending, []) := by
  fun_induction deepestLevel deepest pending with
  | case1 deepest => exact .done rfl
  | case2 deepest c level pending ih =>
    have hsize : pendingSize (((condition c, level) :: pending).map (·.1)) =
        pendingSize (pending.map (·.1)) + 1 := by
      simp only [List.map_cons, pendingSize, size]
      omega
    rw [hsize]
    exact .more rfl ih
  | case3 deepest op l r level pending ih =>
    have hsize : pendingSize (((combine op l r, level) :: pending).map (·.1)) =
        pendingSize (((r, level + 1) :: (l, level + 1) :: pending).map (·.1)) + 1 := by
      simp only [List.map_cons, pendingSize, size]
      omega
    rw [hsize]
    exact .more rfl ih

theorem stops_countRound (count : Nat) (pending : List Rule) :
    Stops countRound (count, pending) (pendingSize pending)
      (countConditions count pending, []) := by
  fun_induction countConditions count pending with
  | case1 count => exact .done rfl
  | case2 count c pending ih =>
    have hsize : pendingSize (condition c :: pending) = pendingSize pending + 1 := by
      simp only [pendingSize, size]
      omega
    rw [hsize]
    exact .more rfl ih
  | case3 count op l r pending ih =>
    have hsize : pendingSize (combine op l r :: pending) =
        pendingSize (r :: l :: pending) + 1 := by
      simp only [pendingSize, size]
      omega
    rw [hsize]
    exact .more rfl ih

/-! ## What the pending rules owe -/

/-- The deepest level that the pending rules reach; a rule of depth one reaches its own. -/
def levelOwed : List (Rule × Nat) → Nat
  | [] => 0
  | (t, level) :: pending => max (level + t.depth - 1) (levelOwed pending)

/-- The number of conditions in the pending rules. -/
def conditionsOwed : List Rule → Nat
  | [] => 0
  | t :: pending => t.conditions.length + conditionsOwed pending

theorem levelOwed_condition (c : Condition) (level : Nat) (pending : List (Rule × Nat)) :
    levelOwed ((condition c, level) :: pending) = max level (levelOwed pending) := rfl

/-- A combination reaches what its two sub-rules reach one level below it. -/
theorem levelOwed_combine (op : String) (l r : Rule) (level : Nat)
    (pending : List (Rule × Nat)) :
    levelOwed ((combine op l r, level) :: pending) =
      max level (levelOwed ((r, level + 1) :: (l, level + 1) :: pending)) := by
  have hl := l.depth_pos
  have hr := r.depth_pos
  simp only [levelOwed, depth]
  omega

theorem conditionsOwed_combine (op : String) (l r : Rule) (pending : List Rule) :
    conditionsOwed (combine op l r :: pending) = conditionsOwed (r :: l :: pending) := by
  simp only [conditionsOwed, conditions, List.length_append]
  omega

theorem deepestLevel_eq (deepest : Nat) (pending : List (Rule × Nat)) :
    deepestLevel deepest pending = max deepest (levelOwed pending) := by
  fun_induction deepestLevel deepest pending with
  | case1 deepest => simp [levelOwed]
  | case2 deepest c level pending ih => rw [ih, levelOwed_condition, Nat.max_assoc]
  | case3 deepest op l r level pending ih => rw [ih, levelOwed_combine, Nat.max_assoc]

theorem countConditions_eq (count : Nat) (pending : List Rule) :
    countConditions count pending = count + conditionsOwed pending := by
  fun_induction countConditions count pending with
  | case1 count => rfl
  | case2 count c pending ih =>
    rw [ih]
    simp only [conditionsOwed, conditions, List.length_singleton]
    omega
  | case3 count op l r pending ih => rw [ih, conditionsOwed_combine]

theorem worklistDepth_eq (t : Rule) : t.worklistDepth = t.depth := by
  have h := t.depth_pos
  rw [worklistDepth, deepestLevel_eq]
  simp only [levelOwed]
  omega

theorem worklistCount_eq (t : Rule) : t.worklistCount = t.conditions.length := by
  rw [worklistCount, countConditions_eq]
  simp only [conditionsOwed]
  omega

/-! ## Depth against number -/

/-- Along the longest path every combination has a condition beside the path. -/
theorem depth_le_length_conditions (t : Rule) : t.depth ≤ t.conditions.length := by
  induction t with
  | condition c => exact Nat.le_refl 1
  | combine op l r ihl ihr =>
    have hl := l.depth_pos
    have hr := r.depth_pos
    simp only [depth, conditions, List.length_append]
    omega

theorem length_conditions_le (t : Rule) : t.conditions.length ≤ 2 ^ (t.depth - 1) := by
  induction t with
  | condition c => exact Nat.le_refl 1
  | combine op l r ihl ihr =>
    obtain ⟨d, hd⟩ : ∃ d, max l.depth r.depth = d + 1 :=
      ⟨max l.depth r.depth - 1, by have := l.depth_pos; omega⟩
    have hl : 2 ^ (l.depth - 1) ≤ 2 ^ d := Nat.pow_le_pow_right Nat.two_pos (by omega)
    have hr : 2 ^ (r.depth - 1) ≤ 2 ^ d := Nat.pow_le_pow_right Nat.two_pos (by omega)
    calc (combine op l r).conditions.length
        = l.conditions.length + r.conditions.length := List.length_append
      _ ≤ 2 ^ d + 2 ^ d := Nat.add_le_add (Nat.le_trans ihl hl) (Nat.le_trans ihr hr)
      _ = 2 ^ ((combine op l r).depth - 1) := by
        rw [depth, hd, Nat.add_sub_cancel, Nat.pow_succ, Nat.mul_two]

/-! ## The measures -/

/-- **The loops compute the measures.**  Both end, after one round for each node of the
rule, with the depth of the rule and with the number of its conditions; and the number is
at least the depth and at most that of a full tree. -/
theorem worklist_measures (t : Rule) :
    Stops depthRound (0, [(t, 1)]) t.size (t.depth, []) ∧
    Stops countRound (0, [t]) t.size (t.conditions.length, []) ∧
    t.worklistDepth = t.depth ∧
    t.worklistCount = t.conditions.length ∧
    t.worklistDepth ≤ t.worklistCount ∧
    t.worklistCount ≤ 2 ^ (t.worklistDepth - 1) := by
  have hdepth := stops_depthRound 0 [(t, 1)]
  have hcount := stops_countRound 0 [t]
  rw [show deepestLevel 0 [(t, 1)] = t.depth from worklistDepth_eq t] at hdepth
  rw [show countConditions 0 [t] = t.conditions.length from worklistCount_eq t] at hcount
  rw [worklistDepth_eq, worklistCount_eq]
  exact ⟨hdepth, hcount, rfl, rfl, depth_le_length_conditions t, length_conditions_le t⟩

end RecordRules.Rule
