import RecordRules.Proofs.Answer
import RecordRules.Rule.Evaluation

/-!
# Evaluation is eager, and the first error counts

A rule has a verdict exactly when nothing in it fails (`Faultless`): no node lies below
the limit, every condition has an answer, and every connective exists.  The verdict is
then the truth of the rule read as conjunctions and disjunctions (`Holds`).  Else it is
the error that is met first (`FirstError`): of the left side before the right side, and
of both before the connective.

    evaluate limit t record = ok b     ↔  Faultless ∧ (b = true ↔ t.Holds record)
    evaluate limit t record = error e  ↔  FirstError limit record 1 t e

The specification counts levels from the root on, the evaluator counts those that are
left, and the two counts add up to one more than the limit.
-/

namespace RecordRules.Rule

/-! ## Specification -/

/-- Nothing fails in the rule, whose root lies at the level: no node lies below the limit,
every condition has an answer, and every connective exists. -/
structure Faultless (limit : Nat) (record : Record) (level : Nat) (t : Rule) : Prop where
  depth_le : t.depth + level ≤ limit + 1
  answers : ∀ c ∈ t.conditions, ∃ b, c.check record = .ok b
  connectives : ∀ op ∈ t.connectives, op = "AND" ∨ op = "OR"

/-- The rule as conjunctions and disjunctions of its conditions. -/
def Holds (record : Record) : Rule → Prop
  | condition c => c.check record = .ok true
  | combine op l r =>
    op = "AND" ∧ l.Holds record ∧ r.Holds record ∨ op = "OR" ∧ (l.Holds record ∨ r.Holds record)

/-- `FirstError limit record level t e`: the first error met in the rule, whose root lies
at the level, is `e`. -/
inductive FirstError (limit : Nat) (record : Record) : (level : Nat) → Rule → Error → Prop
  | depth {level t} : limit < level → FirstError limit record level t (.depthExceeded limit)
  | condition {level c e} : level ≤ limit → c.check record = .error e →
    FirstError limit record level (.condition c) e
  | left {level op l r e} : level ≤ limit → FirstError limit record (level + 1) l e →
    FirstError limit record level (.combine op l r) e
  | right {level op l r e} : level ≤ limit → Faultless limit record (level + 1) l →
    FirstError limit record (level + 1) r e → FirstError limit record level (.combine op l r) e
  | connective {level op l r} : level ≤ limit → Faultless limit record (level + 1) l →
    Faultless limit record (level + 1) r → ¬ (op = "AND" ∨ op = "OR") →
    FirstError limit record level (.combine op l r) (.unsupportedOperator op)

variable {limit level levels : Nat} {record record' : Record} {t : Rule}

theorem faultless_condition_iff {c : Condition} :
    Faultless limit record level (condition c) ↔
      level ≤ limit ∧ ∃ b, c.check record = .ok b := by
  constructor
  · rintro ⟨hdepth, hanswers, -⟩
    rw [depth] at hdepth
    exact ⟨by omega, hanswers c (by simp [conditions])⟩
  · rintro ⟨hlevel, hanswer⟩
    refine ⟨by rw [depth]; omega, ?_, by simp [connectives]⟩
    simpa [conditions] using hanswer

theorem faultless_combine_iff {op : String} {l r : Rule} :
    Faultless limit record level (combine op l r) ↔
      (op = "AND" ∨ op = "OR") ∧ Faultless limit record (level + 1) l ∧
        Faultless limit record (level + 1) r := by
  constructor
  · rintro ⟨hdepth, hanswers, hconnectives⟩
    rw [depth] at hdepth
    obtain ⟨hop, hl, hr⟩ := forall_connectives_combine.1 hconnectives
    obtain ⟨hl', hr'⟩ := forall_conditions_combine.1 hanswers
    exact ⟨hop, ⟨by omega, hl', hl⟩, by omega, hr', hr⟩
  · rintro ⟨hop, ⟨hdl, hl', hl⟩, hdr, hr', hr⟩
    exact ⟨by rw [depth]; omega, forall_conditions_combine.2 ⟨hl', hr'⟩,
      forall_connectives_combine.2 ⟨hop, hl, hr⟩⟩

theorem Faultless.level_le (h : Faultless limit record level t) : level ≤ limit := by
  have hdepth := h.depth_le
  have hpos := depth_pos t
  omega

/-! ## Verdicts -/

/-- A connective joins the truth of its sides. -/
theorem apply_eq_true_iff {c : Connective} {l r : Rule} {a b : Bool}
    (ha : a = true ↔ l.Holds record) (hb : b = true ↔ r.Holds record) :
    c.apply a b = true ↔ (combine c.keyword l r).Holds record := by
  cases c <;> simp [Connective.apply, Connective.keyword, Holds, ha, hb]

/-- Down to the limit there is a level left. -/
theorem exists_next (hlevel : level ≤ limit) (hlevels : level + levels = limit + 1) :
    ∃ n, levels = n + 1 ∧ level + 1 + n = limit + 1 :=
  ⟨levels - 1, by omega, by omega⟩

/-- A rule in which nothing fails has its truth for a verdict. -/
theorem verdict_of_faultless (h : Faultless limit record level t)
    (hlevels : level + levels = limit + 1) :
    ∃ b, verdict limit record t levels = .ok b ∧ (b = true ↔ t.Holds record) := by
  induction t generalizing level levels with
  | condition c =>
    obtain ⟨hlevel, b, hb⟩ := faultless_condition_iff.1 h
    obtain ⟨n, rfl, -⟩ := exists_next hlevel hlevels
    exact ⟨b, hb, by simp [Holds, hb]⟩
  | combine op l r ihl ihr =>
    obtain ⟨hop, hl, hr⟩ := faultless_combine_iff.1 h
    obtain ⟨c, rfl⟩ := Connective.exists_keyword_iff.2 hop
    obtain ⟨n, rfl, hnext⟩ := exists_next h.level_le hlevels
    obtain ⟨a, ha, hal⟩ := ihl hl hnext
    obtain ⟨b, hb, hbr⟩ := ihr hr hnext
    refine ⟨c.apply a b, ?_, apply_eq_true_iff hal hbr⟩
    rw [verdict, ha, ok_bind, hb, ok_bind, Connective.ofKeyword?_keyword]
    rfl

/-- Nothing fails in a rule that has a verdict. -/
theorem faultless_of_verdict {b : Bool} (h : verdict limit record t levels = .ok b)
    (hlevels : level + levels = limit + 1) : Faultless limit record level t := by
  induction t generalizing level levels b with
  | condition c =>
    cases levels with
    | zero => cases h
    | succ levels => exact faultless_condition_iff.2 ⟨by omega, b, h⟩
  | combine op l r ihl ihr =>
    cases levels with
    | zero => cases h
    | succ levels =>
      have hnext : level + 1 + levels = limit + 1 := by omega
      rw [verdict] at h
      obtain ⟨x, hx, h⟩ := bind_eq_ok_iff.1 h
      obtain ⟨y, hy, h⟩ := bind_eq_ok_iff.1 h
      refine faultless_combine_iff.2 ⟨?_, ihl hx hnext, ihr hy hnext⟩
      split at h
      · next c hc =>
        exact Connective.exists_keyword_iff.1 ⟨c, Connective.ofKeyword?_eq_some_iff.1 hc⟩
      · cases h

theorem verdict_eq_ok_iff {b : Bool} (hlevels : level + levels = limit + 1) :
    verdict limit record t levels = .ok b ↔
      Faultless limit record level t ∧ (b = true ↔ t.Holds record) := by
  constructor
  · intro h
    have hfaultless := faultless_of_verdict h hlevels
    obtain ⟨a, ha, hholds⟩ := verdict_of_faultless hfaultless hlevels
    obtain rfl : a = b := Except.ok.inj (ha.symm.trans h)
    exact ⟨hfaultless, hholds⟩
  · rintro ⟨hfaultless, hb⟩
    obtain ⟨a, ha, hholds⟩ := verdict_of_faultless hfaultless hlevels
    rw [ha, Bool.eq_iff_iff.2 (hholds.trans hb.symm)]

/-! ## Errors -/

/-- The first error is the answer. -/
theorem verdict_of_firstError {e : Error} (h : FirstError limit record level t e)
    (hlevels : level + levels = limit + 1) : verdict limit record t levels = .error e := by
  induction h generalizing levels with
  | depth hlevel =>
    obtain rfl : levels = 0 := by omega
    rw [verdict]
  | condition hlevel he =>
    obtain ⟨n, rfl, -⟩ := exists_next hlevel hlevels
    exact he
  | left hlevel _ ih =>
    obtain ⟨n, rfl, hnext⟩ := exists_next hlevel hlevels
    rw [verdict, ih hnext, error_bind]
  | right hlevel hl _ ih =>
    obtain ⟨n, rfl, hnext⟩ := exists_next hlevel hlevels
    obtain ⟨a, ha, -⟩ := verdict_of_faultless hl hnext
    rw [verdict, ha, ok_bind, ih hnext, error_bind]
  | connective hlevel hl hr hop =>
    obtain ⟨n, rfl, hnext⟩ := exists_next hlevel hlevels
    obtain ⟨a, ha, -⟩ := verdict_of_faultless hl hnext
    obtain ⟨b, hb, -⟩ := verdict_of_faultless hr hnext
    rw [verdict, ha, ok_bind, hb, ok_bind, Connective.ofKeyword?_eq_none_iff.2 hop]

/-- An error that is answered was met first. -/
theorem firstError_of_verdict {e : Error} (h : verdict limit record t levels = .error e)
    (hlevels : level + levels = limit + 1) : FirstError limit record level t e := by
  induction t generalizing level levels with
  | condition c =>
    cases levels with
    | zero =>
      obtain rfl : Error.depthExceeded limit = e := Except.error.inj h
      exact .depth (by omega)
    | succ levels => exact .condition (by omega) h
  | combine op l r ihl ihr =>
    cases levels with
    | zero =>
      obtain rfl : Error.depthExceeded limit = e := Except.error.inj h
      exact .depth (by omega)
    | succ levels =>
      have hlevel : level ≤ limit := by omega
      have hnext : level + 1 + levels = limit + 1 := by omega
      rw [verdict] at h
      rcases bind_eq_error_iff.1 h with h | ⟨a, ha, h⟩
      · exact .left hlevel (ihl h hnext)
      · have hl := faultless_of_verdict ha hnext
        rcases bind_eq_error_iff.1 h with h | ⟨b, hb, h⟩
        · exact .right hlevel hl (ihr h hnext)
        · split at h
          · cases h
          · next hop =>
            obtain rfl : Error.unsupportedOperator op = e := Except.error.inj h
            exact .connective hlevel hl (faultless_of_verdict hb hnext)
              (Connective.ofKeyword?_eq_none_iff.1 hop)

theorem verdict_eq_error_iff {e : Error} (hlevels : level + levels = limit + 1) :
    verdict limit record t levels = .error e ↔ FirstError limit record level t e :=
  ⟨fun h => firstError_of_verdict h hlevels, fun h => verdict_of_firstError h hlevels⟩

-- The left side decides the disjunction, but not whether it has an answer.
example : (combine "OR" (condition ⟨"a", "=", "1"⟩) (condition ⟨"b", "=", "1"⟩)).evaluate 2
    (Record.ofList [("a", .text "1")]) = .error (.fieldNotFound "b") := rfl

/-! ## Values hide no errors -/

/-- The same conditions fail on both records, each with the same error; those that do not
fail may hold of one record and not of the other. -/
def SameErrors (record record' : Record) (t : Rule) : Prop :=
  ∀ c ∈ t.conditions, ∀ e, c.check record = .error e ↔ c.check record' = .error e

theorem SameErrors.left {op : String} {l r : Rule}
    (h : SameErrors record record' (combine op l r)) : SameErrors record record' l :=
  (forall_conditions_combine.1 h).1

theorem SameErrors.right {op : String} {l r : Rule}
    (h : SameErrors record record' (combine op l r)) : SameErrors record record' r :=
  (forall_conditions_combine.1 h).2

theorem SameErrors.symm (h : SameErrors record record' t) : SameErrors record' record t :=
  fun c hc e => (h c hc e).symm

theorem Faultless.congr (h : Faultless limit record level t)
    (hsame : SameErrors record record' t) : Faultless limit record' level t := by
  refine ⟨h.depth_le, fun c hc => ?_, h.connectives⟩
  have hanswer := h.answers c hc
  rw [exists_eq_ok_iff] at hanswer ⊢
  exact fun e he => hanswer e ((hsame c hc e).2 he)

theorem FirstError.congr {e : Error} (h : FirstError limit record level t e)
    (hsame : SameErrors record record' t) : FirstError limit record' level t e := by
  induction h with
  | depth hlevel => exact .depth hlevel
  | @condition _ c e hlevel he =>
    exact .condition hlevel ((hsame c (by simp [conditions]) e).1 he)
  | left hlevel _ ih => exact .left hlevel (ih hsame.left)
  | right hlevel hl _ ih => exact .right hlevel (hl.congr hsame.left) (ih hsame.right)
  | connective hlevel hl hr hop =>
    exact .connective hlevel (hl.congr hsame.left) (hr.congr hsame.right) hop

/-- **Evaluation.**  A rule is answered exactly when it lies within the limit, all its
conditions are answered and all its connectives exist, and then by its truth.  Else the
answer is the first error of the rule.  Whether there is one, and which, does not depend
on which of the conditions without an error hold. -/
theorem evaluate_iff_faultless (limit : Nat) (t : Rule) (record : Record) :
    (∀ b, t.evaluate limit record = .ok b ↔
      t.depth ≤ limit ∧ (∀ c ∈ t.conditions, ∃ a, c.check record = .ok a) ∧
        (∀ op ∈ t.connectives, op = "AND" ∨ op = "OR") ∧ (b = true ↔ t.Holds record)) ∧
    (∀ e, t.evaluate limit record = .error e ↔ FirstError limit record 1 t e) ∧
    ∀ record', SameErrors record record' t →
      ∀ e, t.evaluate limit record = .error e ↔ t.evaluate limit record' = .error e := by
  have hlevels : 1 + limit = limit + 1 := Nat.add_comm 1 limit
  refine ⟨fun b => ?_, fun e => verdict_eq_error_iff hlevels, fun record' hsame e => ?_⟩
  · rw [evaluate, verdict_eq_ok_iff hlevels]
    constructor
    · rintro ⟨⟨hdepth, hanswers, hconnectives⟩, hb⟩
      exact ⟨by omega, hanswers, hconnectives, hb⟩
    · rintro ⟨hdepth, hanswers, hconnectives, hb⟩
      exact ⟨⟨by omega, hanswers, hconnectives⟩, hb⟩
  · rw [evaluate, evaluate, verdict_eq_error_iff hlevels, verdict_eq_error_iff hlevels]
    exact ⟨fun h => h.congr hsame, fun h => h.congr hsame.symm⟩

end RecordRules.Rule
