import RecordRules.Proofs.Rule.FirstError
import RecordRules.Proofs.Rule.Rendering
import RecordRules.Proofs.Rule.Verdict

/-!
# Verdicts of rules that were read

A rule that was read from a text under a limit lies within the limit, however its text is
put together, and joins its conditions by `AND` and `OR` alone.  So nothing is left that
could fail but its conditions, and the leftmost of those that fail decides the error:

    parse limit text = ok t →
      ((∃ b, evaluate limit t record = ok b) ↔ all conditions are answered) ∧
      (evaluate limit t record = error e ↔
        ∃ c, t.firstFailing? record = some c ∧ c.check record = error e)
-/

namespace RecordRules.Rule

variable {limit level : Nat} {record : Record} {t : Rule}

/-! ## The leftmost condition that fails -/

/-- The leftmost condition of the rule that has no answer. -/
def firstFailing? (record : Record) (t : Rule) : Option Condition :=
  t.conditions.find? fun c => !(c.check record).isOk

theorem firstFailing?_combine (op : String) (l r : Rule) :
    (combine op l r).firstFailing? record =
      (l.firstFailing? record).or (r.firstFailing? record) := List.find?_append

theorem firstFailing?_eq_none_iff :
    t.firstFailing? record = none ↔ ∀ c ∈ t.conditions, ∃ b, c.check record = .ok b := by
  rw [firstFailing?, List.find?_eq_none]
  simp only [Bool.not_eq_true', Bool.not_eq_false, isOk_iff]

/-- Everything on the left of the leftmost condition that fails is answered. -/
theorem firstFailing?_eq_some_iff {c : Condition} :
    t.firstFailing? record = some c ↔
      (¬ ∃ b, c.check record = .ok b) ∧ ∃ before after, t.conditions = before ++ c :: after ∧
        ∀ d ∈ before, ∃ b, d.check record = .ok b := by
  rw [firstFailing?, List.find?_eq_some_iff_append]
  simp only [Bool.not_eq_true', Bool.eq_false_iff, Bool.not_not, ne_eq, isOk_iff]

theorem firstFailing?_condition {c : Condition} {e : Error} (h : c.check record = .error e) :
    (condition c).firstFailing? record = some c := by
  refine firstFailing?_eq_some_iff.2 ⟨?_, [], [], rfl, List.forall_mem_nil _⟩
  rw [h]
  rintro ⟨b, ⟨⟩⟩

/-- Where neither depth nor a connective can be at fault, the first error is that of the
leftmost condition that fails.  By induction on where the first error lies. -/
theorem exists_firstFailing?_of_firstError {e : Error} (h : FirstError limit record level t e)
    (hdepth : t.depth + level ≤ limit + 1)
    (hconnectives : ∀ op ∈ t.connectives, op = "AND" ∨ op = "OR") :
    ∃ c, t.firstFailing? record = some c ∧ c.check record = .error e := by
  induction h with
  | @depth level t hlevel =>
    have hpos := depth_pos t
    omega
  | condition _ he => exact ⟨_, firstFailing?_condition he, he⟩
  | left _ _ ih =>
    rw [depth] at hdepth
    obtain ⟨-, hl, -⟩ := forall_connectives_combine.1 hconnectives
    obtain ⟨c, hc, he⟩ := ih (by omega) hl
    refine ⟨c, ?_, he⟩
    rw [firstFailing?_combine, hc, Option.some_or]
  | right _ hfaultless _ ih =>
    -- the left side is faultless, so the search passes over all its conditions
    rw [depth] at hdepth
    obtain ⟨-, -, hr⟩ := forall_connectives_combine.1 hconnectives
    obtain ⟨c, hc, he⟩ := ih (by omega) hr
    refine ⟨c, ?_, he⟩
    rw [firstFailing?_combine, firstFailing?_eq_none_iff.2 hfaultless.answers, Option.none_or, hc]
  | connective _ _ _ hop =>
    exact absurd (forall_connectives_combine.1 hconnectives).1 hop

/-! ## Rules that were read -/

section

variable (hdepth : t.depth ≤ limit) (hconnectives : ∀ op ∈ t.connectives, op = "AND" ∨ op = "OR")

include hdepth hconnectives

theorem exists_verdict_iff :
    (∃ b, t.evaluate limit record = .ok b) ↔ ∀ c ∈ t.conditions, ∃ b, c.check record = .ok b := by
  have hlevels : 1 + limit = limit + 1 := Nat.add_comm 1 limit
  constructor
  · rintro ⟨b, hb⟩
    exact (faultless_of_verdict hb hlevels).answers
  · intro hanswers
    have hfaultless : Faultless limit record 1 t := ⟨by omega, hanswers, hconnectives⟩
    obtain ⟨b, hb, -⟩ := verdict_of_faultless hfaultless hlevels
    exact ⟨b, hb⟩

theorem evaluate_eq_error_iff {e : Error} :
    t.evaluate limit record = .error e ↔
      ∃ c, t.firstFailing? record = some c ∧ c.check record = .error e := by
  have hlevels : 1 + limit = limit + 1 := Nat.add_comm 1 limit
  have hfails : ∀ e, t.evaluate limit record = .error e →
      ∃ c, t.firstFailing? record = some c ∧ c.check record = .error e := by
    intro e he
    exact exists_firstFailing?_of_firstError (firstError_of_verdict he hlevels) (by omega)
      hconnectives
  refine ⟨hfails e, ?_⟩
  rintro ⟨c, hc, he⟩
  cases hverdict : t.evaluate limit record with
  | ok b =>
    have hanswers := (exists_verdict_iff hdepth hconnectives).1 ⟨b, hverdict⟩
    rw [firstFailing?_eq_none_iff.2 hanswers] at hc
    cases hc
  | error e' =>
    obtain ⟨c', hc', he'⟩ := hfails e' hverdict
    obtain rfl : c = c' := Option.some.inj (hc.symm.trans hc')
    rw [← he, he']

end

/-- **Rules that were read.**  A rule that was read under a limit lies within it, and its
connectives are `AND` and `OR`.  On every record it has a verdict exactly when each of its
conditions has an answer, and else the error of the leftmost condition without one.  That is
never an error of depth, and where it is about an operator, it is the one of that condition. -/
theorem evaluate_of_parse {limit : Nat} {text : String} {t : Rule}
    (h : parse limit text = .ok t) (record : Record) :
    (∀ op ∈ t.connectives, op = "AND" ∨ op = "OR") ∧ t.depth ≤ limit ∧
    ((∃ b, t.evaluate limit record = .ok b) ↔
      ∀ c ∈ t.conditions, ∃ b, c.check record = .ok b) ∧
    (∀ e, t.evaluate limit record = .error e ↔
      ∃ before c after, t.conditions = before ++ c :: after ∧
        (∀ d ∈ before, ∃ b, d.check record = .ok b) ∧ c.check record = .error e) ∧
    (∀ n, t.evaluate limit record ≠ .error (.depthExceeded n)) ∧
    ∀ op, t.evaluate limit record = .error (.unsupportedOperator op) →
      ∃ c ∈ t.conditions, c.check record = .error (.unsupportedOperator op) ∧ c.operator = op ∧
        Operator.ofSymbol? op = none := by
  have hdepth : t.depth ≤ limit := depth_le_of_parse h
  have hconnectives := (expressible_of_parse h).connectives
  refine ⟨hconnectives, hdepth, exists_verdict_iff hdepth hconnectives, ?_, ?_, ?_⟩
  · intro e
    rw [evaluate_eq_error_iff hdepth hconnectives]
    constructor
    · rintro ⟨c, hc, he⟩
      obtain ⟨-, before, after, hsplit, hbefore⟩ := firstFailing?_eq_some_iff.1 hc
      exact ⟨before, c, after, hsplit, hbefore, he⟩
    · rintro ⟨before, c, after, hsplit, hbefore, he⟩
      refine ⟨c, firstFailing?_eq_some_iff.2 ⟨?_, before, after, hsplit, hbefore⟩, he⟩
      rintro ⟨b, hb⟩
      cases he.symm.trans hb
  · intro n he
    exact ofRecord_of_evaluate hdepth he
  · intro op he
    obtain ⟨c, hc, hcheck⟩ := (evaluate_eq_error_iff hdepth hconnectives).1 he
    exact ⟨c, List.mem_of_find?_eq_some hc, hcheck, Condition.operator_of_check hcheck⟩

/-- A quoted keyword in the place of an operator: the complaint is about the condition on the
right of `OR`, neither about the connectives nor about the field that is missing after it. -/
theorem evaluate_of_parse_quotedKeyword :
    let t := combine "AND"
      (combine "OR" (condition ⟨"a", "=", "1"⟩) (condition ⟨"b", "AND", "c"⟩))
      (condition ⟨"d", "=", "2"⟩)
    let record := Record.ofList [("a", .integer 1), ("b", .text "x")]
    parse 3 "(a = 1 OR b 'AND' c) AND d = 2" = .ok t ∧
      t.evaluate 3 record = .error (.unsupportedOperator "AND") := by
  intro t record
  have hparse : parse 3 "(a = 1 OR b 'AND' c) AND d = 2" = .ok t :=
    toOption_eq_some_iff.1 (by decide +kernel)
  have hfirst : Condition.check ⟨"a", "=", "1"⟩ record = .ok true :=
    toOption_eq_some_iff.1 (by decide +kernel)
  obtain ⟨-, -, -, herror, -⟩ := evaluate_of_parse hparse record
  refine ⟨hparse, (herror _).2 ⟨[⟨"a", "=", "1"⟩], ⟨"b", "AND", "c"⟩, [⟨"d", "=", "2"⟩], rfl, ?_, rfl⟩⟩
  intro d hd
  rw [List.mem_singleton.1 hd]
  exact ⟨true, hfirst⟩

end RecordRules.Rule
