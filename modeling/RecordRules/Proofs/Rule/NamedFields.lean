import RecordRules.Proofs.Answer
import RecordRules.Rule.Evaluation

/-!
# Only the named fields count, and their last values

A rule has the same answer, be it a verdict or an error, on two records that agree on the
fields named in its conditions.  What a record holds under a name is what was inserted last
under it.  So two histories of insertions are the same to a rule when the last insertion of
each field that it names is the same, whatever else was inserted, before, after or between.

    AgreeOn record record' t → t.evaluate limit record = t.evaluate limit record'   (evaluate_congr)
    (r.insertAll insertions).get? name = (lastValue? name insertions).or (r.get? name)
                                                                     (Record.get?_insertAll)
-/

namespace RecordRules

/-! ## Histories of insertions -/

namespace Record

/-- The value of the last insertion under the name, if there is one. -/
def lastValue? (name : String) (insertions : List (String × FieldValue)) : Option FieldValue :=
  (insertions.filter fun p => p.1 = name).getLast?.map Prod.snd

theorem lastValue?_cons (name : String) (p : String × FieldValue)
    (insertions : List (String × FieldValue)) :
    lastValue? name (p :: insertions) =
      (lastValue? name insertions).or (if p.1 = name then some p.2 else none) := by
  unfold lastValue?
  by_cases hname : p.1 = name
  · rw [List.filter_cons_of_pos (by simpa using hname), List.getLast?_cons, if_pos hname]
    cases (insertions.filter fun p => p.1 = name).getLast? <;> rfl
  · rw [List.filter_cons_of_neg (by simpa using hname), if_neg hname, Option.or_none]

/-- Insertions one after the other: the first of them, and the others into what it made. -/
theorem insertAll_cons (r : Record) (p : String × FieldValue)
    (insertions : List (String × FieldValue)) :
    r.insertAll (p :: insertions) = (r.insert p.1 p.2).insertAll insertions := rfl

/-- The last value inserted under a name is found; without one, the value that was there. -/
theorem get?_insertAll (r : Record) (insertions : List (String × FieldValue)) (name : String) :
    (r.insertAll insertions).get? name = (lastValue? name insertions).or (r.get? name) := by
  induction insertions generalizing r with
  | nil => rfl
  | cons p insertions ih =>
    rw [insertAll_cons, ih, get?_insert, lastValue?_cons, Option.or_assoc]
    -- an insertion hides what was there under its name, and nothing else
    by_cases hname : p.1 = name
    · rw [if_pos hname, if_pos hname, Option.some_or]
    · rw [if_neg hname, if_neg hname, Option.none_or]

end Record

/-! ## Records that agree -/

theorem Condition.check_congr {c : Condition} {record record' : Record}
    (h : record.get? c.field = record'.get? c.field) : c.check record = c.check record' := by
  rw [check, check, h]

namespace Rule

variable {record record' : Record} {t : Rule}

/-- The records hold the same under each name that a condition of the rule gives: the same
value, or none. -/
def AgreeOn (record record' : Record) (t : Rule) : Prop :=
  ∀ c ∈ t.conditions, record.get? c.field = record'.get? c.field

theorem agreeOn_combine_iff {op : String} {l r : Rule} :
    AgreeOn record record' (combine op l r) ↔ AgreeOn record record' l ∧ AgreeOn record record' r :=
  forall_conditions_combine

theorem verdict_congr (h : AgreeOn record record' t) (limit levels : Nat) :
    verdict limit record t levels = verdict limit record' t levels := by
  induction t generalizing levels with
  | condition c =>
    cases levels with
    | zero => rfl
    | succ levels => exact Condition.check_congr (h c (by simp [conditions]))
  | combine op l r ihl ihr =>
    obtain ⟨hl, hr⟩ := agreeOn_combine_iff.1 h
    cases levels with
    | zero => rfl
    | succ levels => rw [verdict, verdict, ihl hl, ihr hr]

theorem evaluate_congr (h : AgreeOn record record' t) (limit : Nat) :
    t.evaluate limit record = t.evaluate limit record' := verdict_congr h limit limit

/-- **Named fields.**  Two histories of insertions into one record, in which the last insertion
of each field that the rule names is the same or missing from both, leave records on which the
rule has the same answer. -/
theorem evaluate_insertAll_congr {insertions insertions' : List (String × FieldValue)}
    (h : ∀ c ∈ t.conditions,
      Record.lastValue? c.field insertions = Record.lastValue? c.field insertions')
    (limit : Nat) (record : Record) :
    t.evaluate limit (record.insertAll insertions) =
      t.evaluate limit (record.insertAll insertions') := by
  refine evaluate_congr (fun c hc => ?_) limit
  rw [Record.get?_insertAll, Record.get?_insertAll, h c hc]

/-- One history writes the age twice and keeps the note, the other writes the name twice and has
no note; neither writes a bonus.  A rule on age and name holds of both records, and a rule on the
bonus has the same error on both. -/
theorem evaluate_insertAll_congr_repeated :
    let insertions := [("age", .integer 20), ("name", .text "Ann"), ("note", .text "new"),
      ("age", .integer 35)]
    let insertions' := [("name", .integer 0), ("age", .integer 35), ("name", .text "Ann")]
    let onNamed := combine "AND" (condition ⟨"age", ">", "30"⟩) (condition ⟨"name", "=", "Ann"⟩)
    let onAbsent := combine "OR" (condition ⟨"age", ">", "30"⟩) (condition ⟨"bonus", "=", "1"⟩)
    (∀ c ∈ onNamed.conditions,
      Record.lastValue? c.field insertions = Record.lastValue? c.field insertions') ∧
    (∀ c ∈ onAbsent.conditions,
      Record.lastValue? c.field insertions = Record.lastValue? c.field insertions') ∧
    Record.ofList insertions ≠ Record.ofList insertions' ∧
    onNamed.evaluate 2 (Record.ofList insertions) =
      onNamed.evaluate 2 (Record.ofList insertions') ∧
    onNamed.evaluate 2 (Record.ofList insertions) = .ok true ∧
    onAbsent.evaluate 2 (Record.ofList insertions) =
      onAbsent.evaluate 2 (Record.ofList insertions') ∧
    onAbsent.evaluate 2 (Record.ofList insertions) = .error (.fieldNotFound "bonus") := by
  intro insertions insertions' onNamed onAbsent
  have hage : Record.lastValue? "age" insertions = Record.lastValue? "age" insertions' := rfl
  have hname : Record.lastValue? "name" insertions = Record.lastValue? "name" insertions' := rfl
  have hbonus : Record.lastValue? "bonus" insertions = Record.lastValue? "bonus" insertions' := rfl
  have hnamed : ∀ c ∈ onNamed.conditions,
      Record.lastValue? c.field insertions = Record.lastValue? c.field insertions' :=
    List.forall_mem_cons.2 ⟨hage, List.forall_mem_singleton.2 hname⟩
  have habsent : ∀ c ∈ onAbsent.conditions,
      Record.lastValue? c.field insertions = Record.lastValue? c.field insertions' :=
    List.forall_mem_cons.2 ⟨hage, List.forall_mem_singleton.2 hbonus⟩
  have hverdict : onNamed.evaluate 2 (Record.ofList insertions) = .ok true :=
    toOption_eq_some_iff.1 (by decide +kernel)
  have herror : onAbsent.evaluate 2 (Record.ofList insertions) = .error (.fieldNotFound "bonus") :=
    rfl
  exact ⟨hnamed, habsent, by decide +kernel, evaluate_insertAll_congr hnamed 2 Record.empty,
    hverdict, evaluate_insertAll_congr habsent 2 Record.empty, herror⟩

end Rule

end RecordRules
