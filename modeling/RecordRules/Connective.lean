/-!
# Connectives

The two keywords that join sub-rules, and the truth functions they stand for.
Keywords are case sensitive.

* `ofKeyword?_eq_some_iff`: a text names a connective exactly when it is its keyword.
* `exists_keyword_iff`: the keywords are `AND` and `OR`.
-/

namespace RecordRules

/-- A connective of two sub-rules. -/
inductive Connective
  | and
  | or
  deriving DecidableEq

namespace Connective

/-- How the connective is written in a rule. -/
def keyword : Connective → String
  | .and => "AND"
  | .or => "OR"

/-- The connective that a text writes. -/
def ofKeyword? : String → Option Connective
  | "AND" => some .and
  | "OR" => some .or
  | _ => none

/-- The truth function of the connective. -/
def apply : Connective → Bool → Bool → Bool
  | .and, a, b => a && b
  | .or, a, b => a || b

@[simp] theorem ofKeyword?_keyword (c : Connective) : ofKeyword? c.keyword = some c := by
  cases c <;> rfl

theorem ofKeyword?_eq_some_iff {s : String} {c : Connective} :
    ofKeyword? s = some c ↔ s = c.keyword := by
  constructor
  · intro h
    unfold ofKeyword? at h
    split at h <;> simp_all [keyword] <;> subst h <;> rfl
  · rintro rfl
    exact ofKeyword?_keyword c

theorem exists_keyword_iff {s : String} :
    (∃ c : Connective, s = c.keyword) ↔ s = "AND" ∨ s = "OR" := by
  constructor
  · rintro ⟨_ | _, rfl⟩
    · exact .inl rfl
    · exact .inr rfl
  · rintro (rfl | rfl)
    · exact ⟨and, rfl⟩
    · exact ⟨or, rfl⟩

theorem ofKeyword?_eq_none_iff {s : String} :
    ofKeyword? s = none ↔ ¬ (s = "AND" ∨ s = "OR") := by
  rw [← exists_keyword_iff, Option.eq_none_iff_forall_ne_some, not_exists]
  simp only [ne_eq, ofKeyword?_eq_some_iff]

end Connective

end RecordRules
