import RecordRules.Proofs.Answer
import RecordRules.Rule.Evaluation
import RecordRules.Rule.Mapping
import RecordRules.Rule.Parser

/-!
# A higher limit changes no answer

The three recursions that run under a limit (reading tokens, reading a mapping form,
evaluating) may give up because the rule lies too deep.  Any other answer they give, a rule,
a verdict or an error, they give under every higher limit as well (`decided_of_limit_le`):

    limit ≤ limit' → answer limit = error tooDeep ∨ answer limit = answer limit'

The limit is counted down, so the two runs are compared with `levels` and `levels'` left,
`levels ≤ levels'`.  They take the same steps until the first run has no level left; what the
second run then meets, be it another fault, plays no part.
-/

namespace RecordRules.Rule

variable {limit limit' levels levels' : Nat}

/-! ## Reading tokens -/

theorem readTerm_agree {e : Error} {inner inner' : List Token → Reading}
    (hinner : ∀ tokens, AgreeUnless e (inner tokens) (inner' tokens)) (tokens : List Token) :
    AgreeUnless e (readTerm inner tokens) (readTerm inner' tokens) := by
  cases tokens with
  | nil => exact agreeUnless_refl e _
  | cons token rest =>
    cases token with
    | openParen =>
      rw [readTerm, readTerm]
      exact (hinner rest).bind fun _ => agreeUnless_refl e _
    | _ => exact agreeUnless_refl e _

theorem readExpression_agree (h : levels ≤ levels') (tokens : List Token) :
    AgreeUnless (.nestedTooDeep limit) (readExpression limit levels tokens)
      (readExpression limit' levels' tokens) := by
  induction levels generalizing levels' tokens with
  | zero => exact agreeUnless_error _ _
  | succ levels ih =>
    obtain ⟨more, rfl⟩ := Nat.exists_eq_add_of_lt h
    have hnext : ∀ tokens, AgreeUnless (.nestedTooDeep limit) (readExpression limit levels tokens)
        (readExpression limit' (levels + more) tokens) := ih (Nat.le_add_right levels more)
    rw [readExpression, readExpression]
    refine (readTerm_agree hnext tokens).bind fun p => ?_
    dsimp only
    split
    · exact agreeUnless_refl _ _
    · exact (hnext _).bind fun _ => agreeUnless_refl _ _
    · exact agreeUnless_refl _ _

theorem ofTokens_agree (h : limit ≤ limit') (tokens : List Token) :
    AgreeUnless (.nestedTooDeep limit) (ofTokens limit tokens) (ofTokens limit' tokens) := by
  unfold ofTokens
  split
  · exact agreeUnless_refl _ _
  · exact (readExpression_agree h tokens).bind fun _ => agreeUnless_refl _ _

/-! ## Reading the mapping form -/

theorem ofChild_agree {e : Error} {read read' : Json → Except Error Rule}
    (hread : ∀ j, AgreeUnless e (read j) (read' j)) (side : Side)
    (members : List (String × Json)) :
    AgreeUnless e (ofChild read side members) (ofChild read' side members) := by
  unfold ofChild
  split
  · exact agreeUnless_refl e _
  · exact agreeUnless_refl e _
  · exact hread _

theorem ofNode_agree (h : levels ≤ levels') (j : Json) :
    AgreeUnless (.nestedTooDeep limit) (ofNode limit levels j) (ofNode limit' levels' j) := by
  induction levels generalizing levels' j with
  | zero => exact agreeUnless_error _ _
  | succ levels ih =>
    obtain ⟨more, rfl⟩ := Nat.exists_eq_add_of_lt h
    have hnext : ∀ j, AgreeUnless (.nestedTooDeep limit) (ofNode limit levels j)
        (ofNode limit' (levels + more) j) := ih (Nat.le_add_right levels more)
    cases j with
    | object members =>
      rw [ofNode, ofNode]
      -- only a combination with a connective looks below its own level
      split
      · exact agreeUnless_refl _ _
      · split
        · refine (ofChild_agree hnext .left members).bind fun l => ?_
          exact (ofChild_agree hnext .right members).bind fun r => agreeUnless_refl _ _
        · exact agreeUnless_refl _ _
      · exact agreeUnless_refl _ _
      · exact agreeUnless_refl _ _
      · exact agreeUnless_refl _ _
    | _ => exact agreeUnless_refl _ _

theorem ofMapping_agree (h : limit ≤ limit') (j : Json) :
    AgreeUnless (.nestedTooDeep limit) (ofMapping limit j) (ofMapping limit' j) := by
  unfold ofMapping
  split
  · exact agreeUnless_refl _ _
  · exact agreeUnless_refl _ _
  · exact (ofNode_agree h _).map some

/-! ## Evaluating -/

theorem verdict_agree (h : levels ≤ levels') (record : Record) (t : Rule) :
    AgreeUnless (.depthExceeded limit) (verdict limit record t levels)
      (verdict limit' record t levels') := by
  induction t generalizing levels levels' with
  | condition c =>
    cases levels with
    | zero => exact agreeUnless_error _ _
    | succ levels =>
      obtain ⟨more, rfl⟩ := Nat.exists_eq_add_of_lt h
      exact agreeUnless_refl _ _
  | combine op l r ihl ihr =>
    cases levels with
    | zero => exact agreeUnless_error _ _
    | succ levels =>
      obtain ⟨more, rfl⟩ := Nat.exists_eq_add_of_lt h
      rw [verdict, verdict]
      refine (ihl (Nat.le_add_right levels more)).bind fun a => ?_
      exact (ihr (Nat.le_add_right levels more)).bind fun b => agreeUnless_refl _ _

/-! ## Two limits -/

/-- **Higher limits.**  What is read or evaluated under a limit is either refused for its depth
or answered as under every higher limit: with the same rule, the same verdict or the same
error. -/
theorem decided_of_limit_le (h : limit ≤ limit') :
    (∀ tokens, ofTokens limit tokens = .error (.badSyntax (.tooDeep limit)) ∨
      ofTokens limit tokens = ofTokens limit' tokens) ∧
    (∀ j, ofMapping limit j = .error (.badSyntax (.tooDeep limit)) ∨
      ofMapping limit j = ofMapping limit' j) ∧
    (∀ t record, evaluate limit t record = .error (.depthExceeded limit) ∨
      evaluate limit t record = evaluate limit' t record) ∧
    (SyntaxFault.tooDeep limit).message =
      "Rule nesting exceeds maximum depth of " ++ toString limit :=
  ⟨ofTokens_agree h, ofMapping_agree h, fun t record => verdict_agree h record t, rfl⟩

/-- Where a fault competes with the limit.  The tokens hide theirs below the first level, so the
limit of two levels is the first to find it; the mapping form shows its own at the top. -/
theorem decided_of_limit_le_hiddenFault :
    let tokens := [.literal "a", .comparison .equal, .literal "1", .connective .and, .literal "b"]
    let node : Json := .object [("type", .string "operator"), ("value", .string "AND")]
    let rule := combine "XOR" (condition ⟨"a", "=", "1"⟩) (condition ⟨"b", "=", "1"⟩)
    1 ≤ 2 ∧
    (ofTokens 1 tokens = .error (.badSyntax (.tooDeep 1)) ∨
      ofTokens 1 tokens = ofTokens 2 tokens) ∧
    (ofMapping 1 node = .error (.badSyntax (.tooDeep 1)) ∨ ofMapping 1 node = ofMapping 2 node) ∧
    (evaluate 1 rule Record.empty = .error (.depthExceeded 1) ∨
      evaluate 1 rule Record.empty = evaluate 2 rule Record.empty) ∧
    ofTokens 2 tokens = .error (.badSyntax (.shortCondition ["b"])) ∧
    ofMapping 1 node = .error (.badSyntax (.node (.childMissing .left))) := by
  intro tokens node rule
  have hle : 1 ≤ 2 := by decide
  obtain ⟨htokens, hnode, hrule, -⟩ := decided_of_limit_le hle
  exact ⟨hle, htokens tokens, hnode node, hrule rule Record.empty, rfl, rfl⟩

end RecordRules.Rule
