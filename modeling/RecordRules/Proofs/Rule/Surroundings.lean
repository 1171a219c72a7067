import RecordRules.Proofs.Rule.Reading

/-!
# Rules inside longer inputs

What is read as a rule on its own is read as the same rule inside a longer input.

Other tokens may follow it: the rule ends where they begin, unless they start with a connective
and carry it on.  So what does not belong to the rule is reported where it begins, be it a
parenthesis that closes nothing, a token that is left over, or, inside a group, whatever stands
in the place of the closing parenthesis (`ofTokens_leftover`).

    ofTokens limit ts = ok t → limit ≤ levels → Ends rest →
      readExpression limit' levels (ts ++ rest) = ok (t, rest)          (readExpression_of_ofTokens)

Texts may be put together without looking into them.  A text in parentheses is read as the same
rule, and a connective after the parentheses joins this rule with that of the next text.
Parentheses take one level more than the text in them, a connective one level more than the
deeper of its two sides.

    parse limit a = ok t → parse (limit + 1) ("(" ++ a ++ ")") = ok t                  (parse_group)
    parse limit a = ok t → parse limit' b = ok u →
      parse (max limit limit' + 1) ("(" ++ a ++ ") AND " ++ b) = ok (combine "AND" t u)
                                                                                      (parse_joined)
-/

namespace RecordRules.Rule

open Token

variable {limit limit' levels : Nat} {tokens rest : List Token} {t : Rule}

/-! ## Tokens after a rule -/

/-- The reader takes the tokens of the rule and leaves those that follow it. -/
theorem readExpression_of_ofTokens (h : ofTokens limit tokens = .ok t) (hlevels : limit ≤ levels)
    (hrest : Ends rest) : readExpression limit' levels (tokens ++ rest) = .ok (t, rest) := by
  obtain ⟨n, hn, hexpr⟩ := expression_of_ofTokens h
  rw [readExpression_append limit' hexpr levels rest hrest, if_pos (by omega)]

/-- A reader that leaves tokens over has read some. -/
theorem ne_nil_of_readExpression
    (h : readExpression limit levels tokens = .ok (t, rest)) : tokens ≠ [] := by
  rintro rfl
  cases levels <;> cases h

/-- The first token that is left over decides the fault. -/
theorem ofTokens_of_readExpression {token : Token} {tail : List Token}
    (h : readExpression limit limit tokens = .ok (t, token :: tail)) :
    ofTokens limit tokens = .error (.badSyntax
      (if token = .closeParen then .unmatchedClose else .trailingToken token.text)) := by
  have hne : tokens.isEmpty = false := by simpa using ne_nil_of_readExpression h
  simp only [ofTokens, hne, h, Bool.false_eq_true, if_false]
  cases token <;> rfl

/-- A group whose rule is followed by anything but its closing parenthesis is not closed. -/
theorem readExpression_unclosed (hread : readExpression limit levels tokens = .ok (t, rest))
    (hclose : ∀ tail, rest ≠ .closeParen :: tail) :
    readExpression limit (levels + 1) (.openParen :: tokens) =
      .error (.badSyntax .unclosedGroup) := by
  rw [readExpression, readTerm, hread, ok_bind]
  dsimp only
  split
  · next tail => exact absurd rfl (hclose tail)
  · rfl

/-- **Leftover tokens.**  Tokens that are read as a rule may be followed by others that do not
carry it on.  At the top these are refused for their first token, which closes a group that was
not opened or is left over; after an opening parenthesis before the rule, which takes one level
more, whatever does not close the group, or nothing, leaves it unclosed. -/
theorem ofTokens_leftover (h : ofTokens limit tokens = .ok t) :
    (∀ tail, ofTokens limit (tokens ++ .closeParen :: tail) =
      .error (.badSyntax .unmatchedClose)) ∧
    (∀ token tail, token ≠ .closeParen → (∀ c, token ≠ .connective c) →
      ofTokens limit (tokens ++ token :: tail) =
        .error (.badSyntax (.trailingToken token.text))) ∧
    (∀ rest, (∀ tail, rest ≠ .closeParen :: tail) → Ends rest →
      ofTokens (limit + 1) (.openParen :: tokens ++ rest) =
        .error (.badSyntax .unclosedGroup)) ∧
    SyntaxFault.unmatchedClose.message = "Unmatched closing parenthesis" ∧
    (∀ text, (SyntaxFault.trailingToken text).message =
      "Unexpected token '" ++ text ++ "' after end of expression") ∧
    SyntaxFault.unclosedGroup.message = "Missing closing parenthesis" := by
  refine ⟨fun tail => ?_, fun token tail hclose hconnective => ?_,
    fun rest hclose hends => ?_, rfl, fun text => rfl, rfl⟩
  · have hends : Ends (.closeParen :: tail) := ends_cons_iff.2 (by simp)
    rw [ofTokens_of_readExpression (readExpression_of_ofTokens h (Nat.le_refl limit) hends),
      if_pos rfl]
  · have hends : Ends (token :: tail) := ends_cons_iff.2 hconnective
    rw [ofTokens_of_readExpression (readExpression_of_ofTokens h (Nat.le_refl limit) hends),
      if_neg hclose]
  · have hread : readExpression (limit + 1) limit (tokens ++ rest) = .ok (t, rest) :=
      readExpression_of_ofTokens h (Nat.le_refl limit) hends
    have hunclosed := readExpression_unclosed hread hclose
    simp only [List.cons_append, ofTokens, List.isEmpty_cons, hunclosed, Bool.false_eq_true,
      if_false]
    rfl

/-- A rule of two levels, followed by what might be taken for a part of it. -/
theorem ofTokens_leftover_injected :
    let simple : List Token := [.literal "a", .comparison .greater, .literal "1"]
    let tokens := simple ++ .connective .or :: simple
    let t := combine "OR" (condition ⟨"a", ">", "1"⟩) (condition ⟨"a", ">", "1"⟩)
    ofTokens 2 tokens = .ok t ∧
    ofTokens 2 (tokens ++ .closeParen :: simple) = .error (.badSyntax .unmatchedClose) ∧
    ofTokens 2 (tokens ++ .comparison .equal :: simple) =
      .error (.badSyntax (.trailingToken "=")) ∧
    ofTokens 3 (.openParen :: tokens ++ simple) = .error (.badSyntax .unclosedGroup) ∧
    ofTokens 3 (.openParen :: tokens ++ []) = .error (.badSyntax .unclosedGroup) := by
  intro simple tokens t
  have hread : ofTokens 2 tokens = .ok t := rfl
  obtain ⟨hclose, hleftover, hunclosed, -⟩ := ofTokens_leftover hread
  exact ⟨hread, hclose simple, hleftover (.comparison .equal) simple (by simp) (by simp),
    hunclosed simple (by simp [simple]) (ends_cons_iff.2 (by simp)),
    hunclosed [] (by simp) ends_nil⟩

/-! ## Texts put together -/

variable {a b : String} {u : Rule}

theorem parse_group (h : parse limit a = .ok t) :
    parse (limit + 1) ("(" ++ a ++ ")") = .ok t := by
  obtain ⟨n, hn, hexpr⟩ := expression_of_ofTokens h
  have hgroup : Expression (.openParen :: tokenize a ++ [.closeParen]) t (n + 1) :=
    .term (.group hexpr)
  rw [parse, tokenize_group]
  exact ofTokens_eq_ok_iff.2 ⟨n + 1, by omega, hgroup⟩

/-- The text on the left stands in parentheses, so that its own connectives do not take the text
on the right for a part of their chain. -/
theorem parse_joined (ha : parse limit a = .ok t) (hb : parse limit' b = .ok u) (c : Connective) :
    parse (max limit limit' + 1) ("(" ++ a ++ ") " ++ c.keyword ++ " " ++ b) =
      .ok (combine c.keyword t u) := by
  obtain ⟨n, hn, hleft⟩ := expression_of_ofTokens ha
  obtain ⟨m, hm, hright⟩ := expression_of_ofTokens hb
  have hchain := Expression.chain c (Term.group hleft) hright
  have hspace : ") " = ")" ++ " " := by decide
  rw [parse, hspace, ← String.append_assoc, tokenize_joined, tokenize_group]
  exact ofTokens_eq_ok_iff.2 ⟨max n m + 1, by omega, hchain⟩

/-- **Composition.**  Two texts that are read under a limit may be put together with one
connective.  With the left one in parentheses this takes one level more, with both in parentheses
two levels more, and what is read is the combination of their rules. -/
theorem parse_composed (ha : parse limit a = .ok t) (hb : parse limit b = .ok u) (c : Connective) :
    parse (limit + 1) ("(" ++ a ++ ")") = .ok t ∧
    parse (limit + 1) ("(" ++ a ++ ") " ++ c.keyword ++ " " ++ b) = .ok (combine c.keyword t u) ∧
    parse (limit + 2) ("(" ++ a ++ ") " ++ c.keyword ++ " (" ++ b ++ ")") =
      .ok (combine c.keyword t u) := by
  refine ⟨parse_group ha, ?_, ?_⟩
  · have hjoined := parse_joined ha hb c
    rwa [Nat.max_self] at hjoined
  · have hjoined := parse_joined ha (parse_group hb) c
    have hspace : " (" = " " ++ "(" := by decide
    rw [Nat.max_eq_right (Nat.le_succ limit)] at hjoined
    rw [hspace]
    simpa only [String.append_assoc] using hjoined

/-- Two chains, of which the one on the right begins with a group and quotes a keyword. -/
theorem parse_composed_chains :
    let a := "age > 30 AND name != ''"
    let b := "(x = 'OR')\tOR y = 1"
    let t := combine "AND" (condition ⟨"age", ">", "30"⟩) (condition ⟨"name", "!=", ""⟩)
    let u := combine "OR" (condition ⟨"x", "=", "OR"⟩) (condition ⟨"y", "=", "1"⟩)
    parse 2 a = .ok t ∧ parse 2 b = .ok u ∧
    parse 3 ("(" ++ a ++ ")") = .ok t ∧
    parse 3 ("(" ++ a ++ ") " ++ "OR" ++ " " ++ b) = .ok (combine "OR" t u) ∧
    parse 4 ("(" ++ a ++ ") " ++ "OR" ++ " (" ++ b ++ ")") = .ok (combine "OR" t u) := by
  intro a b t u
  have ha : parse 2 a = .ok t := toOption_eq_some_iff.1 (by decide +kernel)
  have hb : parse 2 b = .ok u := toOption_eq_some_iff.1 (by decide +kernel)
  exact ⟨ha, hb, parse_composed ha hb .or⟩

end RecordRules.Rule
