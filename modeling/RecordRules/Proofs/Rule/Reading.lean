import RecordRules.Proofs.Answer
import RecordRules.Proofs.Token
import RecordRules.Rule.Parser

/-!
# Reading is the grammar

The readers accept what the grammar derives, with the rule of the derivation,
as long as the derivation nests no deeper than the limit.  A derivation that
nests deeper fails for its depth and for nothing else, and tokens without a
derivation fail with a fault of syntax.

    ofTokens limit ts = ok t  ↔  ∃ n ≤ limit, Expression ts t n          (ofTokens_eq_ok_iff)
    Expression ts t n → limit < n → ofTokens limit ts = error tooDeep    (ofTokens_of_expression)

A reader does not see where its part of the tokens ends, so both directions are
stated over the tokens that follow.
-/

namespace RecordRules.Rule

/-- The tokens carry no expression before them on: they do not start with a connective. -/
def Ends (tokens : List Token) : Prop :=
  ∀ c tail, tokens ≠ .connective c :: tail

theorem ends_nil : Ends [] := by
  rintro c tail ⟨⟩

theorem ends_cons_iff {token : Token} {tail : List Token} :
    Ends (token :: tail) ↔ ∀ c, token ≠ .connective c := by
  simp [Ends]

/-! ## Conditions -/

theorem readSlot_eq_ok_iff {slot : Slot} {token : Token} {text : String} :
    readSlot slot token = .ok text ↔ token.word? = some text := by
  unfold readSlot
  cases token.word? <;> simp

theorem readCondition_of_words {f o v : Token} {field operator value : String}
    (hf : f.word? = some field) (ho : o.word? = some operator) (hv : v.word? = some value)
    (rest : List Token) :
    readCondition (f :: o :: v :: rest) = .ok (condition ⟨field, operator, value⟩, rest) := by
  simp only [readCondition, readSlot_eq_ok_iff.2 hf, readSlot_eq_ok_iff.2 ho,
    readSlot_eq_ok_iff.2 hv, ok_bind]
  rfl

theorem term_of_readCondition {tokens rest : List Token} {t : Rule}
    (h : readCondition tokens = .ok (t, rest)) :
    ∃ ts, tokens = ts ++ rest ∧ Term ts t 0 := by
  unfold readCondition at h
  split at h
  · next f o v rest' =>
    obtain ⟨field, hf, h⟩ := bind_eq_ok_iff.1 h
    obtain ⟨operator, ho, h⟩ := bind_eq_ok_iff.1 h
    obtain ⟨value, hv, h⟩ := bind_eq_ok_iff.1 h
    obtain ⟨rfl, rfl⟩ : condition ⟨field, operator, value⟩ = t ∧ rest' = rest := by
      simpa [pure, Except.pure] using h
    exact ⟨[f, o, v], rfl, .condition (readSlot_eq_ok_iff.1 hf) (readSlot_eq_ok_iff.1 ho)
      (readSlot_eq_ok_iff.1 hv)⟩
  · simp at h

/-! ## What is derived is read -/

mutual

/-- A derivation uses at least the three tokens of a condition. -/
theorem length_of_expression :
    ∀ {ts : List Token} {t : Rule} {n : Nat}, Expression ts t n → 3 ≤ ts.length
  | _, _, _, .term hterm => length_of_term hterm
  | _, _, _, .chain _ hterm _ => by
    have := length_of_term hterm
    rw [List.length_append]
    omega

theorem length_of_term :
    ∀ {ts : List Token} {t : Rule} {n : Nat}, Term ts t n → 3 ≤ ts.length
  | _, _, _, .condition .. => Nat.le_refl 3
  | _, _, _, .group hexpr => by
    have := length_of_expression hexpr
    rw [List.cons_append, List.length_cons, List.length_append]
    omega

end

/-- Every derivation nests at least the level of its outermost expression. -/
theorem nesting_pos {ts : List Token} {t : Rule} {n : Nat} (h : Expression ts t n) : 0 < n := by
  cases h <;> omega

mutual

/-- An expression is read up to its end if it fits the levels that are left; else its
nesting is the fault that is found, whatever follows. -/
theorem readExpression_append (limit : Nat) : ∀ {ts : List Token} {t : Rule} {n : Nat},
    Expression ts t n → ∀ (levels : Nat) (rest : List Token), Ends rest →
      readExpression limit levels (ts ++ rest) =
        if n ≤ levels then .ok (t, rest) else .error (.nestedTooDeep limit)
  | _, _, _, h, 0, _, _ => by
    have := nesting_pos h
    rw [if_neg (by omega), readExpression]
  | _, _, _, @Expression.term _ _ n hterm, levels + 1, rest, hrest => by
    rw [readExpression, readTerm_append limit hterm levels rest]
    by_cases hn : n ≤ levels
    · rw [if_pos hn, if_pos (by omega), ok_bind]
      dsimp only
      -- nothing that `Ends` allows takes one of the two branches for a connective
      split
      · next c => exact absurd rfl (hrest c [])
      · next c tail _ => exact absurd rfl (hrest c tail)
      · rfl
    · rw [if_neg hn, if_neg (by omega), error_bind]
  | _, _, _, @Expression.chain _ _ n us _ m c hterm hexpr, levels + 1, rest, hrest => by
    have hright := readExpression_append limit hexpr levels rest hrest
    have hlen := length_of_expression hexpr
    rw [List.append_assoc, readExpression, readTerm_append limit hterm levels]
    by_cases hn : n ≤ levels
    · rw [if_pos hn, ok_bind]
      -- the tokens of the right side are not empty, so the connective is not the last one
      obtain ⟨u, us', rfl⟩ : ∃ u us', us = u :: us' := List.exists_cons_of_length_pos (by omega)
      simp only [List.cons_append]
      rw [List.cons_append] at hright
      rw [hright]
      by_cases hm : m ≤ levels
      · rw [if_pos hm, if_pos (by omega)]; rfl
      · rw [if_neg hm, if_neg (by omega), error_bind]
    · rw [if_neg hn, if_neg (by omega), error_bind]

/-- A term is read as `readExpression_append` says of an expression, except that a
connective may follow. -/
theorem readTerm_append (limit : Nat) : ∀ {ts : List Token} {t : Rule} {n : Nat},
    Term ts t n → ∀ (levels : Nat) (rest : List Token),
      readTerm (readExpression limit levels) (ts ++ rest) =
        if n ≤ levels then .ok (t, rest) else .error (.nestedTooDeep limit)
  | _, _, _, @Term.condition f _ _ _ _ _ hf ho hv, levels, rest => by
    rw [if_pos (Nat.zero_le _), ← readCondition_of_words hf ho hv rest]
    cases f with
    | openParen => simp [Token.word?] at hf
    | _ => rfl
  | _, _, _, @Term.group _ _ n hexpr, levels, rest => by
    have hends : Ends (.closeParen :: rest) := ends_cons_iff.2 fun c => by simp
    have hinner := readExpression_append limit hexpr levels (.closeParen :: rest) hends
    simp only [List.cons_append, List.append_assoc, List.nil_append]
    rw [readTerm, hinner]
    by_cases hn : n ≤ levels
    · rw [if_pos hn, if_pos hn]; rfl
    · rw [if_neg hn, if_neg hn, error_bind]

end

/-! ## What is read is derived -/

/-- What a reader of expressions in so many levels promises. -/
def SoundReader (levels : Nat) (read : List Token → Reading) : Prop :=
  ∀ tokens t rest, read tokens = .ok (t, rest) →
    ∃ ts n, tokens = ts ++ rest ∧ Expression ts t n ∧ n ≤ levels ∧ Ends rest

theorem term_of_readTerm {levels : Nat} {inner : List Token → Reading}
    (hinner : SoundReader levels inner) {tokens rest : List Token} {t : Rule}
    (h : readTerm inner tokens = .ok (t, rest)) :
    ∃ ts n, tokens = ts ++ rest ∧ Term ts t n ∧ n ≤ levels := by
  unfold readTerm at h
  split at h
  · cases h
  · next tokens =>
    obtain ⟨⟨u, after⟩, hu, hclose⟩ := bind_eq_ok_iff.1 h
    obtain ⟨ts, n, rfl, hexpr, hn, -⟩ := hinner tokens u after hu
    dsimp only at hclose
    split at hclose
    · next tail =>
      obtain ⟨rfl, rfl⟩ : u = t ∧ tail = rest := by simpa [pure, Except.pure] using hclose
      exact ⟨.openParen :: ts ++ [.closeParen], n, by simp, .group hexpr, hn⟩
    · cases hclose
  · obtain ⟨ts, hts, hterm⟩ := term_of_readCondition h
    exact ⟨ts, 0, hts, hterm, Nat.zero_le _⟩

/-- What is read is derived, in the levels that are left, and no connective follows it. -/
theorem expression_of_readExpression (limit : Nat) :
    ∀ levels, SoundReader levels (readExpression limit levels) := by
  intro levels
  induction levels with
  | zero =>
    intro tokens t rest h
    rw [readExpression] at h
    cases h
  | succ levels ih =>
    intro tokens t rest h
    rw [readExpression] at h
    obtain ⟨⟨u, after⟩, hu, hnext⟩ := bind_eq_ok_iff.1 h
    obtain ⟨ts, n, rfl, hterm, hn⟩ := term_of_readTerm ih hu
    dsimp only at hnext
    split at hnext
    · cases hnext
    · next c after _ =>
      obtain ⟨⟨w, tail⟩, hw, hjoin⟩ := bind_eq_ok_iff.1 hnext
      obtain ⟨us, m, rfl, hexpr, hm, hends⟩ := ih after w tail hw
      obtain ⟨rfl, rfl⟩ : combine c.keyword u w = t ∧ tail = rest := by
        simpa [pure, Except.pure] using hjoin
      exact ⟨ts ++ .connective c :: us, max n m + 1, by simp, .chain c hterm hexpr, by omega, hends⟩
    · next hsingle hcons =>
      obtain ⟨rfl, rfl⟩ : u = t ∧ after = rest := by simpa [pure, Except.pure] using hnext
      refine ⟨ts, n + 1, rfl, .term hterm, by omega, ?_⟩
      rintro c tail rfl
      cases tail with
      | nil => exact hsingle c rfl
      | cons => exact hcons c _ rfl

/-! ## Faults -/

/-- A fault of syntax, of a rule that is not empty. -/
def FaultOfSome (e : Error) : Prop := ∃ fault, e = .badSyntax fault ∧ fault ≠ .emptyRule

/-- A reader fails with a fault of syntax only, and never calls the rule empty. -/
def SyntacticReader (read : List Token → Reading) : Prop :=
  ∀ tokens e, read tokens = .error e → FaultOfSome e

theorem readSlot_syntactic (slot : Slot) (token : Token) :
    FailsWith FaultOfSome (readSlot slot token) := by
  unfold readSlot
  split
  · exact failsWith_ok _
  · exact failsWith_error ⟨_, rfl, by simp⟩

theorem readCondition_syntactic : SyntacticReader readCondition := by
  intro tokens
  show FailsWith FaultOfSome (readCondition tokens)
  unfold readCondition
  split
  · refine (readSlot_syntactic _ _).bind fun field => ?_
    refine (readSlot_syntactic _ _).bind fun operator => ?_
    exact (readSlot_syntactic _ _).bind fun value => failsWith_ok _
  · exact failsWith_error ⟨_, rfl, by simp⟩

theorem readTerm_syntactic {inner : List Token → Reading} (hinner : SyntacticReader inner) :
    SyntacticReader (readTerm inner) := by
  intro tokens
  show FailsWith FaultOfSome (readTerm inner tokens)
  unfold readTerm
  split
  · exact failsWith_error ⟨_, rfl, by simp⟩
  · refine FailsWith.bind (hinner _) fun p => ?_
    dsimp only
    split
    · exact failsWith_ok _
    · exact failsWith_error ⟨_, rfl, by simp⟩
  · exact readCondition_syntactic _

theorem readExpression_syntactic (limit levels : Nat) :
    SyntacticReader (readExpression limit levels) := by
  induction levels with
  | zero =>
    intro tokens
    exact failsWith_error ⟨_, rfl, by simp⟩
  | succ levels ih =>
    intro tokens
    show FailsWith FaultOfSome (readExpression limit (levels + 1) tokens)
    rw [readExpression]
    refine FailsWith.bind (readTerm_syntactic ih _) fun p => ?_
    dsimp only
    split
    · exact failsWith_error ⟨_, rfl, by simp⟩
    · exact FailsWith.bind (ih _) fun q => failsWith_ok _
    · exact failsWith_ok _

/-- Tokens are refused for a fault of syntax, and called empty only if there are none. -/
theorem ofTokens_syntactic {limit : Nat} {tokens : List Token} {e : Error}
    (h : ofTokens limit tokens = .error e) :
    tokens = [] ∧ e = .badSyntax .emptyRule ∨ FaultOfSome e := by
  unfold ofTokens at h
  split at h
  · next hempty =>
    cases h
    exact .inl ⟨List.isEmpty_iff.1 hempty, rfl⟩
  · right
    rcases bind_eq_error_iff.1 h with h | ⟨⟨t, rest⟩, -, h⟩
    · exact readExpression_syntactic limit limit tokens e h
    · dsimp only at h
      split at h
      · cases h
      · cases h; exact ⟨_, rfl, by simp⟩
      · cases h; exact ⟨_, rfl, by simp⟩

/-! ## All tokens of a rule -/

/-- A derivation decides the answer: its rule, or that it nests too deep. -/
theorem ofTokens_of_expression (limit : Nat) {ts : List Token} {t : Rule} {n : Nat}
    (h : Expression ts t n) :
    ofTokens limit ts = if n ≤ limit then .ok t else .error (.nestedTooDeep limit) := by
  have hread := readExpression_append limit h limit [] ends_nil
  have hne : ts.isEmpty = false := by
    have := length_of_expression h
    cases ts with
    | nil => simp at this
    | cons => rfl
  rw [List.append_nil] at hread
  simp only [ofTokens, hne, hread, Bool.false_eq_true, if_false]
  by_cases hn : n ≤ limit
  · rw [if_pos hn, if_pos hn]; rfl
  · rw [if_neg hn, if_neg hn]; rfl

theorem expression_of_ofTokens {limit : Nat} {ts : List Token} {t : Rule}
    (h : ofTokens limit ts = .ok t) : ∃ n ≤ limit, Expression ts t n := by
  unfold ofTokens at h
  split at h
  · cases h
  · obtain ⟨⟨u, rest⟩, hu, hend⟩ := bind_eq_ok_iff.1 h
    obtain ⟨us, n, rfl, hexpr, hn, -⟩ := expression_of_readExpression limit limit ts u rest hu
    dsimp only at hend
    split at hend
    · obtain rfl : u = t := by simpa [pure, Except.pure] using hend
      rw [List.append_nil]
      exact ⟨n, hn, hexpr⟩
    · cases hend
    · cases hend

theorem ofTokens_eq_ok_iff {limit : Nat} {ts : List Token} {t : Rule} :
    ofTokens limit ts = .ok t ↔ ∃ n ≤ limit, Expression ts t n := by
  constructor
  · exact expression_of_ofTokens
  · rintro ⟨n, hn, h⟩
    rw [ofTokens_of_expression limit h, if_pos hn]

/-- Tokens derive at most one rule. -/
theorem expression_unique {ts : List Token} {t u : Rule} {n m : Nat}
    (ht : Expression ts t n) (hu : Expression ts u m) : t = u := by
  have h := ofTokens_of_expression (max n m) ht
  rw [ofTokens_of_expression (max n m) hu, if_pos (by omega), if_pos (by omega)] at h
  exact (Except.ok.inj h).symm

mutual

/-- A rule is no deeper than its derivation nests: parentheses leave no trace in it. -/
theorem depth_le_of_expression :
    ∀ {ts : List Token} {t : Rule} {n : Nat}, Expression ts t n → t.depth ≤ n
  | _, _, _, .term hterm => by
    have := depth_le_of_term hterm
    omega
  | _, _, _, .chain _ hterm hexpr => by
    have hl := depth_le_of_term hterm
    have hr := depth_le_of_expression hexpr
    have hpos := nesting_pos hexpr
    rw [depth]
    omega

theorem depth_le_of_term :
    ∀ {ts : List Token} {t : Rule} {n : Nat}, Term ts t n → t.depth ≤ max n 1
  | _, _, _, .condition .. => Nat.le_refl 1
  | _, _, _, .group hexpr => by
    have := depth_le_of_expression hexpr
    omega

end

/-! ## Texts -/

theorem depth_le_of_parse {limit : Nat} {text : String} {t : Rule}
    (h : parse limit text = .ok t) : t.depth ≤ limit := by
  obtain ⟨n, hn, hexpr⟩ := expression_of_ofTokens h
  have := depth_le_of_expression hexpr
  omega

/-- Only a blank text is called empty, whatever the limit. -/
theorem parse_eq_emptyRule_iff {limit : Nat} {text : String} :
    parse limit text = .error (.badSyntax .emptyRule) ↔ Text.isBlankText text = true := by
  rw [← Token.tokenize_eq_nil_iff]
  constructor
  · intro h
    rcases ofTokens_syntactic h with ⟨hnil, -⟩ | ⟨fault, hfault, hne⟩
    · exact hnil
    · cases hfault
      exact absurd rfl hne
  · intro h
    rw [parse, h]
    rfl

/-! ## The grammar decides -/

/-- **Reading is the grammar.**  Tokens are read exactly when they derive a rule within
the limit, and then as that rule, of which there is only one.  A derivation beyond the
limit is refused for its nesting, and tokens without a derivation for some fault of syntax. -/
theorem ofTokens_characterization (limit : Nat) (ts : List Token) :
    (∀ t, ofTokens limit ts = .ok t ↔ ∃ n ≤ limit, Expression ts t n) ∧
    (∀ t u n m, Expression ts t n → Expression ts u m → t = u) ∧
    (∀ t n, Expression ts t n → limit < n → ofTokens limit ts = .error (.nestedTooDeep limit)) ∧
    ((¬ ∃ t n, Expression ts t n) → ∃ fault, ofTokens limit ts = .error (.badSyntax fault)) ∧
    (SyntaxFault.tooDeep limit).message =
      "Rule nesting exceeds maximum depth of " ++ toString limit := by
  refine ⟨fun t => ofTokens_eq_ok_iff, fun t u n m => expression_unique, ?_, ?_, rfl⟩
  · intro t n h hn
    rw [ofTokens_of_expression limit h, if_neg (by omega)]
  · intro hnone
    cases hread : ofTokens limit ts with
    | ok t =>
      obtain ⟨n, -, h⟩ := ofTokens_eq_ok_iff.1 hread
      exact absurd ⟨t, n, h⟩ hnone
    | error e =>
      rcases ofTokens_syntactic hread with ⟨-, rfl⟩ | ⟨fault, rfl, -⟩
      · exact ⟨_, rfl⟩
      · exact ⟨fault, rfl⟩

end RecordRules.Rule
