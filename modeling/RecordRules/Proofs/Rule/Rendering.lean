import RecordRules.Proofs.Rule.Reading
import RecordRules.Rule.Render

/-!
# What is written is read back

The text of a rule, read as a rule, is that rule again, in exactly as many levels as the
rule is deep.  It holds for the rules that have a text at all (`Expressible`): their
connectives are `AND` and `OR`, and no text in them can be cut by a blank or a
parenthesis.  Whatever is read from a text is such a rule.

    t.Expressible → Expression (tokenize t.render) t t.depth             (expression_render)
    parse limit text = ok t → t.Expressible                              (expressible_of_parse)
    parse limit t.render = ok t ↔ t.depth ≤ limit ∧ t.Expressible        (parse_render_iff)
    parse limit text = ok t → parse limit t.render = ok t                (parse_render_of_parse)
-/

namespace RecordRules.Rule

open Token

/-- A rule that has a text: each connective is a keyword, and each text of a condition is
free of blanks and parentheses.  Nothing else is asked of the texts; they may be empty,
keywords, symbols or full of quotes. -/
structure Expressible (t : Rule) : Prop where
  connectives : ∀ op ∈ t.connectives, op = "AND" ∨ op = "OR"
  texts : ∀ c ∈ t.conditions, ∀ text ∈ [c.field, c.operator, c.value], Unbroken text.toList

theorem expressible_condition_iff {c : Condition} :
    (condition c).Expressible ↔
      Unbroken c.field.toList ∧ Unbroken c.operator.toList ∧ Unbroken c.value.toList := by
  constructor
  · intro h
    simpa [conditions] using h.texts
  · intro h
    exact ⟨by simp [connectives], by simpa [conditions] using h⟩

theorem expressible_combine_iff {op : String} {l r : Rule} :
    (combine op l r).Expressible ↔
      (∃ c : Connective, op = c.keyword) ∧ l.Expressible ∧ r.Expressible := by
  rw [Connective.exists_keyword_iff]
  constructor
  · rintro ⟨hconnectives, htexts⟩
    obtain ⟨hop, hl, hr⟩ := forall_connectives_combine.1 hconnectives
    obtain ⟨hl', hr'⟩ := forall_conditions_combine.1 htexts
    exact ⟨hop, ⟨hl, hl'⟩, hr, hr'⟩
  · rintro ⟨hop, ⟨hl, hl'⟩, hr, hr'⟩
    exact ⟨forall_connectives_combine.2 ⟨hop, hl, hr⟩, forall_conditions_combine.2 ⟨hl', hr'⟩⟩

/-! ## Words -/

/-- A text is written so that it reads as the literal it is: as it stands where it does,
and else between quotes, which are all that reading takes off. -/
theorem tokenize_renderWord {text : String} (h : Unbroken text.toList) :
    tokenize (renderWord text) = [.literal text] := by
  unfold renderWord
  split
  · next hself =>
    obtain ⟨hne, hword⟩ : text.toList ≠ [] ∧
        ofWord text.toList = .literal (String.ofList text.toList) := by
      simpa [standsForItself] using hself
    rw [tokenize_of_unbroken h hne, hword, String.ofList_toList]
  · have hquoted : ("'" ++ text ++ "'").toList = '\'' :: (text.toList ++ ['\'']) := by
      simp [String.toList_append]
    have hquote : Unbroken ['\''] := by decide
    have hunbroken : Unbroken ("'" ++ text ++ "'").toList := by
      rw [hquoted]
      exact unbroken_append.2 ⟨hquote, unbroken_append.2 ⟨h, hquote⟩⟩
    rw [tokenize_of_unbroken hunbroken (by simp [hquoted]), hquoted, ofWord_quoted,
      String.ofList_toList]

-- A quote alone is taken for an opening quote, so it is written between two more.
example : tokenize (renderWord "'") = [.literal "'"] := by decide

/-- An operator is written as a symbol or as a word, and read back in either case. -/
theorem tokenize_renderOperator {text : String} (h : Unbroken text.toList) :
    ∃ token, tokenize (renderOperator text) = [token] ∧ token.word? = some text := by
  unfold renderOperator
  split
  · next hsymbol =>
    obtain ⟨o, ho⟩ := Option.isSome_iff_exists.1 hsymbol
    obtain rfl := Operator.ofSymbol?_eq_some_iff.1 ho
    exact ⟨.comparison o, by cases o <;> decide, rfl⟩
  · exact ⟨.literal text, tokenize_renderWord h, rfl⟩

/-! ## What is written is derived -/

theorem term_renderCondition {c : Condition} (h : (condition c).Expressible) :
    Term (tokenize (renderCondition c)) (condition c) 0 := by
  obtain ⟨hfield, hoperator, hvalue⟩ := expressible_condition_iff.1 h
  obtain ⟨token, htoken, hword⟩ := tokenize_renderOperator hoperator
  rw [renderCondition, tokenize_append_space, tokenize_append_space, tokenize_renderWord hfield,
    htoken, tokenize_renderWord hvalue]
  exact .condition rfl hword rfl

/-- The left side of a combination is a term: a condition as it is, and a combination
because of the parentheses.  They put it one level down, which is where it lies anyway. -/
theorem term_left {l : Rule} (h : l.Expressible) (hl : Expression (tokenize l.render) l l.depth) :
    ∃ n, Term (tokenize (if l.isCondition then l.render else "(" ++ l.render ++ ")")) l n ∧
      max n 1 = l.depth := by
  cases l with
  | condition c => exact ⟨0, term_renderCondition h, rfl⟩
  | combine op a b =>
    refine ⟨(combine op a b).depth, ?_, Nat.max_eq_left (depth_pos _)⟩
    rw [isCondition, if_neg (by decide), tokenize_group]
    exact .group hl

/-- The text of a rule derives the rule, and nests just as deep as the rule does. -/
theorem expression_render {t : Rule} (h : t.Expressible) :
    Expression (tokenize t.render) t t.depth := by
  induction t with
  | condition c => exact .term (term_renderCondition h)
  | combine op l r ihl ihr =>
    obtain ⟨⟨c, rfl⟩, hl, hr⟩ := expressible_combine_iff.1 h
    obtain ⟨n, hterm, hn⟩ := term_left hl (ihl hl)
    -- the right side nests at least one level, so a condition on the left adds none
    have hdepth : (combine c.keyword l r).depth = max n r.depth + 1 := by
      have := depth_pos r
      rw [depth]
      omega
    rw [render, tokenize_joined, hdepth]
    exact .chain c hterm (ihr hr)

/-- The text of a rule is read back when the levels suffice, and is else too deep. -/
theorem parse_render (limit : Nat) {t : Rule} (h : t.Expressible) :
    parse limit t.render = if t.depth ≤ limit then .ok t else .error (.nestedTooDeep limit) :=
  ofTokens_of_expression limit (expression_render h)

/-! ## What is read is expressible -/

mutual

/-- Uncut tokens derive expressible rules: the texts of a rule are those of its tokens, and
its connectives are written by tokens of their own. -/
theorem expressible_of_expression : ∀ {ts : List Token} {t : Rule} {n : Nat},
    Expression ts t n → (∀ token ∈ ts, token.Uncut) → t.Expressible
  | _, _, _, .term hterm, h => expressible_of_term hterm h
  | _, _, _, .chain c hterm hexpr, h => by
    obtain ⟨hleft, hright⟩ := List.forall_mem_append.1 h
    exact expressible_combine_iff.2 ⟨⟨c, rfl⟩, expressible_of_term hterm hleft,
      expressible_of_expression hexpr (List.forall_mem_cons.1 hright).2⟩

theorem expressible_of_term : ∀ {ts : List Token} {t : Rule} {n : Nat},
    Term ts t n → (∀ token ∈ ts, token.Uncut) → t.Expressible
  | _, _, _, .condition hf ho hv, h =>
    expressible_condition_iff.2 ⟨h _ (by simp) _ hf, h _ (by simp) _ ho, h _ (by simp) _ hv⟩
  | _, _, _, .group hexpr, h =>
    expressible_of_expression hexpr fun token htoken => h token (by simp [htoken])

end

/-- A rule that is read from a text has a text. -/
theorem expressible_of_parse {limit : Nat} {text : String} {t : Rule}
    (h : parse limit text = .ok t) : t.Expressible := by
  obtain ⟨n, -, hexpr⟩ := expression_of_ofTokens h
  exact expressible_of_expression hexpr fun token htoken => uncut_of_mem_tokenize htoken

/-- **Writing and reading.**  The text of a rule is read back as that rule exactly when the
rule is within the limit and expressible.  An expressible rule beyond the limit is refused
for its nesting. -/
theorem parse_render_iff (limit : Nat) (t : Rule) :
    (parse limit t.render = .ok t ↔ t.depth ≤ limit ∧ t.Expressible) ∧
    (t.Expressible → limit < t.depth →
      parse limit t.render = .error (.badSyntax (.tooDeep limit))) ∧
    (SyntaxFault.tooDeep limit).message =
      "Rule nesting exceeds maximum depth of " ++ toString limit := by
  refine ⟨?_, ?_, rfl⟩
  · constructor
    · intro h
      exact ⟨depth_le_of_parse h, expressible_of_parse h⟩
    · rintro ⟨hdepth, h⟩
      rw [parse_render limit h, if_pos hdepth]
  · intro h hdepth
    rw [parse_render limit h, if_neg (by omega)]

/-! ## Normal forms -/

/-- Rules that have a text have the same text only if they are the same rule: under a limit
that suffices for both, the text is read back as either of them. -/
theorem Expressible.render_inj {t u : Rule} (ht : t.Expressible) (hu : u.Expressible) :
    t.render = u.render ↔ t = u := by
  constructor
  · intro h
    have hread : parse (max t.depth u.depth) t.render = .ok t := by
      rw [parse_render _ ht, if_pos (Nat.le_max_left _ _)]
    have hread' : parse (max t.depth u.depth) u.render = .ok u := by
      rw [parse_render _ hu, if_pos (Nat.le_max_right _ _)]
    rw [h, hread'] at hread
    exact (Except.ok.inj hread).symm
  · rintro rfl
    rfl

/-- **Normal forms.**  A rule that was read from any text is read back from its own text under
the same limit, since it needs no more levels than that text did.  So two texts that are read
have the same normal form exactly when they write the same rule. -/
theorem parse_render_of_parse {limit : Nat} {text : String} {t : Rule}
    (h : parse limit text = .ok t) :
    parse limit t.render = .ok t ∧
    ∀ limit' text' t', parse limit' text' = .ok t' → (t.render = t'.render ↔ t = t') := by
  have ht : t.Expressible := expressible_of_parse h
  constructor
  · rw [parse_render limit ht, if_pos (depth_le_of_parse h)]
  · intro limit' text' t' h'
    exact ht.render_inj (expressible_of_parse h')

/-- Parentheses, blanks and quotes that are not needed: the text uses up its four levels, while
its normal form needs two of them. -/
theorem parse_render_of_parse_redundant :
    let t := combine "AND" (condition ⟨"a", ">", "30"⟩) (condition ⟨"it's", "=", "AND"⟩)
    let text := "((a > '30'))\tAND ( (it's\u00a0= 'AND') )"
    parse 4 text = .ok t ∧ t.render = "a > 30 AND it's = 'AND'" ∧ parse 4 t.render = .ok t ∧
      ∀ limit' text' t', parse limit' text' = .ok t' → (t.render = t'.render ↔ t = t') := by
  intro t text
  have hparse : parse 4 text = .ok t := toOption_eq_some_iff.1 (by decide +kernel)
  exact ⟨hparse, by decide +kernel, parse_render_of_parse hparse⟩

end RecordRules.Rule
