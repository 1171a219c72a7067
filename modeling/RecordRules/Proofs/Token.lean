import RecordRules.Token

/-!
# Tokens and words

A text has no tokens exactly when it holds nothing but blanks, so a rule that is
not blank is never taken for an empty one.

A text that nothing cuts, neither a blank nor a parenthesis (`Unbroken`), is one
token when it is not empty, and tokens contribute only such texts to a condition
(`Uncut`).  Between quotes such a text is always the literal it is.

    Unbroken cs → cs ≠ [] → scan [] cs = [ofWord cs]                    (scan_of_unbroken)
    token ∈ tokenize rule → token.Uncut                                 (uncut_of_mem_tokenize)
    ofWord ('\'' :: (cs ++ ['\''])) = literal cs                        (ofWord_quoted)

Texts are scanned apart at a blank or a parenthesis between them (`tokenize_append_blank`,
`tokenize_append_open`, `tokenize_append_close`).
-/

namespace RecordRules.Token

open Text

/-! ## Blank texts -/

theorem endWord_eq_nil_iff {word : List Char} : endWord word = [] ↔ word = [] := by
  cases word <;> simp [endWord]

/-- A scan finds no token only if it starts outside a word and meets blanks alone. -/
theorem scan_eq_nil_iff {word cs : List Char} :
    scan word cs = [] ↔ word = [] ∧ cs.all isBlank = true := by
  induction cs generalizing word with
  | nil => simp [scan, endWord_eq_nil_iff]
  | cons c cs ih =>
    rw [scan]
    by_cases hblank : isBlank c = true
    · rw [if_pos hblank, List.append_eq_nil_iff, endWord_eq_nil_iff, ih]
      simp [hblank]
    · rw [if_neg hblank]
      split
      · simp [hblank]
      · split
        · simp [hblank]
        · simp [ih, hblank]

theorem tokenize_eq_nil_iff {text : String} : tokenize text = [] ↔ isBlankText text = true := by
  unfold tokenize isBlankText
  rw [scan_eq_nil_iff]
  simp

/-! ## Words -/

/-- Nothing cuts the text: it holds no blank and no parenthesis. -/
def Unbroken (cs : List Char) : Prop := ∀ c ∈ cs, isBlank c = false ∧ c ≠ '(' ∧ c ≠ ')'

instance (cs : List Char) : Decidable (Unbroken cs) := List.decidableBAll _ cs

theorem Unbroken.of_subset {cs ds : List Char} (h : Unbroken cs) (hsub : ds ⊆ cs) : Unbroken ds :=
  fun c hc => h c (hsub hc)

theorem unbroken_append {cs ds : List Char} : Unbroken (cs ++ ds) ↔ Unbroken cs ∧ Unbroken ds :=
  List.forall_mem_append

/-- A text that nothing cuts prolongs the word that was begun before it. -/
theorem scan_append_unbroken {cs : List Char} (h : Unbroken cs) (word : List Char) :
    scan word cs = endWord (cs.reverse ++ word) := by
  induction cs generalizing word with
  | nil => rfl
  | cons c cs ih =>
    obtain ⟨hc, hcs⟩ := List.forall_mem_cons.1 h
    rw [scan, if_neg (by simp [hc.1]), if_neg hc.2.1, if_neg hc.2.2, ih hcs,
      List.reverse_cons, List.append_assoc, List.singleton_append]

theorem scan_of_unbroken {cs : List Char} (h : Unbroken cs) (hne : cs ≠ []) :
    scan [] cs = [ofWord cs] := by
  obtain ⟨c, tail, htail⟩ : ∃ c tail, cs.reverse = c :: tail :=
    List.exists_cons_of_ne_nil (by simpa using hne)
  rw [scan_append_unbroken h, List.append_nil, htail, endWord, ← htail, List.reverse_reverse]

theorem tokenize_of_unbroken {text : String} (h : Unbroken text.toList) (hne : text.toList ≠ []) :
    tokenize text = [ofWord text.toList] := scan_of_unbroken h hne

/-! ## Texts put together -/

theorem tokenize_append_blank {c : Char} (hc : isBlank c = true) (a b : String) :
    tokenize (a ++ String.singleton c ++ b) = tokenize a ++ tokenize b := by
  have hcut : (a ++ String.singleton c ++ b).toList = a.toList ++ c :: b.toList := by
    simp [String.toList_append]
  rw [tokenize, hcut, scan_append_blank hc]
  rfl

theorem tokenize_append_space (a b : String) :
    tokenize (a ++ " " ++ b) = tokenize a ++ tokenize b := by
  have hspace : " " = String.singleton ' ' := by decide
  rw [hspace]
  exact tokenize_append_blank (by decide) a b

theorem tokenize_append_open (a b : String) :
    tokenize (a ++ "(" ++ b) = tokenize a ++ openParen :: tokenize b := by
  have hcut : (a ++ "(" ++ b).toList = a.toList ++ '(' :: b.toList := by
    simp [String.toList_append]
  rw [tokenize, hcut, scan_append_open]
  rfl

theorem tokenize_append_close (a b : String) :
    tokenize (a ++ ")" ++ b) = tokenize a ++ closeParen :: tokenize b := by
  have hcut : (a ++ ")" ++ b).toList = a.toList ++ ')' :: b.toList := by
    simp [String.toList_append]
  rw [tokenize, hcut, scan_append_close]
  rfl

theorem tokenize_group (text : String) :
    tokenize ("(" ++ text ++ ")") = openParen :: tokenize text ++ [closeParen] := by
  have hopen := tokenize_append_open "" text
  have hclose := tokenize_append_close ("(" ++ text) ""
  rw [String.empty_append] at hopen
  rw [String.append_empty, hopen] at hclose
  exact hclose

theorem tokenize_keyword (c : Connective) : tokenize c.keyword = [connective c] := by
  cases c <;> decide

theorem tokenize_joined (a : String) (c : Connective) (b : String) :
    tokenize (a ++ " " ++ c.keyword ++ " " ++ b) = tokenize a ++ connective c :: tokenize b := by
  rw [tokenize_append_space, tokenize_append_space, tokenize_keyword, List.append_assoc,
    List.singleton_append]

/-! ## Quotes -/

/-- A word that starts with a quote is a literal: no keyword or symbol does. -/
theorem ofWord_quote_cons (cs : List Char) :
    ofWord ('\'' :: cs) = literal (String.ofList (unquote ('\'' :: cs))) := by
  have hne : ∀ s : String, s.toList.head? ≠ some '\'' → String.ofList ('\'' :: cs) ≠ s := by
    rintro s hs rfl
    exact hs (by simp)
  have hkeyword : Connective.ofKeyword? (String.ofList ('\'' :: cs)) = none := by
    refine Option.eq_none_iff_forall_ne_some.2 fun c hc => ?_
    exact hne c.keyword (by cases c <;> decide) (Connective.ofKeyword?_eq_some_iff.1 hc)
  have hsymbol : Operator.ofSymbol? (String.ofList ('\'' :: cs)) = none := by
    refine Option.eq_none_iff_forall_ne_some.2 fun o ho => ?_
    exact hne o.symbol (by cases o <;> decide) (Operator.ofSymbol?_eq_some_iff.1 ho)
  unfold ofWord
  split
  · next h => exact absurd h (hne _ (by decide))
  · next h => exact absurd h (hne _ (by decide))
  · rw [hkeyword]
    dsimp only
    rw [hsymbol]

theorem unquote_quoted (cs : List Char) : unquote ('\'' :: (cs ++ ['\''])) = cs := by
  simp [unquote]

theorem ofWord_quoted (cs : List Char) :
    ofWord ('\'' :: (cs ++ ['\''])) = literal (String.ofList cs) := by
  rw [ofWord_quote_cons, unquote_quoted]

/-! ## Texts that tokens contribute -/

/-- The text that the token contributes to a condition, if there is one, is unbroken. -/
def Uncut (token : Token) : Prop := ∀ text, token.word? = some text → Unbroken text.toList

theorem uncut_of_word?_eq_none {token : Token} (h : token.word? = none) : token.Uncut := by
  intro text htext
  rw [h] at htext
  cases htext

theorem unbroken_symbol (o : Operator) : Unbroken o.symbol.toList := by
  cases o <;> decide

theorem unquote_sublist (word : List Char) : (unquote word).Sublist word := by
  have hdrop : ∀ tail : List Char,
      (if tail.getLast? = some '\'' then tail.dropLast else tail).Sublist tail := by
    intro tail
    split
    · exact List.dropLast_sublist tail
    · exact List.Sublist.refl tail
  have htail : (if word.head? = some '\'' then word.tail else word).Sublist word := by
    split
    · exact List.tail_sublist word
    · exact List.Sublist.refl word
  exact (hdrop _).trans htail

theorem uncut_ofWord {word : List Char} (h : Unbroken word) : (ofWord word).Uncut := by
  unfold ofWord
  split
  · exact uncut_of_word?_eq_none rfl
  · exact uncut_of_word?_eq_none rfl
  · split
    · exact uncut_of_word?_eq_none rfl
    · split
      · next o _ =>
        rintro text ⟨⟩
        exact unbroken_symbol o
      · rintro text ⟨⟩
        rw [String.toList_ofList]
        exact h.of_subset (unquote_sublist word).subset

theorem uncut_of_mem_endWord {word : List Char} (h : Unbroken word) {token : Token}
    (htoken : token ∈ endWord word) : token.Uncut := by
  cases word with
  | nil => simp [endWord] at htoken
  | cons c word =>
    obtain rfl : token = ofWord (c :: word).reverse := by simpa [endWord] using htoken
    exact uncut_ofWord (h.of_subset fun x hx => List.mem_reverse.1 hx)

/-- Each character ends the word before it, may stand for a parenthesis, and starts afresh,
unless it cuts nothing and prolongs the word. -/
theorem mem_scan_cons {word cs : List Char} {c : Char} {token : Token}
    (h : token ∈ scan word (c :: cs)) :
    token ∈ endWord word ∨ token.word? = none ∨ token ∈ scan [] cs ∨
      (isBlank c = false ∧ c ≠ '(' ∧ c ≠ ')') ∧ token ∈ scan (c :: word) cs := by
  rw [scan] at h
  by_cases hblank : isBlank c = true
  · rw [if_pos hblank, List.mem_append] at h
    exact h.imp_right fun h => .inr (.inl h)
  · rw [if_neg hblank] at h
    by_cases hopen : c = '('
    · rw [if_pos hopen, List.mem_append, List.mem_cons] at h
      exact h.imp_right fun h => h.imp (fun h => by rw [h]; rfl) .inl
    · rw [if_neg hopen] at h
      by_cases hclose : c = ')'
      · rw [if_pos hclose, List.mem_append, List.mem_cons] at h
        exact h.imp_right fun h => h.imp (fun h => by rw [h]; rfl) .inl
      · rw [if_neg hclose] at h
        exact .inr (.inr (.inr ⟨⟨by simpa using hblank, hopen, hclose⟩, h⟩))

/-- The word read so far stays unbroken, because whatever would cut it ends it. -/
theorem uncut_of_mem_scan {word cs : List Char} (h : Unbroken word) {token : Token}
    (htoken : token ∈ scan word cs) : token.Uncut := by
  induction cs generalizing word with
  | nil => exact uncut_of_mem_endWord h htoken
  | cons c cs ih =>
    rcases mem_scan_cons htoken with hend | hnone | hrest | ⟨hc, hprolonged⟩
    · exact uncut_of_mem_endWord h hend
    · exact uncut_of_word?_eq_none hnone
    · exact ih (List.forall_mem_nil _) hrest
    · exact ih (List.forall_mem_cons.2 ⟨hc, h⟩) hprolonged

theorem uncut_of_mem_tokenize {rule : String} {token : Token} (h : token ∈ tokenize rule) :
    token.Uncut := uncut_of_mem_scan (List.forall_mem_nil _) h

end RecordRules.Token
