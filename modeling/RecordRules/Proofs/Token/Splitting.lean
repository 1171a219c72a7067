import RecordRules.Proofs.Token

/-!
# Tokens by splitting a text

The tokens of a text are found in one pass over its characters.  They are the same as those
found by rewriting the text as a whole: a space is put on each side of every parenthesis, the
result is split at its blanks, and each piece that is not empty is read on its own.

    tokenize rule = (words (spaced rule.toList)).map ofWord              (tokenize_eq_words)

The spaces that were put in leave no trace, because all that they can add are empty pieces.
What holds for separators follows on either way (`tokenize_compositional`).
-/

namespace RecordRules.Token

open Text

/-! ## Algorithm -/

/-- The text with a space on each side of every occurrence of the character. -/
def spaceOut (mark : Char) (cs : List Char) : List Char :=
  cs.flatMap fun c => if c = mark then [' ', mark, ' '] else [c]

/-- The text with a space on each side of every parenthesis, the opening ones first. -/
def spaced (cs : List Char) : List Char := spaceOut ')' (spaceOut '(' cs)

/-- The pieces of the text between its blanks, without the empty ones. -/
def words (cs : List Char) : List (List Char) := (cs.splitOnP isBlank).filter fun w => !w.isEmpty

/-! ## Words -/

theorem words_append_blank {c : Char} (hc : isBlank c = true) (a b : List Char) :
    words (a ++ c :: b) = words a ++ words b := by
  rw [words, List.splitOnP_append_cons a b hc, List.filter_append]
  rfl

/-- A text without blanks is one word, or none if it is empty. -/
theorem map_ofWord_words {word : List Char} (h : ∀ c ∈ word, isBlank c = false) :
    (words word.reverse).map ofWord = endWord word := by
  have hsplit : word.reverse.splitOnP isBlank = [word.reverse] :=
    List.splitOnP_eq_singleton fun c hc => h c (List.mem_reverse.1 hc)
  rw [words, hsplit]
  cases word with
  | nil => rfl
  | cons c word => simp [endWord]

/-! ## Spaces around parentheses -/

theorem spaced_nil : spaced [] = [] := rfl

theorem spaced_cons_open (cs : List Char) :
    spaced ('(' :: cs) = ' ' :: '(' :: ' ' :: spaced cs := rfl

theorem spaced_cons_close (cs : List Char) :
    spaced (')' :: cs) = ' ' :: ')' :: ' ' :: spaced cs := rfl

theorem spaced_cons {c : Char} (hopen : c ≠ '(') (hclose : c ≠ ')') (cs : List Char) :
    spaced (c :: cs) = c :: spaced cs := by
  simp [spaced, spaceOut, hopen, hclose]

/-- A parenthesis between two spaces ends the word before it and is a word of its own. -/
theorem words_append_spaced {c : Char} (hc : isBlank c = false) (a b : List Char) :
    words (a ++ ' ' :: c :: ' ' :: b) = words a ++ [c] :: words b := by
  have hspace : isBlank ' ' = true := by decide
  have hword : words [c] = [[c]] := by simp [words, List.splitOnP_eq_singleton, hc]
  have hcut : c :: ' ' :: b = [c] ++ ' ' :: b := rfl
  rw [words_append_blank hspace, hcut, words_append_blank hspace, hword]
  rfl

/-! ## One pass -/

/-- The part of a word that was read already stands before the rest of the text; no blank has
cut it yet, and no blank is put into it. -/
theorem scan_eq_words {word : List Char} (h : ∀ c ∈ word, isBlank c = false) (cs : List Char) :
    scan word cs = (words (word.reverse ++ spaced cs)).map ofWord := by
  induction cs generalizing word with
  | nil => rw [spaced_nil, List.append_nil, map_ofWord_words h, scan]
  | cons c cs ih =>
    have hstart : scan [] cs = (words (spaced cs)).map ofWord := ih (List.forall_mem_nil _)
    rw [scan]
    by_cases hblank : isBlank c = true
    · have hopen : c ≠ '(' := by rintro rfl; exact absurd hblank (by decide)
      have hclose : c ≠ ')' := by rintro rfl; exact absurd hblank (by decide)
      rw [if_pos hblank, spaced_cons hopen hclose, words_append_blank hblank, List.map_append,
        map_ofWord_words h, hstart]
    · rw [if_neg hblank]
      by_cases hopen : c = '('
      · subst hopen
        rw [if_pos rfl, spaced_cons_open, words_append_spaced (by decide), List.map_append,
          map_ofWord_words h, List.map_cons, hstart]
        rfl
      · by_cases hclose : c = ')'
        · subst hclose
          rw [if_neg hopen, if_pos rfl, spaced_cons_close, words_append_spaced (by decide),
            List.map_append, map_ofWord_words h, List.map_cons, hstart]
          rfl
        · have hword : ∀ x ∈ c :: word, isBlank x = false :=
            List.forall_mem_cons.2 ⟨by simpa using hblank, h⟩
          rw [if_neg hopen, if_neg hclose, spaced_cons hopen hclose, ih hword, List.reverse_cons,
            List.append_assoc, List.singleton_append]

theorem tokenize_eq_words (rule : String) :
    tokenize rule = (words (spaced rule.toList)).map ofWord :=
  scan_eq_words (List.forall_mem_nil _) rule.toList

/-! ## Separators -/

/-- **Separators.**  A blank between two texts leaves the tokens of both, and a parenthesis adds
itself between them; a text that nothing cuts is a single token.  So only blank texts have no
tokens, and nothing that cuts is left in a literal.  All this is as if the text were split at its
blanks, with spaces around each parenthesis. -/
theorem tokenize_compositional (a b : String) :
    (∀ c : Char, isBlank c = true →
      tokenize (a ++ String.singleton c ++ b) = tokenize a ++ tokenize b) ∧
    tokenize (a ++ "(" ++ b) = tokenize a ++ [openParen] ++ tokenize b ∧
    tokenize (a ++ ")" ++ b) = tokenize a ++ [closeParen] ++ tokenize b ∧
    (∀ w : String, w ≠ "" → Unbroken w.toList → tokenize w = [ofWord w.toList]) ∧
    (tokenize a = [] ↔ isBlankText a = true) ∧
    (∀ text, literal text ∈ tokenize a → Unbroken text.toList) ∧
    tokenize a = (words (spaced a.toList)).map ofWord := by
  refine ⟨fun c hc => tokenize_append_blank hc a b, ?_, ?_, ?_, tokenize_eq_nil_iff, ?_,
    tokenize_eq_words a⟩
  · rw [tokenize_append_open, List.append_assoc, List.singleton_append]
  · rw [tokenize_append_close, List.append_assoc, List.singleton_append]
  · intro w hne hw
    exact tokenize_of_unbroken hw (by simpa using hne)
  · intro text htext
    exact uncut_of_mem_tokenize htext text rfl

/-- Separators side by side and at both ends, of which the pieces between them are empty: a
no-break space, a parenthesis with no space around it, and a keyword that quotes make a literal. -/
theorem tokenize_compositional_unspaced :
    let a := " (age>30)"
    let b := "AND  mode = 'AND' "
    isBlank '\u00a0' = true ∧
    tokenize (a ++ String.singleton '\u00a0' ++ b) = tokenize a ++ tokenize b ∧
    tokenize (a ++ ")" ++ b) = tokenize a ++ [closeParen] ++ tokenize b ∧
    "'AND'" ≠ "" ∧ Unbroken "'AND'".toList ∧
    tokenize "'AND'" = [ofWord "'AND'".toList] ∧ ofWord "'AND'".toList = literal "AND" ∧
    literal "age>30" ∈ tokenize a ∧ Unbroken "age>30".toList ∧
    (words (spaced a.toList)).map ofWord = [openParen, literal "age>30", closeParen] := by
  intro a b
  obtain ⟨hblank, -, hclose, hword, -, hliteral, -⟩ := tokenize_compositional a b
  have hunbroken : Unbroken "'AND'".toList := by decide
  have hmem : literal "age>30" ∈ tokenize a := by decide
  exact ⟨by decide, hblank '\u00a0' (by decide), hclose, by decide, hunbroken,
    hword "'AND'" (by decide) hunbroken, by decide, hmem, hliteral "age>30" hmem, by decide⟩

end RecordRules.Token
