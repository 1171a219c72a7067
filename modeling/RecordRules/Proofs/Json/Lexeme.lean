import RecordRules.Json.Value
import RecordRules.Json.Writer

/-!
# Lexemes of composed texts

Reading by plain recursion on the text (`Mode.read?`) gives the lexemes that the
automaton finds, so a text can be taken apart from its front.  A mark (a bracket,
a colon or a comma) ends whatever stands before it:

    lexemes? cs = some ls → lexemes? (cs ++ c :: ds) = (lexemes? ds).map (ls ++ l :: ·)
    lexemes? (writeString s ++ rest) = (lexemes? rest).map (string (parts s) :: ·)

A written string holds one part for each character, and those parts are the
characters again (`characters?_partsOf`).
-/

namespace RecordRules.Json

/-! ## Reading from the front -/

/-- The lexemes of a text that is read from a mode on. -/
def Mode.read? : Mode → List Char → Option (List Lexeme)
  | mode, [] => mode.finish
  | mode, c :: cs => do
    let (mode, ls) ← mode.step c
    let rest ← read? mode cs
    return ls ++ rest

theorem Mode.read?_cons (mode : Mode) (c : Char) (cs : List Char) :
    mode.read? (c :: cs) =
      (mode.step c).bind fun p => (p.1.read? cs).map (p.2 ++ ·) := by
  rw [Mode.read?]
  rcases mode.step c with _ | ⟨next, ls⟩
  · rfl
  · show (next.read? cs).bind _ = (next.read? cs).map _
    cases next.read? cs <;> rfl

/-- The automaton, with what it has found, against reading from the front. -/
theorem foldlM_step_eq (mode : Mode) (text : List Char) (found : List Lexeme) :
    (do
      let lexer ← text.foldlM Lexer.step ⟨mode, found⟩
      let last ← lexer.mode.finish
      return (last.reverse ++ lexer.found).reverse) =
      (mode.read? text).map (found.reverse ++ ·) := by
  induction text generalizing mode found with
  | nil =>
    show (mode.finish.bind fun last => some (last.reverse ++ found).reverse) =
      mode.finish.map (found.reverse ++ ·)
    cases mode.finish <;> simp
  | cons c cs ih =>
    rw [Mode.read?_cons, List.foldlM_cons]
    simp only [Lexer.step]
    rcases mode.step c with _ | ⟨next, ls⟩
    · rfl
    · have hnext := ih next (ls.reverse ++ found)
      simp only [Option.pure_def, Option.bind_eq_bind, Option.bind_some] at hnext ⊢
      rw [hnext]
      cases next.read? cs <;> simp

theorem lexemes?_eq (text : List Char) : lexemes? text = Mode.between.read? text := by
  have h := foldlM_step_eq .between text []
  simp only [List.reverse_nil, List.nil_append, Option.map_id'] at h
  rw [lexemes?, h]

/-! ## Marks -/

/-- A character that is a lexeme of its own and belongs to no word and no number. -/
structure Mark (c : Char) (l : Lexeme) : Prop where
  start : Mode.start c = some (.between, [l])
  not_lower : c.isLower = false
  not_number : isNumberChar c = false

theorem mark_openObject : Mark '{' .openObject := ⟨rfl, rfl, rfl⟩

theorem mark_closeObject : Mark '}' .closeObject := ⟨rfl, rfl, rfl⟩

theorem mark_openArray : Mark '[' .openArray := ⟨rfl, rfl, rfl⟩

theorem mark_closeArray : Mark ']' .closeArray := ⟨rfl, rfl, rfl⟩

theorem mark_colon : Mark ':' .colon := ⟨rfl, rfl, rfl⟩

theorem mark_comma : Mark ',' .comma := ⟨rfl, rfl, rfl⟩

/-- Where a text may end, a mark ends it too. -/
theorem Mark.step {c : Char} {l : Lexeme} (hc : Mark c l) {mode : Mode} {last : List Lexeme}
    (h : mode.finish = some last) : mode.step c = some (.between, last ++ [l]) := by
  cases mode with
  | between =>
    obtain rfl : [] = last := Option.some.inj h
    exact hc.start
  | word read =>
    obtain ⟨word, hword, rfl⟩ := Option.map_eq_some_iff.1 h
    rw [Mode.step, if_neg (by simp [hc.not_lower]), hword, Mode.startAfter, hc.start]
    rfl
  | number read =>
    obtain ⟨number, hnumber, rfl⟩ := Option.map_eq_some_iff.1 h
    rw [Mode.step, if_neg (by simp [hc.not_number]), hnumber, Mode.startAfter, hc.start]
    rfl
  | string | escape | unit => cases h

/-- A text that is read on its own is read before a mark. -/
theorem Mode.read?_append_mark {c : Char} {l : Lexeme} (hc : Mark c l) (mode : Mode)
    {cs : List Char} {ls : List Lexeme} (h : mode.read? cs = some ls) (ds : List Char) :
    mode.read? (cs ++ c :: ds) = (Mode.between.read? ds).map (ls ++ l :: ·) := by
  induction cs generalizing mode ls with
  | nil =>
    rw [List.nil_append, Mode.read?_cons, hc.step h, Option.bind_some]
    simp only [List.append_assoc, List.singleton_append]
  | cons d cs ih =>
    rw [Mode.read?_cons] at h
    obtain ⟨⟨next, early⟩, hstep, hrest⟩ := Option.bind_eq_some_iff.1 h
    obtain ⟨late, hlate, rfl⟩ := Option.map_eq_some_iff.1 hrest
    rw [List.cons_append, Mode.read?_cons, hstep, Option.bind_some, ih next hlate, Option.map_map]
    simp only [Function.comp_def, List.append_assoc]

theorem lexemes?_append_mark {c : Char} {l : Lexeme} (hc : Mark c l) {cs : List Char}
    {ls : List Lexeme} (h : lexemes? cs = some ls) (ds : List Char) :
    lexemes? (cs ++ c :: ds) = (lexemes? ds).map (ls ++ l :: ·) := by
  rw [lexemes?_eq] at h ⊢
  rw [lexemes?_eq, Mode.read?_append_mark hc _ h]

theorem lexemes?_mark {c : Char} {l : Lexeme} (hc : Mark c l) (ds : List Char) :
    lexemes? (c :: ds) = (lexemes? ds).map (l :: ·) := @lexemes?_append_mark _ _ hc [] _ rfl ds

/-! ## Delimited texts -/

/-- Nothing, or a text that begins with a mark. -/
def Delimiting (rest : List Char) : Prop := rest = [] ∨ ∃ c l ds, Mark c l ∧ rest = c :: ds

theorem delimiting_nil : Delimiting [] := .inl rfl

theorem Mark.delimiting {c : Char} {l : Lexeme} (hc : Mark c l) (ds : List Char) :
    Delimiting (c :: ds) := .inr ⟨c, l, ds, hc, rfl⟩

/-- A text that is read on its own is read before what begins with a mark. -/
theorem lexemes?_append {cs rest : List Char} {ls : List Lexeme} (h : lexemes? cs = some ls)
    (hrest : Delimiting rest) : lexemes? (cs ++ rest) = (lexemes? rest).map (ls ++ ·) := by
  rcases hrest with rfl | ⟨c, l, ds, hc, rfl⟩
  · rw [List.append_nil, h]
    show some ls = some (ls ++ [])
    rw [List.append_nil]
  · rw [lexemes?_append_mark hc h, lexemes?_mark hc, Option.map_map]
    rfl

/-! ## Strings -/

/-- The part of a string that the writer makes of a character. -/
def partOf (c : Char) : StringPart :=
  if c.toNat < 0x20 && !(c.toNat ∈ [0x08, 0x09, 0x0a, 0x0c, 0x0d]) then .unit c.toNat else .char c

/-- The parts of a string that is written. -/
def partsOf (s : String) : List StringPart := s.toList.map partOf

theorem hexValue?_hexDigit : ∀ n < 16, hexValue? (hexDigit n) = some n := by decide

/-- A character that ends no lexeme. -/
theorem Mode.read?_quiet {mode next : Mode} {c : Char} (h : mode.step c = some (next, []))
    (cs : List Char) : mode.read? (c :: cs) = next.read? cs := by
  rw [Mode.read?_cons, h, Option.bind_some]
  exact Option.map_id'

/-- A character that stands in a string as it is. -/
theorem Mode.read?_plain {c : Char} (hquote : c ≠ '"') (hback : c ≠ '\\') (hc : 0x20 ≤ c.toNat)
    (read : List StringPart) (rest : List Char) :
    (string read).read? (c :: rest) = (string (.char c :: read)).read? rest := by
  apply Mode.read?_quiet
  rw [Mode.step, if_neg hquote, if_neg hback, if_neg (by omega)]

/-- A character that a backslash and a letter stand for. -/
theorem Mode.read?_escaped {c d : Char} (hu : d ≠ 'u') (hd : escaped? d = some c)
    (read : List StringPart) (rest : List Char) :
    (string read).read? ('\\' :: d :: rest) = (string (.char c :: read)).read? rest := by
  have hback : (string read).step '\\' = some (escape read, []) := rfl
  rw [Mode.read?_quiet hback]
  apply Mode.read?_quiet
  rw [Mode.step, if_neg hu, hd]
  rfl

/-- A code unit below 256, in hexadecimal. -/
theorem Mode.read?_unit {n : Nat} (hn : n < 256) (read : List StringPart) (rest : List Char) :
    (string read).read?
        ('\\' :: 'u' :: '0' :: '0' :: hexDigit (n / 16) :: hexDigit (n % 16) :: rest) =
      (string (.unit n :: read)).read? rest := by
  have hback : (string read).step '\\' = some (escape read, []) := rfl
  have hu : (escape read).step 'u' = some (unit read 0 3, []) := rfl
  have hzero : ∀ missing, (unit read 0 (missing + 1)).step '0' = some (unit read 0 missing, []) :=
    fun _ => rfl
  have hhigh : (unit read 0 1).step (hexDigit (n / 16)) = some (unit read (n / 16) 0, []) := by
    rw [Mode.step, hexValue?_hexDigit _ (by omega)]
    show some (unit read (16 * 0 + n / 16) 0, []) = _
    rw [show 16 * 0 + n / 16 = n / 16 by omega]
  have hlow : (unit read (n / 16) 0).step (hexDigit (n % 16)) =
      some (string (.unit n :: read), []) := by
    rw [Mode.step, hexValue?_hexDigit _ (by omega)]
    show some (string (.unit (16 * (n / 16) + n % 16) :: read), []) = _
    rw [show 16 * (n / 16) + n % 16 = n by omega]
  rw [Mode.read?_quiet hback, Mode.read?_quiet hu, Mode.read?_quiet (hzero 2),
    Mode.read?_quiet (hzero 1), Mode.read?_quiet hhigh, Mode.read?_quiet hlow]

theorem Mode.read?_writeChar (c : Char) (read : List StringPart) (rest : List Char) :
    (string read).read? (writeChar c ++ rest) = (string (partOf c :: read)).read? rest := by
  unfold writeChar
  split
  · next h => subst h; exact read?_escaped (by decide) rfl read rest
  split
  · next h => subst h; exact read?_escaped (by decide) rfl read rest
  split
  · next h =>
    obtain rfl : c = '\x08' := Char.toNat_inj.1 h
    exact read?_escaped (by decide) rfl read rest
  split
  · next h =>
    obtain rfl : c = '\t' := Char.toNat_inj.1 h
    exact read?_escaped (by decide) rfl read rest
  split
  · next h =>
    obtain rfl : c = '\n' := Char.toNat_inj.1 h
    exact read?_escaped (by decide) rfl read rest
  split
  · next h =>
    obtain rfl : c = '\x0c' := Char.toNat_inj.1 h
    exact read?_escaped (by decide) rfl read rest
  split
  · next h =>
    obtain rfl : c = '\r' := Char.toNat_inj.1 h
    exact read?_escaped (by decide) rfl read rest
  split
  · next hb ht hn hf hr hc =>
    have hpart : partOf c = .unit c.toNat := by
      simp [partOf, hc, hb, ht, hn, hf, hr]
    rw [hpart]
    exact read?_unit (by omega) read rest
  · next hquote hback _ _ _ _ _ hc =>
    have hpart : partOf c = .char c := by
      simp [partOf, hc]
    rw [hpart]
    exact read?_plain hquote hback (by omega) read rest

theorem Mode.read?_flatMap_writeChar (cs : List Char) (read : List StringPart)
    (rest : List Char) :
    (string read).read? (cs.flatMap writeChar ++ rest) =
      (string ((cs.map partOf).reverse ++ read)).read? rest := by
  induction cs generalizing read with
  | nil => rfl
  | cons c cs ih =>
    rw [List.flatMap_cons, List.append_assoc, Mode.read?_writeChar, ih]
    simp

/-- A written string is one lexeme, whatever comes after it. -/
theorem lexemes?_writeString (s : String) (rest : List Char) :
    lexemes? (writeString s ++ rest) = (lexemes? rest).map (.string (partsOf s) :: ·) := by
  have hopen : Mode.between.step '"' = some (.string [], []) := rfl
  have hclose : (Mode.string (partsOf s).reverse).step '"' =
      some (.between, [.string (partsOf s)]) := by
    show some (Mode.between, [Lexeme.string (partsOf s).reverse.reverse]) = _
    rw [List.reverse_reverse]
  rw [lexemes?_eq, lexemes?_eq, writeString, List.cons_append, List.cons_append,
    List.append_assoc, Mode.read?_quiet hopen, Mode.read?_flatMap_writeChar, List.append_nil,
    List.singleton_append, Mode.read?_cons]
  rw [show (s.toList.map partOf).reverse = (partsOf s).reverse from rfl, hclose]
  rfl

theorem characters?_cons_partOf (c : Char) (parts : List StringPart) :
    characters? (partOf c :: parts) = (characters? parts).map (c :: ·) := by
  by_cases h : c.toNat < 0x20 && !(c.toNat ∈ [0x08, 0x09, 0x0a, 0x0c, 0x0d])
  · rw [partOf, if_pos h]
    have hc : c.toNat < 0xd800 || 0xdfff < c.toNat := by
      simp only [Bool.and_eq_true, decide_eq_true_eq] at h
      simp only [Bool.or_eq_true, decide_eq_true_eq]
      omega
    rcases parts with _ | ⟨_ | low, parts⟩
    all_goals simp only [characters?, if_pos hc, Char.ofNat_toNat]
  · rw [partOf, if_neg h, characters?]

/-- The parts of a written string are its characters. -/
theorem characters?_partsOf (s : String) : characters? (partsOf s) = some s.toList := by
  rw [partsOf]
  induction s.toList with
  | nil => rfl
  | cons c cs ih => rw [List.map_cons, characters?_cons_partOf, ih]; rfl

theorem string?_partsOf (s : String) : string? (partsOf s) = some s := by
  rw [string?, characters?_partsOf]
  exact congrArg some String.ofList_toList

end RecordRules.Json
