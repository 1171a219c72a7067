import RecordRules.Decimal.Numeral
import RecordRules.Proofs.Decimal.Nearest

/-!
# Decimal numerals as they are written

A spelling is a choice of everything that may be written in a decimal numeral: a sign or
none, digits, a point or none with digits after it, and an exponent or none.  Its text and
its value are given piece by piece, without reading anything.

    literal? s.text = some x, where x is the number nearest to s.value    (literal?_spelling)
-/

namespace RecordRules.Decimal

/-- The number that digits write, the highest first. -/
def digitsValue (ds : List (Fin 10)) : ℕ := Nat.ofDigits 10 (ds.reverse.map Fin.val)

/-- A written exponent: a letter in either case, a sign or none, and digits. -/
structure Spelling.Exponent where
  capital : Bool
  sign : Option Bool
  digits : List (Fin 10)
  digits_ne : digits ≠ []

/-- A written decimal numeral.  A sign is a minus or not; there is a digit beside the point. -/
structure Spelling where
  sign : Option Bool
  whole : List (Fin 10)
  fraction : Option (List (Fin 10))
  exponent : Option Spelling.Exponent
  digits_ne : whole ≠ [] ∨ fraction.getD [] ≠ []

/-! ## Texts -/

/-- The character of a digit. -/
def digitChar (d : Fin 10) : Char := Nat.digitChar d.val

/-- The digits as characters. -/
def writeDigits (ds : List (Fin 10)) : List Char := ds.map digitChar

/-- A sign that is written, or nothing. -/
def writeSign : Option Bool → List Char
  | none => []
  | some false => ['+']
  | some true => ['-']

namespace Spelling

/-- The point with its digits, or nothing. -/
def fractionChars (s : Spelling) : List Char :=
  match s.fraction with
  | none => []
  | some ds => '.' :: writeDigits ds

/-- The exponent, or nothing. -/
def exponentChars (s : Spelling) : List Char :=
  match s.exponent with
  | none => []
  | some e => (if e.capital then 'E' else 'e') :: (writeSign e.sign ++ writeDigits e.digits)

/-- The characters of the numeral. -/
def chars (s : Spelling) : List Char :=
  writeSign s.sign ++ (writeDigits s.whole ++ (s.fractionChars ++ s.exponentChars))

/-- The text of the numeral. -/
def text (s : Spelling) : String := String.ofList s.chars

/-! ## Values -/

/-- The digits after the point, which may be none. -/
def fractionDigits (s : Spelling) : List (Fin 10) := s.fraction.getD []

/-- The power of ten that the exponent writes. -/
def exponentValue (s : Spelling) : ℤ :=
  match s.exponent with
  | none => 0
  | some e => if e.sign = some true then -(digitsValue e.digits : ℤ) else digitsValue e.digits

/-- The rational number that the numeral writes. -/
def value (s : Spelling) : ℚ :=
  (if s.sign = some true then -1 else 1) *
    (digitsValue s.whole + digitsValue s.fractionDigits / 10 ^ s.fractionDigits.length) *
    10 ^ s.exponentValue

end Spelling

/-! ## Reading digits -/

theorem isDigit_digitChar (d : Fin 10) : (digitChar d).isDigit = true := by
  revert d; decide

theorem digitValue_digitChar (d : Fin 10) : digitValue (digitChar d) = d.val := by
  revert d; decide

theorem isBlank_digitChar (d : Fin 10) : Text.isBlank (digitChar d) = false := by
  revert d; decide

/-- The text after digits does not carry them on. -/
def NoDigitFirst (rest : List Char) : Prop := ∀ c cs, rest = c :: cs → c.isDigit = false

theorem takeDigits_writeDigits (ds : List (Fin 10)) {rest : List Char} (hrest : NoDigitFirst rest) :
    takeDigits (writeDigits ds ++ rest) = (ds.map Fin.val, rest) := by
  have hall : ∀ c ∈ writeDigits ds, c.isDigit = true := by
    intro c hc
    obtain ⟨d, -, rfl⟩ := List.mem_map.1 hc
    exact isDigit_digitChar d
  have htake : rest.takeWhile Char.isDigit = [] ∧ rest.dropWhile Char.isDigit = rest := by
    cases rest with
    | nil => exact ⟨rfl, rfl⟩
    | cons c cs => simp [hrest c cs rfl]
  unfold takeDigits
  rw [List.takeWhile_append_of_pos hall, List.dropWhile_append_of_pos hall, htake.1, htake.2,
    List.append_nil, writeDigits, List.map_map]
  congr 1
  exact List.map_congr_left fun d _ => digitValue_digitChar d

theorem ofDigits_map_val (ds : List (Fin 10)) : ofDigits (ds.map Fin.val) = digitsValue ds := by
  rw [ofDigits_eq, digitsValue, List.map_reverse]

theorem digitsValue_append (ds es : List (Fin 10)) :
    digitsValue (ds ++ es) = digitsValue ds * 10 ^ es.length + digitsValue es := by
  unfold digitsValue
  rw [List.reverse_append, List.map_append, Nat.ofDigits_append]
  simp [Nat.add_comm, Nat.mul_comm]

/-- A text that starts with no sign of its own. -/
def NoSignFirst (rest : List Char) : Prop := ∀ c cs, rest = c :: cs → c ≠ '+' ∧ c ≠ '-'

theorem takeSign_writeSign (sign : Option Bool) {rest : List Char} (hrest : NoSignFirst rest) :
    takeSign (writeSign sign ++ rest) = (sign.getD false, rest) := by
  match sign with
  | some true => rfl
  | some false => rfl
  | none =>
    show takeSign rest = (false, rest)
    unfold takeSign
    split
    · next cs => exact absurd rfl (hrest _ cs rfl).1
    · next cs => exact absurd rfl (hrest _ cs rfl).2
    · rfl

theorem noSignFirst_writeDigits {ds : List (Fin 10)} (hds : ds ≠ []) (rest : List Char) :
    NoSignFirst (writeDigits ds ++ rest) := by
  obtain ⟨d, ds, rfl⟩ := List.exists_cons_of_ne_nil hds
  intro c cs h
  obtain ⟨rfl, -⟩ := List.cons.inj h
  have hdigit := isDigit_digitChar d
  constructor
  · intro hplus
    rw [hplus] at hdigit
    simp at hdigit
  · intro hminus
    rw [hminus] at hdigit
    simp at hdigit

/-! ## Reading numerals -/

theorem signedInteger?_written (sign : Option Bool) {ds : List (Fin 10)} (hds : ds ≠ []) :
    signedInteger? (writeSign sign ++ writeDigits ds) =
      some (if sign = some true then -(digitsValue ds : ℤ) else digitsValue ds) := by
  have hsign := takeSign_writeSign sign (noSignFirst_writeDigits hds [])
  have hdigits := @takeDigits_writeDigits ds [] (by simp [NoDigitFirst])
  rw [List.append_nil] at hsign hdigits
  obtain ⟨d, ds, rfl⟩ := List.exists_cons_of_ne_nil hds
  unfold signedInteger?
  rw [hsign]
  dsimp only
  rw [hdigits, ← ofDigits_map_val]
  match sign with
  | some true | some false | none => rfl

namespace Spelling

variable (s : Spelling)

theorem exponent?_written :
    exponent? s.exponentChars = some (s.exponent.map fun _ => s.exponentValue) := by
  unfold exponentChars exponentValue
  cases s.exponent with
  | none => rfl
  | some e =>
    have hletter : ((if e.capital then 'E' else 'e') = 'e' ||
        (if e.capital then 'E' else 'e') = 'E') = true := by
      cases e.capital <;> rfl
    simp only [exponent?, hletter, signedInteger?_written e.sign e.digits_ne]
    rfl

/-- A written exponent starts with its letter. -/
theorem head_exponentChars {c : Char} {cs : List Char} (h : s.exponentChars = c :: cs) :
    c = 'e' ∨ c = 'E' := by
  unfold exponentChars at h
  split at h
  · cases h
  · obtain ⟨rfl, -⟩ := List.cons.inj h
    split
    · exact .inr rfl
    · exact .inl rfl

theorem noDigitFirst_exponent : NoDigitFirst s.exponentChars := by
  intro c cs h
  rcases s.head_exponentChars h with rfl | rfl <;> decide

theorem noDigitFirst_fraction : NoDigitFirst (s.fractionChars ++ s.exponentChars) := by
  unfold fractionChars
  cases s.fraction with
  | none => exact s.noDigitFirst_exponent
  | some ds =>
    intro c cs h
    obtain ⟨rfl, -⟩ := List.cons.inj h
    decide

theorem takeFraction_written :
    takeFraction (s.fractionChars ++ s.exponentChars) =
      (s.fractionDigits.map Fin.val, s.exponentChars) := by
  unfold fractionChars fractionDigits
  cases s.fraction with
  | some ds => exact takeDigits_writeDigits ds s.noDigitFirst_exponent
  | none =>
    show takeFraction s.exponentChars = ([], s.exponentChars)
    unfold takeFraction
    split
    · next cs h =>
      rcases s.head_exponentChars h with h | h <;> cases h
    · rfl

/-- The numeral that is read. -/
def numeral : Numeral :=
  ⟨s.sign.getD false, s.whole.map Fin.val, s.fractionDigits.map Fin.val,
    s.exponent.map fun _ => s.exponentValue⟩

theorem numeral?_written (negative : Bool) :
    numeral? negative (writeDigits s.whole ++ (s.fractionChars ++ s.exponentChars)) =
      some { s.numeral with negative := negative } := by
  have hdigits :
      ((s.whole.map Fin.val).isEmpty && (s.fractionDigits.map Fin.val).isEmpty) = false := by
    rcases s.digits_ne with h | h
    · simp [h]
    · simp [fractionDigits, h]
  unfold numeral?
  simp only [takeDigits_writeDigits s.whole s.noDigitFirst_fraction, s.takeFraction_written,
    hdigits, s.exponent?_written]
  rfl

theorem noSignFirst_body :
    NoSignFirst (writeDigits s.whole ++ (s.fractionChars ++ s.exponentChars)) := by
  by_cases hwhole : s.whole = []
  · have hfraction : s.fraction.getD [] ≠ [] := s.digits_ne.resolve_left (by simpa using hwhole)
    unfold fractionChars
    rw [hwhole]
    cases hf : s.fraction with
    | none => simp [hf] at hfraction
    | some ds =>
      intro c cs h
      obtain ⟨rfl, -⟩ := List.cons.inj h
      decide
  · exact noSignFirst_writeDigits hwhole _

/-! ## The literal -/

theorem isBlank_writeSign (sign : Option Bool) : ∀ c ∈ writeSign sign, Text.isBlank c = false := by
  intro c hc
  match sign with
  | none => cases hc
  | some true =>
    obtain rfl : c = '-' := List.mem_singleton.1 hc
    rfl
  | some false =>
    obtain rfl : c = '+' := List.mem_singleton.1 hc
    rfl

theorem isBlank_writeDigits (ds : List (Fin 10)) :
    ∀ c ∈ writeDigits ds, Text.isBlank c = false := by
  intro c hc
  obtain ⟨d, -, rfl⟩ := List.mem_map.1 hc
  exact isBlank_digitChar d

/-- Nothing in a numeral is blank. -/
theorem isBlank_chars : ∀ c ∈ s.chars, Text.isBlank c = false := by
  intro c hc
  unfold chars at hc
  rcases List.mem_append.1 hc with hc | hc
  · exact isBlank_writeSign _ c hc
  · rcases List.mem_append.1 hc with hc | hc
    · exact isBlank_writeDigits _ c hc
    · rcases List.mem_append.1 hc with hc | hc
      · unfold fractionChars at hc
        split at hc
        · cases hc
        · rcases List.mem_cons.1 hc with rfl | hc
          · decide
          · exact isBlank_writeDigits _ c hc
      · unfold exponentChars at hc
        split at hc
        · cases hc
        · rcases List.mem_cons.1 hc with rfl | hc
          · split <;> decide
          · rcases List.mem_append.1 hc with hc | hc
            · exact isBlank_writeSign _ c hc
            · exact isBlank_writeDigits _ c hc

theorem trim_of_not_blank {cs : List Char} (h : ∀ c ∈ cs, Text.isBlank c = false) :
    Text.trim cs = cs := by
  have hdrop : ∀ cs : List Char, (∀ c ∈ cs, Text.isBlank c = false) →
      cs.dropWhile Text.isBlank = cs := by
    intro cs hcs
    cases cs with
    | nil => rfl
    | cons c cs => simp [hcs c List.mem_cons_self]
  unfold Text.trim
  rw [hdrop cs h, hdrop cs.reverse (by simpa using h), List.reverse_reverse]

theorem literal?_text : literal? s.text = some s.numeral.toBinary64 := by
  unfold literal? text
  rw [String.toList_ofList, trim_of_not_blank s.isBlank_chars, chars,
    takeSign_writeSign s.sign s.noSignFirst_body]
  simp only [s.numeral?_written]
  rfl

/-! ## The value that is read -/

theorem significand_numeral :
    s.numeral.significand = digitsValue (s.whole ++ s.fractionDigits) := by
  rw [← ofDigits_map_val, List.map_append]
  rfl

theorem scale_numeral : s.numeral.scale = s.exponentValue - s.fractionDigits.length := by
  have hexponent : s.numeral.exponent.getD 0 = s.exponentValue := by
    unfold numeral exponentValue
    cases s.exponent <;> rfl
  unfold Numeral.scale
  rw [hexponent]
  simp [numeral]

theorem value_numeral : s.numeral.value = s.value := by
  have hsign : Binary64.signFactor s.numeral.negative = if s.sign = some true then -1 else 1 := by
    unfold numeral Binary64.signFactor
    match s.sign with
    | some true | some false | none => rfl
  unfold Numeral.value value
  rw [hsign, significand_numeral, digitsValue_append, scale_numeral, zpow_sub₀ (by norm_num),
    zpow_natCast]
  push_cast
  field_simp

theorem numeral_digits_lt : ∀ d ∈ s.numeral.digits, d < 10 := by
  intro d hd
  have hd' : d ∈ (s.whole ++ s.fractionDigits).map Fin.val := by
    rw [List.map_append]
    exact hd
  obtain ⟨e, -, rfl⟩ := List.mem_map.1 hd'
  exact e.isLt

/-- A written numeral is a literal, and reads as the number nearest to its value. -/
theorem literal?_spelling :
    ∃ x : Binary64, literal? s.text = some x ∧ x.IsNearest s.value := by
  refine ⟨s.numeral.toBinary64, s.literal?_text, ?_⟩
  rw [← s.value_numeral]
  exact Numeral.isNearest_toBinary64 s.numeral_digits_lt

end Spelling

end RecordRules.Decimal
