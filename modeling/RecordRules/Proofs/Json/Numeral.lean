import RecordRules.Json.Number
import RecordRules.Proofs.Decimal.Layout
import RecordRules.Proofs.Json.RoundTrip

/-!
# Numerals in JSON text

A proper spelling is one lexeme, and a document on its own:

    s.Proper → lexemes? s.chars = some [.number s.numeral]                  (lexemes?_chars)

While its digits fit 64 bits none is left out.  So a numeral with a point or an exponent
has the value that its significand and scale give, and one with neither is an integer
(`ofNumeral?_scaled`, `ofNumeral?_whole`).  In particular an integer of 64 bits is read
back from its text (`readable_integer`).
-/

namespace RecordRules.Json

open Decimal Document

/-! ## Lexemes -/

theorem start_digitChar (d : Fin 10) :
    Mode.start (digitChar d) = some (.number [digitChar d], []) := by
  match d with
  | 0 | 1 | 2 | 3 | 4 | 5 | 6 | 7 | 8 | 9 => rfl

theorem isNumberChar_digitChar (d : Fin 10) : isNumberChar (digitChar d) = true := by
  rw [isNumberChar, isDigit_digitChar]
  rfl

theorem isNumberChar_writeDigits (ds : List (Fin 10)) :
    ∀ c ∈ writeDigits ds, isNumberChar c = true := by
  intro c hc
  obtain ⟨d, -, rfl⟩ := List.mem_map.1 hc
  exact isNumberChar_digitChar d

/-- After its first character a number is read to its end. -/
theorem read?_number {cs : List Char} (hcs : ∀ c ∈ cs, isNumberChar c = true) (read : List Char) :
    (Mode.number read).read? cs = (Lexeme.ofNumeral? (read.reverse ++ cs)).map fun l => [l] := by
  induction cs generalizing read with
  | nil => rw [List.append_nil]; rfl
  | cons c cs ih =>
    obtain ⟨hc, hcs⟩ := List.forall_mem_cons.1 hcs
    rw [Mode.read?_cons, Mode.step, if_pos hc, Option.bind_some, ih hcs, List.reverse_cons,
      List.append_assoc, Option.map_map]
    rfl

section
variable {s : Spelling}

theorem isNumberChar_exponentChars : ∀ c ∈ s.exponentChars, isNumberChar c = true := by
  unfold Spelling.exponentChars
  split
  · simp
  · next e _ =>
    rw [List.forall_mem_cons, List.forall_mem_append]
    refine ⟨by cases e.capital <;> rfl, ?_, isNumberChar_writeDigits _⟩
    match e.sign with
    | none => simp [writeSign]
    | some true => simp [writeSign, isNumberChar]
    | some false => simp [writeSign, isNumberChar]

theorem isNumberChar_fractionChars : ∀ c ∈ s.fractionChars, isNumberChar c = true := by
  unfold Spelling.fractionChars
  split
  · simp
  · rw [List.forall_mem_cons]
    exact ⟨rfl, isNumberChar_writeDigits _⟩

/-- A proper spelling begins with a minus or a digit, and continues with characters of numbers. -/
theorem exists_chars_eq_cons (hs : s.Proper) :
    ∃ c cs, s.chars = c :: cs ∧ Mode.start c = some (.number [c], []) ∧
      ∀ d ∈ cs, isNumberChar d = true := by
  have htail := List.forall_mem_append.2
    ⟨@isNumberChar_fractionChars s, @isNumberChar_exponentChars s⟩
  obtain ⟨d, ds, hwhole⟩ := List.exists_cons_of_ne_nil hs.whole_ne
  unfold Spelling.chars
  match hsign : s.sign with
  | some false => exact absurd hsign hs.sign_ne
  | some true =>
    exact ⟨'-', writeDigits s.whole ++ (s.fractionChars ++ s.exponentChars), rfl, rfl,
      List.forall_mem_append.2 ⟨isNumberChar_writeDigits s.whole, htail⟩⟩
  | none =>
    rw [hwhole]
    exact ⟨digitChar d, _, rfl, start_digitChar d,
      List.forall_mem_append.2 ⟨isNumberChar_writeDigits ds, htail⟩⟩

/-- The sign is taken off before the digits. -/
theorem takeMinus_chars (hs : s.Proper) :
    takeMinus s.chars =
      (s.sign.getD false, writeDigits s.whole ++ (s.fractionChars ++ s.exponentChars)) := by
  unfold Spelling.chars
  match hsign : s.sign with
  | some false => exact absurd hsign hs.sign_ne
  | some true => rfl
  | none =>
    have hfirst := noSignFirst_writeDigits hs.whole_ne (s.fractionChars ++ s.exponentChars)
    show takeMinus (writeDigits s.whole ++ (s.fractionChars ++ s.exponentChars)) = (false, _)
    generalize writeDigits s.whole ++ (s.fractionChars ++ s.exponentChars) = cs at *
    unfold takeMinus
    split
    · exact absurd rfl (hfirst _ _ rfl).2
    · rfl

theorem ofNumeral?_chars (hs : s.Proper) :
    Lexeme.ofNumeral? s.chars = some (.number s.numeral) := by
  have hwhole : ((s.whole.map Fin.val).isEmpty || ((s.whole.map Fin.val).head? = some 0 &&
      1 < (s.whole.map Fin.val).length)) = false := by
    have hne := hs.whole_ne
    have hhead := hs.head_ne
    generalize s.whole = ds at *
    match ds with
    | [d] => simp
    | d :: e :: ds =>
      have hd : d.val ≠ 0 := fun h => hhead (by simp) (congrArg some (Fin.ext h))
      simp [hd]
  have hfraction : ((s.fractionChars ++ s.exponentChars).head? = some '.' &&
      (s.fractionDigits.map Fin.val).isEmpty) = false := by
    have hne := hs.fraction_ne
    unfold Spelling.fractionChars Spelling.fractionDigits
    match hfraction : s.fraction with
    | some ds =>
      have hds : ds ≠ [] := fun h => hne (by rw [hfraction, h])
      simpa using hds
    | none =>
      have hhead : s.exponentChars.head? ≠ some '.' := by
        intro h
        obtain ⟨cs, hcs⟩ := List.head?_eq_some_iff.1 h
        rcases s.head_exponentChars hcs with h | h <;> cases h
      simpa using hhead
  unfold Lexeme.ofNumeral?
  simp only [takeMinus_chars hs, takeDigits_writeDigits s.whole s.noDigitFirst_fraction, hwhole,
    s.takeFraction_written, hfraction, s.exponent?_written]
  rfl

theorem lexemes?_chars (hs : s.Proper) : lexemes? s.chars = some [.number s.numeral] := by
  obtain ⟨c, cs, hchars, hstart, hcs⟩ := exists_chars_eq_cons hs
  have hstep : Mode.between.step c = some (.number [c], []) := hstart
  rw [lexemes?_eq, hchars, Mode.read?_cons, hstep, Option.bind_some, read?_number hcs]
  show ((Lexeme.ofNumeral? (c :: cs)).map fun l => [l]).map _ = _
  rw [← hchars, ofNumeral?_chars hs]
  rfl

theorem read?_chars (hs : s.Proper) : read? (String.ofList s.chars) = some (.number s.numeral) := by
  rw [read?, String.toList_ofList, lexemes?_chars hs]
  rfl

end

/-! ## Digits that fit -/

theorem le_foldl_digits (ds : List ℕ) (n : ℕ) : n ≤ ds.foldl (fun n d => 10 * n + d) n := by
  induction ds generalizing n with
  | nil => exact Nat.le_refl n
  | cons d ds ih => exact Nat.le_trans (by omega) (ih (10 * n + d))

/-- Digits that fit are all taken up. -/
theorem absorbWhole_eq {ds : List ℕ} {n : ℕ}
    (h : ds.foldl (fun n d => 10 * n + d) n < wordBound) :
    absorbWhole n ds = (ds.foldl (fun n d => 10 * n + d) n, 0) := by
  induction ds generalizing n with
  | nil => rfl
  | cons d ds ih =>
    rw [absorbWhole, if_pos (Nat.lt_of_le_of_lt (le_foldl_digits ds (10 * n + d)) h), ih h]
    rfl

theorem absorbFraction_eq {ds : List ℕ} {n : ℕ}
    (h : ds.foldl (fun n d => 10 * n + d) n < wordBound) :
    absorbFraction n ds = (ds.foldl (fun n d => 10 * n + d) n, ds.length) := by
  induction ds generalizing n with
  | nil => rfl
  | cons d ds ih =>
    rw [absorbFraction, if_pos (Nat.lt_of_le_of_lt (le_foldl_digits ds (10 * n + d)) h), ih h]
    rfl

/-- A numeral with a point or an exponent is its significand, scaled. -/
theorem ofNumeral?_scaled {x : Numeral} (hlt : x.significand < wordBound)
    (hform : (x.fraction.isEmpty && x.exponent.isNone) = false) :
    Number.ofNumeral? x = (scaleByTen? x.significand x.scale).map fun f =>
      .float (Binary64.ofMagnitude x.negative f.magnitude) := by
  have hsignificand : x.significand =
      x.fraction.foldl (fun n d => 10 * n + d) (x.whole.foldl (fun n d => 10 * n + d) 0) :=
    List.foldl_append
  rw [hsignificand] at hlt ⊢
  have hwhole := absorbWhole_eq (Nat.lt_of_le_of_lt (le_foldl_digits x.fraction _) hlt)
  have hscale : ((0 : ℕ) : ℤ) - (x.fraction.length : ℕ) + x.exponent.getD 0 = x.scale := by
    unfold Numeral.scale
    omega
  unfold Number.ofNumeral?
  rw [hwhole]
  dsimp only
  rw [hform, absorbFraction_eq hlt]
  dsimp only
  rw [hscale]
  rfl

theorem scaled_of_isSome {s : Spelling} (hs : s.Proper)
    (hform : s.fraction.isSome = true ∨ s.exponent.isSome = true) :
    (s.numeral.fraction.isEmpty && s.numeral.exponent.isNone) = false := by
  rcases hform with hfraction | hexponent
  · obtain ⟨ds, hds⟩ := Option.isSome_iff_exists.1 hfraction
    have hne : ds ≠ [] := fun h => hs.fraction_ne (by rw [hds, h])
    have hdigits : s.numeral.fraction = ds.map Fin.val := by
      show (s.fraction.getD []).map Fin.val = _
      rw [hds, Option.getD_some]
    simp [hdigits, hne]
  · have hwritten : s.numeral.exponent.isSome = true := by
      show (s.exponent.map _).isSome = true
      rwa [Option.isSome_map]
    simp [Option.isNone_eq_false_iff.2 hwritten]

/-- A numeral with neither is an integer. -/
theorem ofNumeral?_whole {x : Numeral} (hfraction : x.fraction = []) (hexponent : x.exponent = none)
    (hlt : x.significand < wordBound) {n : ℤ} (hn : integer? x.negative x.significand = some n) :
    Number.ofNumeral? x = some (.integer n) := by
  have hsignificand : x.significand = x.whole.foldl (fun n d => 10 * n + d) 0 := by
    unfold Numeral.significand Numeral.digits
    rw [hfraction, List.append_nil]
    rfl
  rw [hsignificand] at hlt hn
  unfold Number.ofNumeral?
  rw [absorbWhole_eq hlt, hfraction, hexponent]
  dsimp only
  rw [hn]
  rfl

/-! ## Integers -/

/-- The text of an integer is a numeral without point and exponent. -/
theorem exists_spelling_writeInt (n : ℤ) :
    ∃ s : Spelling, s.chars = writeInt n ∧ s.Proper ∧ s.numeral.negative = decide (n < 0) ∧
      s.numeral.fraction = [] ∧ s.numeral.exponent = none ∧ s.numeral.significand = n.natAbs := by
  obtain ⟨ds, hdigits, hvalue, hne, hhead⟩ := exists_toDigits n.natAbs
  have hlong : 1 < ds.length → ds.head? ≠ some 0 := by
    intro hlong
    apply hhead
    by_contra hzero
    rw [Nat.eq_zero_of_not_pos hzero, Nat.toDigits_zero] at hdigits
    have := congrArg List.length hdigits
    rw [length_writeDigits, List.length_singleton] at this
    omega
  refine ⟨⟨if n < 0 then some true else none, ds, none, none, .inl hne⟩, ?_,
    ⟨?_, hne, hlong, by simp⟩, ?_, rfl, rfl, ?_⟩
  · unfold writeInt
    rw [hdigits]
    split <;> simp [Spelling.chars, Spelling.fractionChars, Spelling.exponentChars, writeSign]
  · show (if n < 0 then some true else none) ≠ some false
    split <;> simp
  · show (if n < 0 then some true else none).getD false = _
    split <;> simp [*]
  · rw [Spelling.significand_numeral, ← hvalue]
    exact congrArg digitsValue (List.append_nil ds)

theorem integer?_of_bounds {n : ℤ} (hlow : -2 ^ 63 ≤ n) :
    integer? (n < 0) n.natAbs = some n := by
  unfold integer? Binary64.signBit
  split
  · next hneg =>
    have : n < 0 := of_decide_eq_true hneg
    rw [if_pos (by simp; omega)]
    congr 1
    omega
  · next hneg =>
    have : ¬ n < 0 := of_decide_eq_false (by simpa using hneg)
    congr 1
    omega

/-- An integer of 64 bits is read back from its text. -/
theorem readable_integer (n : Int64) : (Number.integer n.toInt).Readable := by
  have hlow := Int64.le_toInt n
  have hhigh := Int64.toInt_lt n
  obtain ⟨s, hchars, hs, hnegative, hfraction, hexponent, hsignificand⟩ :=
    exists_spelling_writeInt n.toInt
  have hvalue : Number.ofNumeral? s.numeral = some (.integer n.toInt) := by
    apply ofNumeral?_whole hfraction hexponent
    · rw [hsignificand]
      unfold wordBound
      omega
    · rw [hnegative, hsignificand]
      exact integer?_of_bounds hlow
  rw [Number.Readable, Number.write, ← hchars, parse?, read?_chars hs]
  show (Number.ofNumeral? s.numeral).map Json.number = _
  rw [hvalue]
  rfl

end RecordRules.Json
