import RecordRules.Decimal.Shortest
import RecordRules.Proofs.Decimal.Spelling

/-!
# Written numbers are numerals

The text of a number in the layout of JSON is a numeral, in the narrower form that JSON
has for them (`Spelling.Proper`).  It has a point or an exponent, and writes the shortest
decimal of the number, which the tail of a whole number only extends by zeros:

    Layout.json.text x = s.chars, s.numeral = c · 10^k at the scale e - k    (exists_spelling_text)

where `c` and `e` are significand and exponent of the shortest decimal.
-/

namespace RecordRules.Decimal

/-- A numeral without a plus before it, with digits on both sides of a point, and without a
zero at the head of other digits. -/
structure Spelling.Proper (s : Spelling) : Prop where
  sign_ne : s.sign ≠ some false
  whole_ne : s.whole ≠ []
  head_ne : 1 < s.whole.length → s.whole.head? ≠ some 0
  fraction_ne : s.fraction ≠ some []

/-- The digits of a numeral, and where they stand: those of a decimal, with zeros after them. -/
def Spelling.Extends (s : Spelling) (significand : ℕ) (exponent : ℤ) : Prop :=
  ∃ zeros : ℕ, s.numeral.significand = significand * 10 ^ zeros ∧
    s.numeral.scale = exponent - zeros ∧ (zeros = 0 ∨ s.numeral.scale = -1)

/-! ## Digits -/

theorem length_writeDigits (ds : List (Fin 10)) : (writeDigits ds).length = ds.length :=
  List.length_map _

theorem writeDigits_append (ds es : List (Fin 10)) :
    writeDigits (ds ++ es) = writeDigits ds ++ writeDigits es :=
  List.map_append

theorem writeDigits_replicate (k : ℕ) : writeDigits (List.replicate k 0) = List.replicate k '0' :=
  List.map_replicate

theorem digitsValue_singleton (d : Fin 10) : digitsValue [d] = d := by
  simp [digitsValue]

theorem digitsValue_replicate (k : ℕ) : digitsValue (List.replicate k 0) = 0 := by
  induction k with
  | zero => rfl
  | succ k ih =>
    rw [List.replicate_succ', digitsValue_append, ih, digitsValue_singleton]
    simp

theorem digitsValue_lt (ds : List (Fin 10)) : digitsValue ds < 10 ^ ds.length := by
  rw [← ofDigits_map_val, ← List.length_map Fin.val]
  apply ofDigits_lt
  intro d hd
  obtain ⟨e, -, rfl⟩ := List.mem_map.1 hd
  exact e.isLt

/-- The digits of a number, without a zero at their head. -/
theorem exists_toDigits (n : ℕ) :
    ∃ ds : List (Fin 10), Nat.toDigits 10 n = writeDigits ds ∧ digitsValue ds = n ∧ ds ≠ [] ∧
      (0 < n → ds.head? ≠ some 0) := by
  induction n using Nat.strongRecOn with
  | ind n ih =>
    rcases Nat.lt_or_ge n 10 with hlt | hge
    · refine ⟨[⟨n, hlt⟩], Nat.toDigits_of_lt_base hlt, digitsValue_singleton _, by simp, ?_⟩
      intro hn h
      have := congrArg Fin.val (Option.some.inj h)
      simp at this
      omega
    · obtain ⟨ds, hdigits, hvalue, hne, hhead⟩ := ih (n / 10) (by omega)
      have hlast : n % 10 < 10 := Nat.mod_lt n (by norm_num)
      refine ⟨ds ++ [⟨n % 10, hlast⟩], ?_, ?_, by simp, fun _ => ?_⟩
      · rw [Nat.toDigits_of_base_le (by norm_num) hge, hdigits, writeDigits_append]
        rfl
      · rw [digitsValue_append, hvalue, digitsValue_singleton]
        simp
        omega
      · rw [List.head?_append_of_ne_nil _ hne]
        exact hhead (by omega)

/-! ## Digits in place -/

/-- A numeral with digits on both sides of a point. -/
def Spelling.pointed (whole fraction : List (Fin 10)) (hwhole : whole ≠ []) : Spelling :=
  ⟨none, whole, some fraction, none, .inl hwhole⟩

section
variable {whole fraction : List (Fin 10)} (hwhole : whole ≠ [])

theorem chars_pointed : (Spelling.pointed whole fraction hwhole).chars =
    writeDigits whole ++ '.' :: writeDigits fraction :=
  congrArg (writeDigits whole ++ '.' :: ·) (List.append_nil _)

theorem proper_pointed (hhead : 1 < whole.length → whole.head? ≠ some 0)
    (hfraction : fraction ≠ []) : (Spelling.pointed whole fraction hwhole).Proper :=
  ⟨by simp [Spelling.pointed], hwhole, hhead, by simpa [Spelling.pointed] using hfraction⟩

theorem significand_pointed : (Spelling.pointed whole fraction hwhole).numeral.significand =
    digitsValue (whole ++ fraction) :=
  Spelling.significand_numeral _

theorem scale_pointed :
    (Spelling.pointed whole fraction hwhole).numeral.scale = -fraction.length := by
  rw [Spelling.scale_numeral, ← zero_sub]
  rfl

end

section
variable {ds : List (Fin 10)} (hds : ds ≠ [])
include hds

/-- Digits in place stand after a point and zeros, before zeros and a point, or around it. -/
theorem exists_digitsInPlace {e : ℤ} (hhead : ds.head? = some 0 → ds.length = 1 ∧ e = 0) :
    ∃ s : Spelling, s.chars = digitsInPlace ".0".toList (writeDigits ds) (e + ds.length - 1) ∧
      s.Proper ∧ s.sign = none ∧ s.fraction.isSome = true ∧ s.Extends (digitsValue ds) e := by
  have hlength : 0 < ds.length := List.length_pos_iff.2 hds
  unfold digitsInPlace
  dsimp only
  rw [length_writeDigits]
  split
  · next htop =>
    generalize hk : (-(e + ds.length - 1) - 1).toNat = k
    have hwhole : [(0 : Fin 10)] ≠ [] := List.cons_ne_nil _ _
    refine ⟨.pointed [0] (List.replicate k 0 ++ ds) hwhole, ?_,
      proper_pointed hwhole (by simp) (by simp [hds]), rfl, rfl, 0, ?_, ?_, .inl rfl⟩
    · rw [chars_pointed, writeDigits_append, writeDigits_replicate]
      rfl
    · rw [significand_pointed, digitsValue_append, digitsValue_append, digitsValue_replicate,
        digitsValue_singleton]
      simp
    · rw [scale_pointed, List.length_append, List.length_replicate]
      omega
  · next htop =>
    split
    · next hplaces =>
      generalize hk : (e + ds.length - 1).toNat + 1 - ds.length = k
      have hwhole : ds ++ List.replicate k 0 ≠ [] := by simp [hds]
      refine ⟨.pointed (ds ++ List.replicate k 0) [0] hwhole, ?_,
        proper_pointed hwhole ?_ (List.cons_ne_nil _ _), rfl, rfl, k + 1, ?_, ?_,
        .inr (scale_pointed hwhole)⟩
      · rw [chars_pointed, writeDigits_append, writeDigits_replicate]
        rfl
      · rw [List.head?_append_of_ne_nil _ hds, List.length_append, List.length_replicate]
        intro hlong hzero
        obtain ⟨hone, rfl⟩ := hhead hzero
        omega
      · rw [significand_pointed, digitsValue_append, digitsValue_append, digitsValue_replicate,
          digitsValue_singleton, List.length_replicate, List.length_singleton]
        simp [pow_succ, Nat.mul_assoc]
      · rw [scale_pointed, List.length_singleton]
        omega
    · next hplaces =>
      generalize hk : (e + ds.length - 1).toNat + 1 = k at *
      have hwhole : ds.take k ≠ [] := by simp [hds]; omega
      have hfraction : ds.drop k ≠ [] := by simp; omega
      refine ⟨.pointed (ds.take k) (ds.drop k) hwhole, ?_, proper_pointed hwhole ?_ hfraction, rfl,
        rfl, 0, ?_, ?_, .inl rfl⟩
      · rw [chars_pointed, writeDigits, writeDigits, writeDigits, List.map_take, List.map_drop]
      · intro hlong hzero
        rw [List.head?_take, if_neg (by omega)] at hzero
        have := hhead hzero
        omega
      · rw [significand_pointed, List.take_append_drop, pow_zero, mul_one]
      · rw [scale_pointed, List.length_drop]
        omega

/-! ## An exponent -/

/-- Digits with a point after the first of them, and the exponent after that. -/
theorem exists_digitsWithExponent (e : ℤ) :
    ∃ s : Spelling, s.chars = digitsWithExponent (writeDigits ds) (e + ds.length - 1) ∧
      s.Proper ∧ s.sign = none ∧ s.exponent.isSome = true ∧
      s.numeral.significand = digitsValue ds ∧ s.numeral.scale = e := by
  obtain ⟨d, rest, rfl⟩ := List.exists_cons_of_ne_nil hds
  generalize htop : e + (d :: rest).length - 1 = top
  obtain ⟨es, hes, hvalue, hne, -⟩ := exists_toDigits top.natAbs
  let s : Spelling := ⟨none, [d], if rest = [] then none else some rest,
    some ⟨false, some (top < 0), es, hne⟩, .inl (List.cons_ne_nil _ _)⟩
  have hrest : s.fractionDigits = rest := by
    show (if rest = [] then none else some rest).getD [] = rest
    split
    · next h => exact h.symm
    · rfl
  have hexponent : s.exponentValue = top := by
    show (if some (decide (top < 0)) = some true then _ else _) = top
    rw [hvalue]
    simp only [Option.some_inj, decide_eq_true_iff]
    split <;> omega
  refine ⟨s, ?_, ⟨by simp [s], by simp [s], by simp [s], ?_⟩, rfl, rfl, ?_, ?_⟩
  · unfold digitsWithExponent
    rw [hes]
    cases rest <;> by_cases hneg : top < 0 <;>
      simp [s, Spelling.chars, Spelling.fractionChars, Spelling.exponentChars, writeSign,
        writeDigits, hneg]
  · show (if rest = [] then none else some rest) ≠ some []
    split
    · simp
    · next h => simpa using h
  · rw [Spelling.significand_numeral, hrest]
    rfl
  · rw [Spelling.scale_numeral, hrest, hexponent, ← htop, List.length_cons]
    omega

end

/-! ## The text -/

/-- With a minus before it a numeral has the same digits. -/
theorem exists_signed {s : Spelling} (hsign : s.sign = none) (hproper : s.Proper)
    (negative : Bool) :
    ∃ t : Spelling, t.chars = (if negative then '-' :: s.chars else s.chars) ∧ t.Proper ∧
      t.sign = (if negative then some true else none) ∧ t.fraction = s.fraction ∧
      t.exponent = s.exponent ∧ t.numeral.significand = s.numeral.significand ∧
      t.numeral.scale = s.numeral.scale := by
  cases negative with
  | false => exact ⟨s, rfl, hproper, hsign, rfl, rfl, rfl, rfl⟩
  | true =>
    refine ⟨{ s with sign := some true }, ?_, ⟨by simp, hproper.whole_ne, hproper.head_ne,
      hproper.fraction_ne⟩, rfl, rfl, rfl, rfl, rfl⟩
    unfold Spelling.chars
    rw [hsign]
    rfl

theorem top_le_of_inPlace {top : ℤ} (h : Layout.json.inPlace top = true) : top ≤ 15 := by
  have hboth : (decide (-5 ≤ top) && decide (top ≤ 15)) = true := h
  exact of_decide_eq_true (Bool.and_eq_true_iff.1 hboth).2

/-- Zeros after the digits leave the value as it is. -/
theorem Spelling.Extends.value_eq {s : Spelling} {c : ℕ} {e : ℤ} (h : s.Extends c e) :
    (s.numeral.significand * 10 ^ s.numeral.scale : ℚ) = c * 10 ^ e := by
  obtain ⟨zeros, hsignificand, hscale, -⟩ := h
  rw [hsignificand, hscale, zpow_sub₀ (by norm_num), zpow_natCast]
  push_cast
  field_simp

/-- In place a decimal grows by few zeros. -/
theorem Spelling.Extends.significand_lt {s : Spelling} {c places : ℕ} {e : ℤ} (h : s.Extends c e)
    (hc : c < 2 ^ 60) (hplaces : c < 10 ^ places) (htop : e + places ≤ 16) :
    s.numeral.significand < 2 ^ 64 := by
  obtain ⟨zeros, hsignificand, hscale, rfl | hpoint⟩ := h
  · rw [hsignificand, pow_zero, mul_one]
    exact hc.trans (by norm_num)
  · have hsum : places + zeros ≤ 17 := by omega
    calc s.numeral.significand = c * 10 ^ zeros := hsignificand
      _ ≤ 10 ^ places * 10 ^ zeros := by gcongr
      _ = 10 ^ (places + zeros) := (pow_add _ _ _).symm
      _ ≤ 10 ^ 17 := Nat.pow_le_pow_right (by norm_num) hsum
      _ < 2 ^ 64 := by norm_num

/-- The text of a number writes its shortest decimal, with its sign. -/
theorem exists_spelling_text (x : Binary64)
    (hzero : (shortest .toEven x.magnitude).significand = 0 →
      (shortest .toEven x.magnitude).exponent = 0)
    (hlt : (shortest .toEven x.magnitude).significand < 2 ^ 60) :
    ∃ s : Spelling, s.chars = Layout.json.text x ∧ s.Proper ∧
      s.sign = (if x.isNegative then some true else none) ∧
      (s.fraction.isSome = true ∨ s.exponent.isSome = true) ∧ s.numeral.significand < 2 ^ 64 ∧
      s.Extends (shortest .toEven x.magnitude).significand
        (shortest .toEven x.magnitude).exponent := by
  obtain ⟨ds, hdigits, hvalue, hne, hhead⟩ :=
    exists_toDigits (shortest .toEven x.magnitude).significand
  have htie : Layout.json.tie = .toEven := rfl
  have htail : Layout.json.wholeTail = ".0".toList := rfl
  unfold Layout.text
  rw [htie, htail]
  generalize shortest .toEven x.magnitude = d at *
  dsimp only
  rw [hdigits, length_writeDigits, ← hvalue]
  by_cases hplace : Layout.json.inPlace (d.exponent + ds.length - 1) = true
  · rw [if_pos hplace]
    have hzeros : ds.head? = some 0 → ds.length = 1 ∧ d.exponent = 0 := by
      intro h
      have h0 : d.significand = 0 := by
        by_contra hpos
        exact hhead (Nat.pos_of_ne_zero hpos) h
      refine ⟨?_, hzero h0⟩
      rw [h0, Nat.toDigits_zero] at hdigits
      simpa [length_writeDigits] using (congrArg List.length hdigits).symm
    obtain ⟨s, hchars, hproper, hsign, hfraction, hextends⟩ := exists_digitsInPlace hne hzeros
    obtain ⟨t, htext, htproper, htsign, htfraction, -, hsignificand, hscale⟩ :=
      exists_signed hsign hproper x.isNegative
    have hsmall := hextends.significand_lt (hvalue ▸ hlt) (digitsValue_lt ds)
      (by have := top_le_of_inPlace hplace; omega)
    refine ⟨t, by rw [htext, hchars], htproper, htsign, .inl (htfraction ▸ hfraction),
      hsignificand ▸ hsmall, ?_⟩
    unfold Spelling.Extends
    rw [hsignificand, hscale]
    exact hextends
  · rw [if_neg hplace]
    obtain ⟨s, hchars, hproper, hsign, hexponent, hsignificand, hscale⟩ :=
      exists_digitsWithExponent hne d.exponent
    obtain ⟨t, htext, htproper, htsign, -, htexponent, htsignificand, htscale⟩ :=
      exists_signed hsign hproper x.isNegative
    rw [hsignificand] at htsignificand
    refine ⟨t, by rw [htext, hchars], htproper, htsign, .inr (htexponent ▸ hexponent), ?_, 0, ?_,
      ?_, .inl rfl⟩
    · rw [htsignificand, hvalue]
      exact hlt.trans (by norm_num)
    · rw [htsignificand, pow_zero, mul_one]
    · rw [htscale, hscale, Nat.cast_zero, sub_zero]

end RecordRules.Decimal
