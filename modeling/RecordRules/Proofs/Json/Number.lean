import RecordRules.Proofs.Decimal.Shortest
import RecordRules.Proofs.Json.Accuracy
import RecordRules.Proofs.Json.Numeral

/-!
# Numbers are read back

The text of a finite number is a numeral that writes its shortest decimal, which lies in
the interval of the number.  So the number that is read has the same sign, is finite, and
its magnitude is few steps away, or none where the numeral is short:

    x.isFinite → ∃ w y, the numeral w is written for x, w is read as y, y.Near w x   (exists_near)
-/

namespace RecordRules.Json

open Binary64 Decimal Document

/-- The number that is read of a numeral is near the one it was written for. -/
structure Near (w : Numeral) (y x : Binary64) : Prop where
  isFinite : y.isFinite = true
  isNegative : y.isNegative = x.isNegative
  le_add : y.magnitude ≤ x.magnitude + drift w.significand w.scale
  add_le : x.magnitude ≤ y.magnitude + drift w.significand w.scale
  eq_of_drift : drift w.significand w.scale = 0 → y = x

/-! ## Magnitudes -/

/-- Near the greatest number the steps are not left to chance: what is read is in range. -/
theorem scaleByTen?_greatest :
    ∀ m ∈ [infinityBits - 3, infinityBits - 2, infinityBits - 1],
      (shortest .toEven m).exponent = 292 ∧
      ((scaleByTen? (shortest .toEven m).significand (shortest .toEven m).exponent).any fun f =>
        decide (f.magnitude < infinityBits ∧
          f.magnitude ≤ m + drift (shortest .toEven m).significand (shortest .toEven m).exponent ∧
          m ≤ f.magnitude + drift (shortest .toEven m).significand (shortest .toEven m).exponent)) =
        true := by
  decide +kernel

/-- The digits of the shortest decimal, wherever zeros extend them, are read as a number
in range near the one they were taken from. -/
theorem scaleByTen?_of_extends {m : ℕ} (hm : m < infinityBits) {s : Spelling}
    (hs : s.Extends (shortest .toEven m).significand (shortest .toEven m).exponent)
    (hlt : s.numeral.significand < wordBound) :
    ∃ f, scaleByTen? s.numeral.significand s.numeral.scale = some f ∧ f.magnitude < infinityBits ∧
      f.magnitude ≤ m + drift s.numeral.significand s.numeral.scale ∧
      m ≤ f.magnitude + drift s.numeral.significand s.numeral.scale := by
  have hvalue := hs.value_eq
  obtain ⟨zeros, hsignificand, hscale, hplace⟩ := hs
  rcases Nat.eq_zero_or_pos m with rfl | hpos
  · have hzero : (shortest .toEven 0).significand = 0 := rfl
    rw [hzero, Nat.zero_mul] at hsignificand
    rw [hsignificand]
    exact ⟨zero false, rfl, by decide, Nat.zero_le _, Nat.zero_le _⟩
  · rcases Nat.lt_or_ge (m + 3) infinityBits with hlow | htop
    · have hshort := isShort_shortest .toEven hpos hm
      have hD := hshort.inInterval
      have hexponent := hshort.le_exponent
      have hsig : 0 < s.numeral.significand := by
        rw [hsignificand]
        exact Nat.mul_pos hshort.significand_pos (Nat.pow_pos (by decide))
      rw [← hvalue] at hD
      obtain ⟨f, hf, hnear⟩ := scaledNear_of_inInterval hsig hlt hlow (by omega) hD
      refine ⟨f, hf, ?_, hnear⟩
      have := drift_le s.numeral.significand s.numeral.scale
      omega
    · obtain ⟨hexponent, hany⟩ := scaleByTen?_greatest m (by simp; omega)
      obtain ⟨f, hf, hbounds⟩ := (Option.any_eq_true _ _).1 hany
      have hpositive := (isShort_shortest .toEven hpos hm).significand_pos
      -- so many zeros as a point needs there do not fit
      obtain rfl : zeros = 0 := by
        refine hplace.resolve_right fun hpoint => ?_
        have hzeros : 10 ^ 20 ≤ 10 ^ zeros := Nat.pow_le_pow_right (by decide) (by omega)
        have hfull : 10 ^ zeros ≤ (shortest .toEven m).significand * 10 ^ zeros :=
          Nat.le_mul_of_pos_left _ hpositive
        unfold wordBound at hlt
        omega
      rw [pow_zero, mul_one] at hsignificand
      rw [Nat.cast_zero, sub_zero] at hscale
      rw [hsignificand, hscale]
      exact ⟨f, hf, of_decide_eq_true hbounds⟩

/-! ## Texts -/

/-- What the text of a finite number needs of its shortest decimal. -/
theorem shortest_bounds {m : ℕ} (hm : m < infinityBits) :
    ((shortest .toEven m).significand = 0 → (shortest .toEven m).exponent = 0) ∧
      (shortest .toEven m).significand < 2 ^ 60 := by
  rcases Nat.eq_zero_or_pos m with rfl | hpos
  · exact ⟨fun _ => rfl, by decide⟩
  · have hshort := isShort_shortest .toEven hpos hm
    exact ⟨fun h => absurd h hshort.significand_pos.ne', hshort.significand_lt⟩

/-- **The text of a finite number is a numeral that is read as a number near it.** -/
theorem exists_near {x : Binary64} (hx : x.isFinite = true) :
    ∃ w y, Lexeme.ofNumeral? (Layout.json.text x) = some (.number w) ∧
      read? (String.ofList (Layout.json.text x)) = some (.number w) ∧
      Number.ofNumeral? w = some (.float y) ∧ Near w y x := by
  have hm : x.magnitude < infinityBits := of_decide_eq_true hx
  obtain ⟨hzero, hbound⟩ := shortest_bounds hm
  obtain ⟨s, hchars, hproper, hsign, hform, hlt, hextends⟩ := exists_spelling_text x hzero hbound
  obtain ⟨f, hf, hfinite, hle, hge⟩ := scaleByTen?_of_extends hm hextends hlt
  have hsmall : f.magnitude < signBit := hfinite.trans infinityBits_lt_signBit
  have hnegative : s.numeral.negative = x.isNegative := by
    show s.sign.getD false = x.isNegative
    rw [hsign]
    cases x.isNegative <;> rfl
  refine ⟨s.numeral, ofMagnitude x.isNegative f.magnitude, ?_, ?_, ?_, ?_⟩
  · rw [← hchars]
    exact ofNumeral?_chars hproper
  · rw [← hchars]
    exact read?_chars hproper
  · rw [ofNumeral?_scaled hlt (scaled_of_isSome hproper hform), hf, hnegative]
    rfl
  · have hmagnitude := @magnitude_ofMagnitude x.isNegative _ hsmall
    refine ⟨?_, isNegative_ofMagnitude hsmall, ?_, ?_, fun hdrift => ?_⟩
    · rw [isFinite, hmagnitude]
      exact decide_eq_true hfinite
    · rwa [hmagnitude]
    · rwa [hmagnitude]
    · apply ext_magnitude (isNegative_ofMagnitude hsmall)
      omega

end RecordRules.Json
