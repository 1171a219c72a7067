import Mathlib.Algebra.Order.Field.Power
import Mathlib.Data.Nat.Digits.Lemmas
import RecordRules.Decimal.Numeral
import RecordRules.Proofs.Binary64.Nearest

/-!
# Numerals are read as the nearest number

The value of a numeral is its significand times its power of ten, and it is read as the
double precision number nearest to that value (`isNearest_toBinary64`).  Numerals far out
of range take a short way, decided by the place of their leading digit; there the nearest
number is zero or infinity.
-/

namespace RecordRules.Decimal

open Binary64

/-! ## Digits -/

theorem ofDigits_append (ds : List ℕ) (d : ℕ) : ofDigits (ds ++ [d]) = 10 * ofDigits ds + d := by
  unfold ofDigits
  rw [List.foldl_append]
  rfl

/-- Digits are written from the highest down. -/
theorem ofDigits_eq (ds : List ℕ) : ofDigits ds = Nat.ofDigits 10 ds.reverse := by
  induction ds using List.reverseRecOn with
  | nil => rfl
  | append_singleton ds d ih =>
    rw [ofDigits_append, ih, List.reverse_append, List.reverse_singleton, List.singleton_append,
      Nat.ofDigits_cons, Nat.add_comm]

theorem ofDigits_lt {ds : List ℕ} (hds : ∀ d ∈ ds, d < 10) : ofDigits ds < 10 ^ ds.length := by
  rw [ofDigits_eq, ← List.length_reverse]
  exact Nat.ofDigits_lt_base_pow_length (by norm_num) (by simpa using hds)

theorem ofDigits_dropWhile (ds : List ℕ) : ofDigits (ds.dropWhile (· == 0)) = ofDigits ds := by
  induction ds with
  | nil => rfl
  | cons d ds ih =>
    rw [List.dropWhile_cons]
    split
    · next h =>
      obtain rfl : d = 0 := by simpa using h
      rw [ih]
      rfl
    · rfl

/-- The leading digit bounds a number from below. -/
theorem pow_le_ofDigits {ds : List ℕ} (h : ofDigits ds ≠ 0) :
    10 ^ (ds.dropWhile (· == 0)).length ≤ 10 * ofDigits ds := by
  rw [← ofDigits_dropWhile] at h ⊢
  have hne : ds.dropWhile (· == 0) ≠ [] := by
    intro hnil
    rw [hnil] at h
    exact h rfl
  have hhead := List.head_dropWhile_not (· == 0) hne
  generalize ds.dropWhile (· == 0) = es at *
  rw [ofDigits_eq, ← List.length_reverse]
  refine Nat.pow_length_le_mul_ofDigits (b := 8) (by simpa using hne) ?_
  rw [List.getLast_reverse]
  simpa using hhead

/-! ## Powers of ten -/

/-- A power of ten as a quotient of whole numbers, one of which is one. -/
theorem mul_pow_toNat (exponent : ℤ) :
    ((Nat.pow 10 (-exponent).toNat : ℕ) : ℚ) * 10 ^ exponent = (Nat.pow 10 exponent.toNat : ℕ) := by
  have hpow : (10 : ℚ) ^ (-exponent).toNat * 10 ^ exponent = 10 ^ exponent.toNat := by
    rw [← zpow_natCast, ← zpow_natCast, ← zpow_add₀ (by norm_num)]
    congr 1
    omega
  simp only [Nat.pow_eq, Nat.cast_pow, Nat.cast_ofNat, hpow]

theorem mul_pow_eq_quotient (n : ℕ) (exponent : ℤ) :
    (n : ℚ) * 10 ^ exponent =
      ((n * Nat.pow 10 exponent.toNat : ℕ) : ℚ) / (Nat.pow 10 (-exponent).toNat : ℕ) := by
  have hden : ((Nat.pow 10 (-exponent).toNat : ℕ) : ℚ) ≠ 0 := by
    simp only [Nat.pow_eq, Nat.cast_pow, Nat.cast_ofNat]
    positivity
  rw [eq_div_iff hden, Nat.cast_mul, mul_assoc, mul_comm ((10 : ℚ) ^ exponent), mul_pow_toNat]

namespace Numeral

/-! ## The value -/

/-- The rational number that a numeral writes. -/
def value (x : Numeral) : ℚ := signFactor x.negative * (x.significand * 10 ^ x.scale)

/-- The power of ten above the leading digit. -/
theorem significand_lt {x : Numeral} (hx : ∀ d ∈ x.digits, d < 10) :
    (x.significand : ℚ) * 10 ^ x.scale <
      10 ^ (x.scale + (x.digits.dropWhile (· == 0)).length : ℤ) := by
  have hlt : x.significand < 10 ^ (x.digits.dropWhile (· == 0)).length := by
    unfold significand
    rw [← ofDigits_dropWhile]
    exact ofDigits_lt fun d hd => hx d (List.dropWhile_sublist _ |>.subset hd)
  have hlt' : (x.significand : ℚ) < 10 ^ (x.digits.dropWhile (· == 0)).length := by
    exact_mod_cast hlt
  rw [add_comm, zpow_add₀ (by norm_num), zpow_natCast]
  gcongr

theorem le_significand {x : Numeral} (hx : x.significand ≠ 0) :
    (10 : ℚ) ^ (x.scale + (x.digits.dropWhile (· == 0)).length - 1 : ℤ) ≤
      x.significand * 10 ^ x.scale := by
  have hle := pow_le_ofDigits hx
  have hle' : (10 : ℚ) ^ (x.digits.dropWhile (· == 0)).length ≤ 10 * x.significand := by
    exact_mod_cast hle
  have hsplit : (10 : ℚ) ^ (x.scale + (x.digits.dropWhile (· == 0)).length - 1 : ℤ) =
      10 ^ (x.digits.dropWhile (· == 0)).length * 10 ^ x.scale / 10 := by
    rw [zpow_sub₀ (by norm_num), add_comm, zpow_add₀ (by norm_num), zpow_natCast, zpow_one]
  rw [hsplit, div_le_iff₀ (by norm_num)]
  calc (10 : ℚ) ^ (x.digits.dropWhile (· == 0)).length * 10 ^ x.scale
      ≤ 10 * x.significand * 10 ^ x.scale := by gcongr
    _ = x.significand * 10 ^ x.scale * 10 := by ring

/-! ## Out of range -/

/-- Up to half a unit zero is nearest. -/
theorem isNearest_zero (negative : Bool) {q : ℚ} (hq : 0 ≤ q)
    (hsmall : q * unitsPerOne ≤ 1 / 2) : (zero negative).IsNearest (signFactor negative * q) := by
  have hU := unitsPerOne_pos
  rw [show q = q * unitsPerOne / unitsPerOne by field_simp]
  refine isNearest_of_magnitude negative (mul_nonneg hq hU.le) (Nat.zero_le _) ?_ ?_
  · intro k _
    rcases Nat.eq_zero_or_pos k with rfl | hk
    · exact le_refl _
    · have h1 : (1 : ℚ) ≤ unitsOf k := by
        have := unitsOf_strictMono hk
        rw [unitsOf_zero] at this
        exact_mod_cast this
      have h0 : 0 ≤ q * unitsPerOne := mul_nonneg hq hU.le
      rw [unitsOf_zero, Nat.cast_zero, sub_zero, abs_of_nonneg h0, abs_of_nonpos (by linarith)]
      linarith
  · exact fun _ _ _ => .inr rfl

/-- From the value of infinity on, infinity is nearest. -/
theorem isNearest_infinity (negative : Bool) {q : ℚ}
    (hlarge : (unitsOf infinityBits : ℚ) ≤ q * unitsPerOne) :
    (infinity negative).IsNearest (signFactor negative * q) := by
  have hU := unitsPerOne_pos
  have h0 : (0 : ℚ) ≤ unitsOf infinityBits := Nat.cast_nonneg _
  have hle : ∀ k ≤ infinityBits, (unitsOf k : ℚ) ≤ unitsOf infinityBits :=
    fun k hk => Nat.cast_le.2 (unitsOf_strictMono.monotone hk)
  rw [show q = q * unitsPerOne / unitsPerOne by field_simp]
  refine isNearest_of_magnitude negative (h0.trans hlarge) le_rfl ?_ ?_
  · intro k hk
    have := hle k hk
    rw [abs_of_nonneg (by linarith), abs_of_nonneg (by linarith)]
    linarith
  · intro k hk htie
    have := hle k hk
    rw [abs_of_nonneg (by linarith), abs_of_nonneg (by linarith)] at htie
    left
    have heq : (unitsOf k : ℚ) = unitsOf infinityBits := by linarith
    exact_mod_cast heq

theorem unitsOf_infinityBits : unitsOf infinityBits = 2 ^ 1024 * unitsPerOne := by
  decide +kernel

/-- Ten to this power is above the greatest finite number. -/
theorem two_pow_le_ten_pow : (2 : ℚ) ^ 1024 ≤ 10 ^ 310 := by
  have : 2 ^ 1024 ≤ 10 ^ 310 := by decide +kernel
  exact_mod_cast this

/-- One part in ten to this power is at most half a unit. -/
theorem twice_unitsPerOne_le : (unitsPerOne : ℚ) * 2 ≤ 10 ^ 331 := by
  have : unitsPerOne * 2 ≤ 10 ^ 331 := by decide +kernel
  exact_mod_cast this

/-! ## All numerals -/

theorem isNearest_toBinary64 {x : Numeral} (hx : ∀ d ∈ x.digits, d < 10) :
    x.toBinary64.IsNearest x.value := by
  have hpos : (0 : ℚ) ≤ x.significand * 10 ^ x.scale := by positivity
  unfold toBinary64 value
  dsimp only
  split
  · next h =>
    rw [Bool.or_eq_true, decide_eq_true_iff, decide_eq_true_iff] at h
    apply isNearest_zero _ hpos
    rcases h with h | h
    · rw [h, Nat.cast_zero, zero_mul, zero_mul]
      norm_num
    · have htop : (x.significand : ℚ) * 10 ^ x.scale ≤ 10 ^ (-331 : ℤ) :=
        (significand_lt hx).le.trans (zpow_le_zpow_right₀ (by norm_num) (by omega))
      have hhalf : (10 : ℚ) ^ (-331 : ℤ) * unitsPerOne ≤ 1 / 2 := by
        rw [zpow_neg, zpow_ofNat, inv_mul_le_iff₀ (by positivity), mul_one_div,
          le_div_iff₀ two_pos]
        exact twice_unitsPerOne_le
      exact le_trans (mul_le_mul_of_nonneg_right htop unitsPerOne_pos.le) hhalf
  · next h =>
    have hsig : x.significand ≠ 0 := by
      intro h0
      simp [h0] at h
    split
    · next htop =>
      apply isNearest_infinity
      have hlow : (10 : ℚ) ^ (310 : ℤ) ≤ x.significand * 10 ^ x.scale :=
        (zpow_le_zpow_right₀ (by norm_num) (by omega)).trans (le_significand hsig)
      have hten : (2 : ℚ) ^ 1024 ≤ x.significand * 10 ^ x.scale :=
        two_pow_le_ten_pow.trans (by rwa [zpow_ofNat] at hlow)
      rw [unitsOf_infinityBits, Nat.cast_mul, Nat.cast_pow]
      exact mul_le_mul_of_nonneg_right hten unitsPerOne_pos.le
    · -- in between the numeral is rounded as a quotient
      rw [mul_pow_eq_quotient]
      exact isNearest_ofRatio _ _ (Nat.pow_pos (by norm_num))

end Numeral

end RecordRules.Decimal
