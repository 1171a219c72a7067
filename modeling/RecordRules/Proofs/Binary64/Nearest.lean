import Mathlib.Algebra.Order.Field.Basic
import Mathlib.Tactic.FieldSimp
import Mathlib.Tactic.Positivity
import RecordRules.Proofs.Binary64.Units

/-!
# Rounding finds the nearest number

`magnitudeOfRatio` cuts a quotient between two neighbours of the grid and takes the
nearer one, of two that are equally near the one with an even last bit.  So the number
made of a quotient and a sign is the nearest one there is:

    0 < den → (ofRatio negative num den).IsNearest (± num / den)          (isNearest_ofRatio)

Infinity takes part as the value one step above the greatest finite number; what rounds
there is out of range.
-/

namespace RecordRules.Binary64

/-- The number is the nearest to `q`: no other is nearer, and where another is as near,
the last bit of this one is even. -/
structure IsNearest (x : Binary64) (q : ℚ) : Prop where
  isNaN_eq : x.isNaN = false
  dist_le : ∀ y : Binary64, y.isNaN = false → |q - x.value| ≤ |q - y.value|
  even : ∀ y : Binary64, y.isNaN = false → |q - y.value| = |q - x.value| →
    y.value = x.value ∨ x.magnitude % 2 = 0

/-! ## A point between two neighbours of a grid -/

section
variable {u : ℕ → ℚ} (hu : StrictMono u) {X : ℚ} {m r : ℕ} (hlow : u m ≤ X) (hhigh : X ≤ u (m + 1))
  (hr : r = m ∧ X - u m ≤ u (m + 1) - X ∨ r = m + 1 ∧ u (m + 1) - X ≤ X - u m)

include hu hlow hhigh hr

/-- The nearer neighbour, cut off at `bound`, is nearest among the points up to `bound`. -/
theorem dist_le_of_neighbours {bound k : ℕ} (hk : k ≤ bound) :
    |X - u (min r bound)| ≤ |X - u k| := by
  rcases le_or_gt r bound with hrb | hrb
  · rw [min_eq_left hrb]
    rcases Nat.lt_or_ge m k with hmk | hmk
    · have hk' : u (m + 1) ≤ u k := hu.monotone hmk
      rw [abs_of_nonpos (show X - u k ≤ 0 by linarith)]
      rcases hr with ⟨rfl, h⟩ | ⟨rfl, h⟩
      · rw [abs_of_nonneg (by linarith)]
        linarith
      · rw [abs_of_nonpos (by linarith)]
        linarith
    · have hk' : u k ≤ u m := hu.monotone hmk
      rw [abs_of_nonneg (show 0 ≤ X - u k by linarith)]
      rcases hr with ⟨rfl, h⟩ | ⟨rfl, h⟩
      · rw [abs_of_nonneg (by linarith)]
        linarith
      · rw [abs_of_nonpos (by linarith)]
        linarith
  · -- the bound is at or below the lower neighbour, so all points are below `X`
    have hbm : bound ≤ m := by omega
    have hb : u bound ≤ u m := hu.monotone hbm
    have hkb : u k ≤ u bound := hu.monotone hk
    rw [min_eq_right hrb.le, abs_of_nonneg (by linarith), abs_of_nonneg (by linarith)]
    linarith

/-- Only where `X` is half way between its neighbours is another point as near. -/
theorem tie_of_neighbours {bound k : ℕ} (hk : k ≤ bound)
    (htie : |X - u k| = |X - u (min r bound)|) :
    u k = u (min r bound) ∨ (min r bound = r ∧ X - u m = u (m + 1) - X) := by
  rcases le_or_gt r bound with hrb | hrb
  · rw [min_eq_left hrb] at htie ⊢
    rcases Nat.lt_or_ge m k with hmk | hmk
    · have hk' : u (m + 1) ≤ u k := hu.monotone hmk
      rw [abs_of_nonpos (show X - u k ≤ 0 by linarith)] at htie
      rcases hr with ⟨rfl, h⟩ | ⟨rfl, h⟩
      · rw [abs_of_nonneg (by linarith)] at htie
        exact .inr ⟨rfl, by linarith⟩
      · rw [abs_of_nonpos (by linarith)] at htie
        exact .inl (by linarith)
    · have hk' : u k ≤ u m := hu.monotone hmk
      rw [abs_of_nonneg (show 0 ≤ X - u k by linarith)] at htie
      rcases hr with ⟨rfl, h⟩ | ⟨rfl, h⟩
      · rw [abs_of_nonneg (by linarith)] at htie
        exact .inl (by linarith)
      · rw [abs_of_nonpos (by linarith)] at htie
        exact .inr ⟨rfl, by linarith⟩
  · have hb : u bound ≤ u m := hu.monotone (by omega)
    have hkb : u k ≤ u bound := hu.monotone hk
    rw [min_eq_right hrb.le] at htie ⊢
    rw [abs_of_nonneg (by linarith), abs_of_nonneg (by linarith)] at htie
    exact .inl (by linarith)

end

/-! ## Rounding a quotient -/

/-- The two ways in which a quotient is rounded, each with what the remainder says. -/
theorem divideHalfEven_cases (num den : ℕ) :
    (divideHalfEven num den = num / den ∧ 2 * (num % den) ≤ den ∨
      divideHalfEven num den = num / den + 1 ∧ den ≤ 2 * (num % den)) ∧
    (2 * (num % den) = den → divideHalfEven num den % 2 = 0) := by
  unfold divideHalfEven
  dsimp only
  split
  · exact ⟨.inl ⟨rfl, by omega⟩, by omega⟩
  · split
    · exact ⟨.inr ⟨rfl, by omega⟩, by omega⟩
    · have : num / den % 2 = 0 ∨ num / den % 2 = 1 := by omega
      rcases this with h | h
      · exact ⟨.inl ⟨by omega, by omega⟩, by omega⟩
      · exact ⟨.inr ⟨by omega, by omega⟩, by omega⟩

/-- The quotient shifted into 53 bits is a significand, so it names a point of the grid. -/
theorem shifted_quotient_bounds (scaled den : ℕ) :
    scaled / (den <<< ((scaled / den).log2 - 52)) + 1 ≤ 2 * leadingBit ∧
      ((scaled / den).log2 - 52 = 0 ∨
        leadingBit ≤ scaled / (den <<< ((scaled / den).log2 - 52))) := by
  have hL : leadingBit = 2 ^ 52 := by decide
  rw [Nat.shiftLeft_eq, ← Nat.div_div_eq_div_mul]
  generalize hf : scaled / den = f
  rcases Nat.eq_zero_or_pos f with rfl | hpos
  · rw [Nat.zero_div, hL]
    exact ⟨by norm_num, .inl (by decide)⟩
  · have hlow : 2 ^ f.log2 ≤ f := Nat.log2_self_le (by omega)
    have hhigh : f < 2 ^ (f.log2 + 1) := Nat.lt_log2_self
    rcases Nat.lt_or_ge f.log2 53 with hsmall | hlarge
    · have hshift : f.log2 - 52 = 0 := by omega
      have hle : 2 ^ (f.log2 + 1) ≤ 2 ^ 53 := Nat.pow_le_pow_right (by norm_num) (by omega)
      rw [hshift, pow_zero, Nat.div_one, hL]
      exact ⟨by omega, .inl rfl⟩
    · obtain ⟨s, hs⟩ : ∃ s, f.log2 = s + 52 := ⟨f.log2 - 52, by omega⟩
      rw [hs, Nat.add_sub_cancel, hL]
      rw [hs] at hlow hhigh
      constructor
      · rw [Nat.succ_le_iff, Nat.div_lt_iff_lt_mul (by positivity)]
        calc f < 2 ^ (s + 52 + 1) := hhigh
          _ = 2 * 2 ^ 52 * 2 ^ s := by ring
      · right
        rw [Nat.le_div_iff_mul_le (by positivity)]
        calc 2 ^ 52 * 2 ^ s = 2 ^ (s + 52) := by ring
          _ ≤ f := hlow

/-- A quotient lies as far above a multiple of `2 ^ s` as its remainder says, and as far
below the next as the remainder lacks. -/
theorem remainder_distances (N : ℕ) {den D s : ℕ} (hden : 0 < den) (hD : D = den * 2 ^ s) :
    (N : ℚ) / den - ((N / D : ℕ) * 2 ^ s : ℕ) = (N % D : ℕ) / den ∧
      (((N / D : ℕ) + 1) * 2 ^ s : ℕ) - (N : ℚ) / den = (D - (N % D : ℕ)) / den := by
  have hden' : (0 : ℚ) < den := by exact_mod_cast hden
  have hDs : (D : ℚ) = den * 2 ^ s := by rw [hD]; push_cast; rfl
  have hN : (N : ℚ) = den * 2 ^ s * (N / D : ℕ) + (N % D : ℕ) := by
    rw [← hDs]
    exact_mod_cast (Nat.div_add_mod N D).symm
  generalize N / D = q at *
  generalize N % D = ρ at *
  constructor
  · rw [hN]
    field_simp
    push_cast
    ring
  · rw [hN, hDs]
    field_simp
    push_cast
    ring

/-- Rounding takes one of the two neighbours of the quotient on the grid, cut off at
infinity: the nearer one, and half way between them the one with an even last bit. -/
theorem magnitudeOfRatio_neighbours (num : ℕ) {den : ℕ} (hden : 0 < den) :
    ∃ m r, magnitudeOfRatio num den = min r infinityBits ∧
      let X : ℚ := num * unitsPerOne / den
      (unitsOf m : ℚ) ≤ X ∧ X ≤ unitsOf (m + 1) ∧
      (r = m ∧ X - unitsOf m ≤ unitsOf (m + 1) - X ∨
        r = m + 1 ∧ unitsOf (m + 1) - X ≤ X - unitsOf m) ∧
      (X - unitsOf m = unitsOf (m + 1) - X → r % 2 = 0) := by
  have hbounds := shifted_quotient_bounds (num * unitsPerOne) den
  have hround := divideHalfEven_cases (num * unitsPerOne)
    (den <<< ((num * unitsPerOne / den).log2 - 52))
  have hmag : magnitudeOfRatio num den =
      min (((num * unitsPerOne / den).log2 - 52) * leadingBit +
        divideHalfEven (num * unitsPerOne) (den <<< ((num * unitsPerOne / den).log2 - 52)))
        infinityBits := rfl
  have hX : (num : ℚ) * unitsPerOne / den = ((num * unitsPerOne : ℕ) : ℚ) / den := by push_cast; rfl
  rw [hX]
  generalize num * unitsPerOne = N at *
  generalize (N / den).log2 - 52 = s at *
  have hD : 0 < den <<< s := by rw [Nat.shiftLeft_eq]; positivity
  have hrem := Nat.mod_lt N hD
  obtain ⟨hbelow, habove⟩ := remainder_distances N hden (Nat.shiftLeft_eq den s)
  generalize den <<< s = D at *
  have hlow : unitsOf (s * leadingBit + N / D) = N / D * 2 ^ s :=
    unitsOf_shifted (by omega) hbounds.2
  have hhigh : unitsOf (s * leadingBit + N / D + 1) = (N / D + 1) * 2 ^ s := by
    rw [Nat.add_assoc]
    exact unitsOf_shifted hbounds.1 (by omega)
  rw [← hlow] at hbelow
  rw [← hhigh] at habove
  generalize N % D = ρ at *
  have hden' : (0 : ℚ) < den := by exact_mod_cast hden
  have hρ : (ρ : ℚ) < D := by exact_mod_cast hrem
  have hρ0 : (0 : ℚ) ≤ ρ / den := by positivity
  have hρ1 : (0 : ℚ) ≤ (D - ρ) / den := div_nonneg (by linarith) hden'.le
  refine ⟨s * leadingBit + N / D, s * leadingBit + divideHalfEven N D, hmag, ?_, ?_, ?_, ?_⟩
  · linarith
  · linarith
  · rw [hbelow, habove]
    rcases hround.1 with ⟨hq, hhalf⟩ | ⟨hq, hhalf⟩
    · left
      have hhalf' : (2 : ℚ) * ρ ≤ D := by exact_mod_cast hhalf
      exact ⟨by rw [hq], by gcongr; linarith⟩
    · right
      have hhalf' : (D : ℚ) ≤ 2 * ρ := by exact_mod_cast hhalf
      exact ⟨by rw [hq, Nat.add_assoc], by gcongr; linarith⟩
  · rw [hbelow, habove]
    intro htie
    have htie' : (ρ : ℚ) = D - ρ := by
      rw [div_left_inj' hden'.ne'] at htie
      exact htie
    have heven := hround.2 (by
      have : (2 : ℚ) * ρ = D := by linarith
      exact_mod_cast this)
    have hL : leadingBit = 2 * 2251799813685248 := rfl
    rw [hL, Nat.add_mod, heven, ← Nat.mul_assoc, Nat.mul_right_comm, Nat.mul_mod_left]

theorem magnitudeOfRatio_le (num den : ℕ) : magnitudeOfRatio num den ≤ infinityBits :=
  Nat.min_le_right _ _

theorem infinityBits_lt_signBit : infinityBits < signBit := by decide

/-! ## Signs -/

theorem abs_signFactor (negative : Bool) : |signFactor negative| = 1 := by
  cases negative <;> simp [signFactor]

/-- Numbers of one sign lie as far apart as their magnitudes. -/
theorem dist_of_same_sign {negative : Bool} (X : ℚ) {y : Binary64} (hy : y.isNegative = negative) :
    |signFactor negative * (X / unitsPerOne) - y.value| =
      |X - unitsOf y.magnitude| / unitsPerOne := by
  rw [value_eq, hy, ← mul_sub, ← sub_div, abs_mul, abs_div, abs_of_pos unitsPerOne_pos,
    abs_signFactor, one_mul]

/-- Numbers of both signs lie apart as far as their magnitudes together. -/
theorem dist_of_other_sign {negative : Bool} {X : ℚ} (hX : 0 ≤ X) {y : Binary64}
    (hy : y.isNegative ≠ negative) :
    |signFactor negative * (X / unitsPerOne) - y.value| =
      (X + unitsOf y.magnitude) / unitsPerOne := by
  have hflip : signFactor y.isNegative = -signFactor negative := by
    cases negative <;> cases hs : y.isNegative <;> simp_all [signFactor]
  have hmagnitude : (0 : ℚ) ≤ unitsOf y.magnitude := Nat.cast_nonneg _
  rw [value_eq, hflip, neg_mul, sub_neg_eq_add, ← mul_add, ← add_div, abs_mul, abs_signFactor,
    one_mul, abs_of_nonneg (div_nonneg (add_nonneg hX hmagnitude) unitsPerOne_pos.le)]

theorem dist_magnitude_le (negative : Bool) {X : ℚ} (hX : 0 ≤ X) (y : Binary64) :
    |X - unitsOf y.magnitude| / unitsPerOne ≤
      |signFactor negative * (X / unitsPerOne) - y.value| := by
  by_cases hy : y.isNegative = negative
  · rw [dist_of_same_sign X hy]
  · have hmagnitude : (0 : ℚ) ≤ unitsOf y.magnitude := Nat.cast_nonneg _
    have hsum : |X - unitsOf y.magnitude| ≤ X + unitsOf y.magnitude := by
      rw [abs_le]
      constructor <;> linarith
    rw [dist_of_other_sign hX hy]
    exact div_le_div_of_nonneg_right hsum unitsPerOne_pos.le

/-- A number of the other sign is as near as its magnitude only around zero. -/
theorem value_of_dist_magnitude_eq {negative : Bool} {X : ℚ} (hX : 0 ≤ X) {y : Binary64}
    (h : |signFactor negative * (X / unitsPerOne) - y.value| =
      |X - unitsOf y.magnitude| / unitsPerOne) :
    y.value = signFactor negative * (unitsOf y.magnitude / unitsPerOne) ∨ X = 0 := by
  by_cases hy : y.isNegative = negative
  · rw [value_eq, hy]
    exact .inl rfl
  · rw [dist_of_other_sign hX hy, div_left_inj' unitsPerOne_pos.ne'] at h
    rcases abs_cases (X - unitsOf y.magnitude) with ⟨habs, -⟩ | ⟨habs, -⟩
    · left
      have hzero : (unitsOf y.magnitude : ℚ) = 0 := by linarith
      rw [value_eq, hzero, zero_div, mul_zero, mul_zero]
    · right
      linarith

/-- Among numbers of both signs, one of the sign of `q` is nearest to it. -/
theorem isNearest_of_magnitude (negative : Bool) {X : ℚ} (hX : 0 ≤ X) {m : ℕ}
    (hm : m ≤ infinityBits)
    (hdist : ∀ k ≤ infinityBits, |X - unitsOf m| ≤ |X - unitsOf k|)
    (heven : ∀ k ≤ infinityBits, |X - unitsOf k| = |X - unitsOf m| →
      unitsOf k = unitsOf m ∨ m % 2 = 0) :
    (ofMagnitude negative m).IsNearest (signFactor negative * (X / unitsPerOne)) := by
  have hm' : m < signBit := lt_of_le_of_lt hm infinityBits_lt_signBit
  have hU := unitsPerOne_pos
  have hself : |signFactor negative * (X / unitsPerOne) - (ofMagnitude negative m).value| =
      |X - unitsOf m| / unitsPerOne := by
    rw [dist_of_same_sign X (isNegative_ofMagnitude hm'), magnitude_ofMagnitude hm']
  refine ⟨?_, ?_, ?_⟩
  · rw [isNaN_eq_false_iff, magnitude_ofMagnitude hm']
    exact hm
  · intro y hy
    have hk := isNaN_eq_false_iff.1 hy
    rw [hself]
    exact le_trans (div_le_div_of_nonneg_right (hdist _ hk) hU.le) (dist_magnitude_le negative hX y)
  · intro y hy htie
    have hk := isNaN_eq_false_iff.1 hy
    rw [hself] at htie
    have heq : |X - unitsOf y.magnitude| / (unitsPerOne : ℚ) = |X - unitsOf m| / unitsPerOne :=
      le_antisymm (htie ▸ dist_magnitude_le negative hX y)
        (div_le_div_of_nonneg_right (hdist _ hk) hU.le)
    have hvalue := value_of_dist_magnitude_eq hX (htie.trans heq.symm)
    rw [value_ofMagnitude hm', magnitude_ofMagnitude hm']
    rw [div_left_inj' hU.ne'] at heq
    rcases heven _ hk heq with h | h
    · left
      rcases hvalue with hvalue | rfl
      · rw [hvalue, h]
      · -- at zero itself nothing is near but zero
        have h0 := hdist 0 (Nat.zero_le _)
        have hm0 : (unitsOf m : ℚ) = 0 := by simpa using h0
        rw [value_eq, h, hm0, zero_div, mul_zero, mul_zero]
    · exact .inr h

theorem isNearest_ofRatio (negative : Bool) (num : ℕ) {den : ℕ} (hden : 0 < den) :
    (ofRatio negative num den).IsNearest (signFactor negative * (num / den)) := by
  obtain ⟨m, r, hmag, hlow, hhigh, hr, hhalf⟩ := magnitudeOfRatio_neighbours num hden
  have hu : StrictMono fun k => (unitsOf k : ℚ) :=
    fun _ _ h => Nat.cast_lt.2 (unitsOf_strictMono h)
  have hX : (0 : ℚ) ≤ num * unitsPerOne / den :=
    div_nonneg (mul_nonneg (Nat.cast_nonneg _) unitsPerOne_pos.le) (Nat.cast_nonneg _)
  have hq : (num : ℚ) / den = num * unitsPerOne / den / unitsPerOne := by
    have := unitsPerOne_pos
    field_simp
  rw [hq, ofRatio]
  refine isNearest_of_magnitude negative hX (magnitudeOfRatio_le num den) ?_ ?_
  · intro k hk
    rw [hmag]
    exact dist_le_of_neighbours hu hlow hhigh hr hk
  · intro k hk htie
    rw [hmag] at htie ⊢
    rcases tie_of_neighbours hu hlow hhigh hr hk htie with h | ⟨hmin, h⟩
    · exact .inl (by exact_mod_cast h)
    · exact .inr (by rw [hmin]; exact hhalf h)

end RecordRules.Binary64
