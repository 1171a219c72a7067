import RecordRules.Json.Number
import RecordRules.Proofs.Binary64.Steps
import RecordRules.Proofs.Decimal.Nearest

/-!
# How near a scaled significand comes

`scaleByTen?` rounds the significand, the power of ten and their product or quotient.
Each rounding is worth a factor of `1 + 2^-53` at most, and none where the number is on
the grid.  So a decimal in the interval of `m` is read as a number few steps from `m`:

    InInterval m (significand · 10^exponent · unitsPerOne) → ScaledNear significand exponent m
                                                                    (scaledNear_of_inInterval)
-/

namespace RecordRules.Json

open Binary64

/-- The steps by which a decimal may be missed: none where significand and power of ten
are on the grid, and more where powers of ten are divided by twice. -/
def drift (significand : ℕ) (exponent : ℤ) : ℕ :=
  if significand ≤ 2 ^ 53 ∧ -22 ≤ exponent ∧ exponent ≤ 22 then 0
  else if -308 ≤ exponent then 2
  else 3

theorem drift_le (significand : ℕ) (exponent : ℤ) : drift significand exponent ≤ 3 := by
  unfold drift
  split
  · decide
  · split <;> decide

/-- A scaled significand is a number, whose magnitude is few steps from `m`. -/
def ScaledNear (significand : ℕ) (exponent : ℤ) (m : ℕ) : Prop :=
  ∃ f, scaleByTen? significand exponent = some f ∧
    f.magnitude ≤ m + drift significand exponent ∧ m ≤ f.magnitude + drift significand exponent

/-- Zero apart, the power of ten decides what is done. -/
theorem scaleByTen?_of_pos {s : ℕ} (hs : 0 < s) {E : ℤ} (hE : -616 ≤ E) :
    scaleByTen? s E =
      if E < -308 then
        some (div (div (ofRatio false s 1) (powerOfTen 308)) (powerOfTen (-E - 308).toNat))
      else if E < 0 then some (div (ofRatio false s 1) (powerOfTen (-E).toNat))
      else if 308 < E then none
      else if (mul (ofRatio false s 1) (powerOfTen E.toNat)).isInfinite then none
      else some (mul (ofRatio false s 1) (powerOfTen E.toNat)) := by
  have hzero : ¬ (decide (s = 0) || decide (E < -616)) = true := by
    simp
    omega
  unfold scaleByTen?
  dsimp only
  rw [if_neg hzero]

/-! ## Whole numbers -/

theorem roundsTo_whole (n : ℕ) : RoundsTo (n * unitsPerOne) (ofRatio false n 1).magnitude := by
  have h := roundsTo_ofRatio false n Nat.one_pos
  rwa [Nat.cast_one, div_one] at h

/-- A whole number is rounded by one part in 2^53 at most. -/
theorem within_whole {n : ℕ} (hn : 0 < n) (hle : n * unitsPerOne ≤ unitsOf infinityBits) :
    Within (1 + 1 / 2 ^ 53) (unitsOf (ofRatio false n 1).magnitude) (n * unitsPerOne) := by
  have hone : 2 ^ 52 ≤ unitsPerOne := by decide
  have hlarge : 2 ^ 52 ≤ n * unitsPerOne := hone.trans (Nat.le_mul_of_pos_left _ hn)
  exact (roundsTo_whole n).within (by exact_mod_cast hlarge) (by exact_mod_cast hle)

theorem exists_unitsPerOne_eq : ∃ k, unitsPerOne = 2 ^ k := by
  unfold unitsPerOne
  generalize 1074 = k
  exact ⟨k, Nat.one_shiftLeft k⟩

/-- A significand of 53 bits, shifted, is not rounded at all. -/
theorem unitsOf_whole {n q shift : ℕ} (hn : n = q * 2 ^ shift) (hq : q ≤ 2 ^ 53)
    (hle : n * unitsPerOne ≤ unitsOf infinityBits) :
    (unitsOf (ofRatio false n 1).magnitude : ℚ) = n * unitsPerOne := by
  obtain ⟨k, hk⟩ := exists_unitsPerOne_eq
  obtain ⟨m, hm⟩ := exists_unitsOf_eq hq (shift + k)
  have hunits : unitsOf m = n * unitsPerOne := by
    rw [hm, hn, hk, pow_add, Nat.mul_assoc]
  have hmle : m ≤ infinityBits := by
    rw [← unitsOf_strictMono.le_iff_le, hunits]
    exact hle
  have hX : (n * unitsPerOne : ℚ) = unitsOf m := by
    rw [hunits, Nat.cast_mul]
  rw [(roundsTo_whole n).eq_of_unitsOf hmle hX, hX]

theorem word_le_infinity {n : ℕ} (hn : n < wordBound) : n * unitsPerOne ≤ unitsOf infinityBits := by
  have hbound : wordBound * unitsPerOne ≤ unitsOf infinityBits := by decide +kernel
  exact (Nat.mul_le_mul_right _ hn.le).trans hbound

/-! ## Powers of ten -/

theorem pow_ten_le_infinity : ∀ k < 309, 10 ^ k * unitsPerOne ≤ unitsOf infinityBits := by
  decide +kernel

theorem within_powerOfTen {k : ℕ} (hk : k < 309) :
    Within (1 + 1 / 2 ^ 53) (unitsOf (powerOfTen k).magnitude) (10 ^ k * unitsPerOne) := by
  have h := within_whole (Nat.pow_pos (by decide)) (pow_ten_le_infinity k hk)
  rwa [Nat.cast_pow, Nat.cast_ofNat] at h

theorem unitsOf_powerOfTen {k : ℕ} (hk : k ≤ 22) :
    (unitsOf (powerOfTen k).magnitude : ℚ) = 10 ^ k * unitsPerOne := by
  have hfive : 5 ^ k ≤ 2 ^ 53 := (Nat.pow_le_pow_right (by decide) hk).trans (by decide)
  have h := unitsOf_whole (show 10 ^ k = 5 ^ k * 2 ^ k by rw [← Nat.mul_pow]) hfive
    (pow_ten_le_infinity k (by omega))
  rwa [Nat.cast_pow, Nat.cast_ofNat] at h

theorem unitsOf_powerOfTen_pos {k : ℕ} (hk : k < 309) : 0 < unitsOf (powerOfTen k).magnitude := by
  have hten : (0 : ℚ) < 10 ^ k * unitsPerOne := mul_pos (by positivity) unitsPerOne_pos
  exact Nat.cast_pos.1 ((within_powerOfTen hk).pos (by norm_num) hten)

/-- The greatest power of ten that is divided by happens to be rounded by less. -/
theorem within_powerOfTen_greatest {k : ℕ} (hk : k = 308) :
    Within (1 + 1 / (10 * 2 ^ 53)) (unitsOf (powerOfTen k).magnitude) (10 ^ k * unitsPerOne) := by
  have hlow : 10 * 2 ^ 53 * unitsOf (powerOfTen k).magnitude ≤
      (10 * 2 ^ 53 + 1) * (10 ^ k * unitsPerOne) := by
    rw [hk]
    decide +kernel
  have hhigh : 10 * 2 ^ 53 * (10 ^ k * unitsPerOne) ≤
      (10 * 2 ^ 53 + 1) * unitsOf (powerOfTen k).magnitude := by
    rw [hk]
    decide +kernel
  have hlow' : (10 * 2 ^ 53 * unitsOf (powerOfTen k).magnitude : ℚ) ≤
      (10 * 2 ^ 53 + 1) * (10 ^ k * unitsPerOne) := by exact_mod_cast hlow
  have hhigh' : (10 * 2 ^ 53 * (10 ^ k * unitsPerOne) : ℚ) ≤
      (10 * 2 ^ 53 + 1) * unitsOf (powerOfTen k).magnitude := by exact_mod_cast hhigh
  constructor <;> linarith

/-! ## Products and quotients -/

section
variable {c c' a b s p : ℚ} (hs : 0 < s) (hp : 0 < p) (hc : 0 < c) (hc' : 0 < c')
  (ha : Within c a (s * unitsPerOne)) (hb : Within c' b (p * unitsPerOne))
include hs hp hc hc' ha hb

theorem within_product : Within (c * c') (a * b / unitsPerOne) (s * p * unitsPerOne) := by
  have hU := unitsPerOne_pos
  have hsU := mul_pos hs hU
  have hpU := mul_pos hp hU
  have h := (ha.mul (ha.pos hc hsU).le hsU.le (hb.pos hc' hpU).le hpU.le hb).scale (inv_pos.2 hU).le
  rw [← div_eq_mul_inv] at h
  rwa [show s * unitsPerOne * (p * unitsPerOne) * (unitsPerOne : ℚ)⁻¹ = s * p * unitsPerOne by
    field_simp] at h

theorem within_quotient : Within (c * c') (a * unitsPerOne / b) (s / p * unitsPerOne) := by
  have hU := unitsPerOne_pos
  have hsU := mul_pos hs hU
  have hpU := mul_pos hp hU
  have h := (ha.div (ha.pos hc hsU).le hsU.le (hb.pos hc' hpU) hpU hb).scale hU.le
  rwa [div_mul_eq_mul_div, mul_div_mul_right _ _ hU.ne'] at h

end

/-! ## A significand and a power of ten -/

/-- What is rounded near a number in the interval of `m` is `m` itself where it is exact. -/
theorem near_of_roundsTo {X D : ℚ} {r m s : ℕ} {E : ℤ} (h : RoundsTo X r) (hm : m < infinityBits)
    (hD : InInterval m D) (hexact : s ≤ 2 ^ 53 → -22 ≤ E → E ≤ 22 → X = D) (hE : -308 ≤ E)
    (hX : Within ((1 + 1 / 2 ^ 53) * (1 + 1 / 2 ^ 53)) X D) :
    r ≤ m + drift s E ∧ m ≤ r + drift s E := by
  unfold drift
  split
  · next hshort =>
    obtain rfl : r = m := by
      apply h.eq_of_inInterval hm
      rw [hexact hshort.1 hshort.2.1 hshort.2.2]
      exact hD
    exact ⟨le_rfl, le_rfl⟩
  · have hfactor : Within (1 + ((1 + 1 / 2 ^ 53) * (1 + 1 / 2 ^ 53) - 1)) X D := by
      rwa [add_sub_cancel]
    exact h.dist_le hm.le hD hfactor (by norm_num) (by norm_num)

theorem within_significand {s : ℕ} (hs : 0 < s) (hlt : s < wordBound) :
    Within (1 + 1 / 2 ^ 53) (unitsOf (ofRatio false s 1).magnitude) (s * unitsPerOne) :=
  within_whole hs (word_le_infinity hlt)

theorem unitsOf_significand {s : ℕ} (hs : s ≤ 2 ^ 53) :
    (unitsOf (ofRatio false s 1).magnitude : ℚ) = s * unitsPerOne := by
  have hshift : s = s * 2 ^ 0 := (Nat.mul_one s).symm
  have hword : 2 ^ 53 < wordBound := by decide
  exact unitsOf_whole hshift hs (word_le_infinity (hs.trans_lt hword))

/-- No number in range has a power of ten above the greatest one that is multiplied by. -/
theorem exponent_lt_of_inInterval {s m : ℕ} (hs : 0 < s) (hm : m < infinityBits) {E : ℤ}
    (hD : InInterval m (s * 10 ^ E * unitsPerOne)) : E < 309 := by
  obtain ⟨top, htop⟩ : ∃ top, top = 309 := ⟨_, rfl⟩
  have hinfinity : unitsOf infinityBits < 10 ^ top * unitsPerOne := by
    rw [htop]
    decide +kernel
  have hinfinity' : (unitsOf infinityBits : ℚ) < 10 ^ top * unitsPerOne := by
    exact_mod_cast hinfinity
  have hhigh := hD.high
  have hm0 := cast_unitsOf_le (show m ≤ infinityBits by omega)
  have hm1 := cast_unitsOf_le (show m + 1 ≤ infinityBits by omega)
  by_contra hE
  have hs' : (1 : ℚ) ≤ s := by exact_mod_cast hs
  have hlarge : (10 : ℚ) ^ top ≤ s * 10 ^ E := by
    rw [← zpow_natCast]
    calc (10 : ℚ) ^ (top : ℤ) ≤ 10 ^ E := zpow_le_zpow_right₀ (by norm_num) (by omega)
      _ ≤ s * 10 ^ E := le_mul_of_one_le_left (by positivity) hs'
  have := mul_le_mul_of_nonneg_right hlarge unitsPerOne_pos.le
  linarith

section
variable {s m : ℕ} (hs : 0 < s) (hlt : s < wordBound) (hm : m + 3 < infinityBits)
include hs hlt hm

/-- The significand is multiplied by a power of ten. -/
theorem scaledNear_multiplied {k : ℕ} (hk : k < 309)
    (hD : InInterval m (s * 10 ^ k * unitsPerOne)) : ScaledNear s k m := by
  have hU := unitsPerOne_pos
  have hX := within_product (by exact_mod_cast hs) (by positivity) (by norm_num) (by norm_num)
    (within_significand hs hlt) (within_powerOfTen hk)
  have hexact : s ≤ 2 ^ 53 → -22 ≤ (k : ℤ) → (k : ℤ) ≤ 22 →
      (unitsOf (ofRatio false s 1).magnitude * unitsOf (powerOfTen k).magnitude / unitsPerOne : ℚ) =
        s * 10 ^ k * unitsPerOne := by
    intro hshort _ hk22
    rw [unitsOf_significand hshort, unitsOf_powerOfTen (by omega)]
    field_simp
  have hnear := near_of_roundsTo (roundsTo_mul _ _) (by omega) hD hexact (by omega) hX
  have hfinite : ¬ (mul (ofRatio false s 1) (powerOfTen k)).isInfinite = true := by
    have := drift_le s k
    unfold isInfinite
    rw [beq_iff_eq]
    omega
  refine ⟨mul (ofRatio false s 1) (powerOfTen k), ?_, hnear⟩
  rw [scaleByTen?_of_pos hs (by omega), if_neg (by omega), if_neg (by omega), if_neg (by omega),
    Int.toNat_natCast, if_neg hfinite]

/-- The significand is divided by a power of ten. -/
theorem scaledNear_divided {k : ℕ} (hk : 0 < k) (hk' : k < 309)
    (hD : InInterval m (s / 10 ^ k * unitsPerOne)) : ScaledNear s (-k) m := by
  have hU := unitsPerOne_pos
  have hX := within_quotient (by exact_mod_cast hs) (by positivity) (by norm_num) (by norm_num)
    (within_significand hs hlt) (within_powerOfTen hk')
  have hexact : s ≤ 2 ^ 53 → -22 ≤ -(k : ℤ) → -(k : ℤ) ≤ 22 →
      (unitsOf (ofRatio false s 1).magnitude * unitsPerOne / unitsOf (powerOfTen k).magnitude : ℚ) =
        s / 10 ^ k * unitsPerOne := by
    intro hshort hk22 _
    rw [unitsOf_significand hshort, unitsOf_powerOfTen (by omega)]
    field_simp
  have hnear := near_of_roundsTo (roundsTo_div _ (unitsOf_powerOfTen_pos hk')) (by omega) hD hexact
    (by omega) hX
  refine ⟨div (ofRatio false s 1) (powerOfTen k), ?_, hnear⟩
  rw [scaleByTen?_of_pos hs (by omega), if_neg (by omega), if_pos (by omega), Int.neg_neg,
    Int.toNat_natCast]

end

/-! ## Two powers of ten -/

theorem unitsPerOne_div_bounds {top : ℕ} (htop : top = 308) :
    202 * 10 ^ 13 ≤ (unitsPerOne / 10 ^ top : ℚ) ∧ (wordBound : ℚ) ≤ 10 ^ top := by
  have hlow : 202 * 10 ^ 13 * 10 ^ top ≤ unitsPerOne := by
    rw [htop]
    decide +kernel
  have hhigh : wordBound ≤ 10 ^ top := by
    rw [htop]
    decide +kernel
  constructor
  · rw [le_div_iff₀ (by positivity)]
    exact_mod_cast hlow
  · exact_mod_cast hhigh

/-- After the first division the number may be low, but then the significand was exact. -/
theorem within_first_quotient {s top : ℕ} (htop : top = 308) (hs : 0 < s) (hlt : s < wordBound) :
    Within (1 + 27 / 10 * (1 / 2 ^ 53))
      (unitsOf (div (ofRatio false s 1) (powerOfTen top)).magnitude)
      (s / 10 ^ top * unitsPerOne) := by
  have hU := unitsPerOne_pos
  obtain ⟨hlow, hhigh⟩ := unitsPerOne_div_bounds htop
  have hs1 : (1 : ℚ) ≤ s := by exact_mod_cast hs
  have hpower := within_powerOfTen_greatest htop
  have hrounds := roundsTo_div (ofRatio false s 1)
    (unitsOf_powerOfTen_pos (show top < 309 by omega))
  have hQ : (s / 10 ^ top * unitsPerOne : ℚ) = s * (unitsPerOne / 10 ^ top) := by ring
  have hunit : (s / 10 ^ top * unitsPerOne : ℚ) ≤ unitsPerOne := by
    have hlt' : (s : ℚ) ≤ wordBound := by exact_mod_cast hlt.le
    refine mul_le_of_le_one_left hU.le ?_
    rw [div_le_one (by positivity)]
    exact hlt'.trans hhigh
  have hinfinity : (2 * unitsPerOne : ℚ) ≤ unitsOf infinityBits := by
    exact_mod_cast word_le_infinity (show 2 < wordBound by decide)
  rcases le_or_gt s (2 ^ 53) with hshort | hlong
  · have hX := within_quotient (by linarith) (by positivity) one_pos (by norm_num)
      (Within.of_eq le_rfl (Nat.cast_nonneg _) (unitsOf_significand hshort)) hpower
    have hlarge : 202 * 10 ^ 13 ≤ (s / 10 ^ top * unitsPerOne : ℚ) := by
      rw [hQ]
      exact hlow.trans (le_mul_of_one_le_left (by linarith) hs1)
    generalize (s / 10 ^ top * unitsPerOne : ℚ) = Q at *
    have hrounded := hrounds.within_low (by linarith [hX.2]) (by linarith [hX.1])
    exact (hrounded.trans (by norm_num) (by norm_num) hX).mono (Nat.cast_nonneg _) (by linarith)
      (by norm_num)
  · have hX := within_quotient (by linarith) (by positivity) (by norm_num) (by norm_num)
      (within_significand hs hlt) hpower
    have hlarge : 2 ^ 53 * (202 * 10 ^ 13) ≤ (s / 10 ^ top * unitsPerOne : ℚ) := by
      have hlong' : (2 ^ 53 : ℚ) ≤ s := by exact_mod_cast hlong.le
      rw [hQ]
      exact mul_le_mul hlong' hlow (by norm_num) (by linarith)
    generalize (s / 10 ^ top * unitsPerOne : ℚ) = Q at *
    have hrounded := hrounds.within (by linarith [hX.2]) (by linarith [hX.1])
    exact (hrounded.trans (by norm_num) (by norm_num) hX).mono (Nat.cast_nonneg _) (by linarith)
      (by norm_num)

section
variable {s m : ℕ} (hs : 0 < s) (hlt : s < wordBound) (hm : m + 3 < infinityBits)
include hs hlt hm

/-- The significand is divided by the greatest power of ten, and then by another. -/
theorem scaledNear_divided_twice {k top : ℕ} (htop : top = 308) (hk : 0 < k) (hk' : k ≤ 22)
    (hD : InInterval m (s / 10 ^ top / 10 ^ k * unitsPerOne)) :
    ScaledNear s (-(top + k : ℕ)) m := by
  have hX := within_quotient (by positivity) (by positivity) (by norm_num) one_pos
    (within_first_quotient htop hs hlt)
    (Within.of_eq le_rfl (Nat.cast_nonneg _) (unitsOf_powerOfTen hk'))
  rw [mul_one] at hX
  have hdrift : drift s (-(top + k : ℕ)) = 3 := by
    unfold drift
    rw [if_neg (by omega), if_neg (by omega)]
  have hnear := (roundsTo_div (div (ofRatio false s 1) (powerOfTen top))
    (unitsOf_powerOfTen_pos (show k < 309 by omega))).dist_le (t := 3) (by omega) hD hX
    (by norm_num) (by norm_num)
  refine ⟨div (div (ofRatio false s 1) (powerOfTen top)) (powerOfTen k), ?_, hdrift ▸ hnear⟩
  have hrest : (-(-((top + k : ℕ) : ℤ)) - 308).toNat = k := by omega
  rw [scaleByTen?_of_pos hs (by omega), if_pos (by omega), hrest, htop]

/-- **A decimal in the interval of a number is read as a number few steps from it.** -/
theorem scaledNear_of_inInterval {E : ℤ} (hE : -330 ≤ E)
    (hD : InInterval m (s * 10 ^ E * unitsPerOne)) : ScaledNear s E m := by
  have hlarge := exponent_lt_of_inInterval hs (by omega) hD
  rcases Int.lt_or_le E 0 with hneg | hnonneg
  · obtain ⟨k, rfl⟩ := Int.exists_eq_neg_ofNat hneg.le
    rw [zpow_neg, zpow_natCast, ← div_eq_mul_inv] at hD
    rcases Nat.lt_or_ge k 309 with hsmall | hgreat
    · exact scaledNear_divided hs hlt hm (by omega) hsmall hD
    · obtain ⟨top, htop⟩ : ∃ top, top = 308 := ⟨_, rfl⟩
      obtain ⟨j, rfl⟩ : ∃ j, k = top + j := ⟨k - top, by omega⟩
      rw [pow_add, ← div_div] at hD
      exact scaledNear_divided_twice hs hlt hm htop (by omega) (by omega) hD
  · obtain ⟨k, rfl⟩ := Int.eq_ofNat_of_zero_le hnonneg
    rw [zpow_natCast] at hD
    exact scaledNear_multiplied hs hlt hm (by omega) hD

end

end RecordRules.Json
