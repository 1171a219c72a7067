import Mathlib.Tactic.NormNum.Pow
import RecordRules.Proofs.Binary64.Nearest

/-!
# Rounding by the steps of the grid

What rounding does to a number of units is decided by the points half way between
neighbours of the grid (`RoundsTo`).  From that:

    X on the grid at m → RoundsTo X r → r = m                        (RoundsTo.eq_of_unitsOf)
    InInterval m X → RoundsTo X r → r = m                            (RoundsTo.eq_of_inInterval)
    2 ^ 52 ≤ X → RoundsTo X r → unitsOf r and X agree to a factor 1 + 2^-53  (RoundsTo.within)

The steps of the grid never shrink, so a factor close to one moves a number only few
steps: when `X` and a number in the interval of `m` agree to the factor `1 + ε`, where
`ε` is about `t` times 2^-53, then `X` rounds at most `t` steps away from `m`
(`RoundsTo.dist_le`).
-/

namespace RecordRules.Binary64

/-- The magnitude to which a number of units is rounded: beyond every half-way point that
it exceeds, and at a half-way point the even one of the neighbours. -/
structure RoundsTo (X : ℚ) (r : ℕ) : Prop where
  le_infinity : r ≤ infinityBits
  above : ∀ b < infinityBits, (unitsOf b + unitsOf (b + 1) : ℚ) < 2 * X → b < r
  below : ∀ b, 2 * X < (unitsOf b + unitsOf (b + 1) : ℚ) → r ≤ b
  even : ∀ b < infinityBits, 2 * X = (unitsOf b + unitsOf (b + 1) : ℚ) →
    (r = b ∨ r = b + 1) ∧ r % 2 = 0

/-- A number of units in the interval of a magnitude, which reaches half way to its
neighbours and includes its ends where the last bit is even. -/
structure InInterval (m : ℕ) (X : ℚ) : Prop where
  low : ∀ p, m = p + 1 → (unitsOf p + unitsOf m : ℚ) ≤ 2 * X
  high : 2 * X ≤ (unitsOf m + unitsOf (m + 1) : ℚ)
  strict : m % 2 = 1 → (∀ p, m = p + 1 → (unitsOf p + unitsOf m : ℚ) < 2 * X) ∧
    2 * X < (unitsOf m + unitsOf (m + 1) : ℚ)

/-- Two numbers agree to a factor. -/
def Within (c a b : ℚ) : Prop := a ≤ c * b ∧ b ≤ c * a

/-! ## What is rounded -/

theorem cast_unitsOf_le {a b : ℕ} (h : a ≤ b) : (unitsOf a : ℚ) ≤ unitsOf b :=
  Nat.cast_le.2 (unitsOf_strictMono.monotone h)

theorem cast_unitsOf_lt {a b : ℕ} (h : a < b) : (unitsOf a : ℚ) < unitsOf b :=
  Nat.cast_lt.2 (unitsOf_strictMono h)

theorem roundsTo_magnitudeOfRatio (num : ℕ) {den : ℕ} (hden : 0 < den) :
    RoundsTo (num * unitsPerOne / den) (magnitudeOfRatio num den) := by
  obtain ⟨m, r, hmag, hlow, hhigh, hr, hhalf⟩ := magnitudeOfRatio_neighbours num hden
  generalize (num : ℚ) * unitsPerOne / den = X at *
  rw [hmag]
  refine ⟨Nat.min_le_right _ _, ?_, ?_, ?_⟩
  · intro b hb hmid
    refine lt_min ?_ hb
    by_contra hrb
    rcases hr with ⟨rfl, h⟩ | ⟨rfl, h⟩
    · have h1 := cast_unitsOf_le (show r ≤ b by omega)
      have h2 := cast_unitsOf_le (show r + 1 ≤ b + 1 by omega)
      linarith
    · have h1 := cast_unitsOf_le (show m + 1 ≤ b by omega)
      have h2 := cast_unitsOf_le (Nat.le_succ b)
      linarith
  · intro b hmid
    refine (Nat.min_le_left _ _).trans ?_
    by_contra hrb
    rcases hr with ⟨rfl, h⟩ | ⟨rfl, h⟩
    · have h1 := cast_unitsOf_le (show b + 1 ≤ r by omega)
      have h2 := cast_unitsOf_le (Nat.le_succ b)
      linarith
    · have h1 := cast_unitsOf_le (show b ≤ m by omega)
      have h2 := cast_unitsOf_le (show b + 1 ≤ m + 1 by omega)
      linarith
  · intro b hb hmid
    have hstep := cast_unitsOf_lt (Nat.lt_succ_self b)
    -- a half-way point lies between no other neighbours
    obtain rfl : m = b := by
      rcases Nat.lt_trichotomy m b with h | h | h
      · have := cast_unitsOf_le (show m + 1 ≤ b by omega)
        linarith
      · exact h
      · have := cast_unitsOf_le (show b + 1 ≤ m by omega)
        linarith
    have hrm : r = m ∨ r = m + 1 := hr.imp And.left And.left
    rw [Nat.min_eq_left (by omega)]
    exact ⟨hrm, hhalf (by linarith)⟩

theorem roundsTo_ofRatio (negative : Bool) (num : ℕ) {den : ℕ} (hden : 0 < den) :
    RoundsTo (num * unitsPerOne / den) (ofRatio negative num den).magnitude := by
  have hle := magnitudeOfRatio_le num den
  rw [ofRatio, magnitude_ofMagnitude (by unfold signBit infinityBits at *; omega)]
  exact roundsTo_magnitudeOfRatio num hden

theorem roundsTo_mul (x y : Binary64) :
    RoundsTo (unitsOf x.magnitude * unitsOf y.magnitude / unitsPerOne) (mul x y).magnitude := by
  have hU := unitsPerOne_pos
  have hrounds := roundsTo_ofRatio (x.isNegative != y.isNegative)
    (unitsOf x.magnitude * unitsOf y.magnitude)
    (show 0 < unitsPerOne * unitsPerOne by decide +kernel)
  push_cast at hrounds
  rwa [mul_div_mul_right _ _ hU.ne'] at hrounds

theorem roundsTo_div (x : Binary64) {y : Binary64} (hy : 0 < unitsOf y.magnitude) :
    RoundsTo (unitsOf x.magnitude * unitsPerOne / unitsOf y.magnitude) (div x y).magnitude :=
  roundsTo_ofRatio _ _ hy

/-! ## Numbers on the grid -/

section
variable {X : ℚ} {r : ℕ} (h : RoundsTo X r)
include h

/-- The half-way points around the rounded number. -/
theorem RoundsTo.bounds :
    (∀ p, r = p + 1 → (unitsOf p + unitsOf r : ℚ) ≤ 2 * X) ∧
      (r < infinityBits → 2 * X ≤ (unitsOf r + unitsOf (r + 1) : ℚ)) := by
  constructor
  · rintro p rfl
    by_contra hlt
    have := h.below p (not_le.1 hlt)
    omega
  · intro hr
    by_contra hlt
    exact absurd (h.above r hr (not_le.1 hlt)) (lt_irrefl r)

theorem RoundsTo.le_of_unitsOf_le {m : ℕ} (hm : m ≤ infinityBits) (hX : (unitsOf m : ℚ) ≤ X) :
    m ≤ r := by
  cases m with
  | zero => exact Nat.zero_le _
  | succ p =>
    have hstep := cast_unitsOf_lt (Nat.lt_succ_self p)
    exact h.above p hm (by linarith)

theorem RoundsTo.le_of_le_unitsOf {m : ℕ} (hX : X ≤ unitsOf m) : r ≤ m := by
  have hstep := cast_unitsOf_lt (Nat.lt_succ_self m)
  exact h.below m (by linarith)

theorem RoundsTo.eq_of_unitsOf {m : ℕ} (hm : m ≤ infinityBits) (hX : X = unitsOf m) : r = m :=
  le_antisymm (h.le_of_le_unitsOf hX.le) (h.le_of_unitsOf_le hm hX.ge)

/-- What lies in the interval of a magnitude rounds to it. -/
theorem RoundsTo.eq_of_inInterval {m : ℕ} (hm : m < infinityBits) (hX : InInterval m X) :
    r = m := by
  apply le_antisymm
  · rcases hX.high.lt_or_eq with hlt | heq
    · exact h.below m hlt
    · obtain ⟨hr, heven⟩ := h.even m hm heq
      by_contra hne
      exact absurd heq (hX.strict (by omega)).2.ne
  · cases m with
    | zero => exact Nat.zero_le _
    | succ p =>
      rcases (hX.low p rfl).lt_or_eq with hlt | heq
      · exact h.above p (by omega) hlt
      · obtain ⟨hr, heven⟩ := h.even p (by omega) heq.symm
        by_contra hne
        exact absurd heq ((hX.strict (by omega)).1 p rfl).ne

end

/-- A significand of 53 bits stands on the grid, however it is shifted. -/
theorem exists_unitsOf_eq {n : ℕ} (hn : n ≤ 2 * leadingBit) (shift : ℕ) :
    ∃ m, unitsOf m = n * 2 ^ shift := by
  induction shift generalizing n with
  | zero =>
    refine ⟨0 * leadingBit + n, ?_⟩
    rw [unitsOf_shifted hn (.inl rfl)]
  | succ shift ih =>
    rcases Nat.lt_or_ge n leadingBit with hlt | hge
    · obtain ⟨m, hm⟩ := @ih (2 * n) (by omega)
      exact ⟨m, by rw [hm]; ring⟩
    · exact ⟨(shift + 1) * leadingBit + n, unitsOf_shifted hn (.inr hge)⟩

/-! ## Steps -/

/-- Above a binade no step is shorter than its steps. -/
theorem unitsOf_add_le_succ {shift m : ℕ} (hm : shift = 0 ∨ (shift + 1) * leadingBit ≤ m) :
    unitsOf m + 2 ^ shift ≤ unitsOf (m + 1) := by
  obtain ⟨s, q, rfl, hq, hnormal⟩ := exists_shifted m
  have hshift : shift ≤ s := by unfold leadingBit at *; omega
  have hpow : 2 ^ shift ≤ 2 ^ s := Nat.pow_le_pow_right (by norm_num) hshift
  rw [unitsOf_shifted hq.le hnormal, Nat.add_assoc, unitsOf_shifted (by omega) (by omega),
    Nat.succ_mul]
  omega

/-- So the grid lies above the line that its steps at a point would continue. -/
theorem add_mul_le_unitsOf {shift q : ℕ} (hq : q ≤ 2 * leadingBit)
    (hnormal : shift = 0 ∨ leadingBit ≤ q) (i : ℕ) :
    (q + i) * 2 ^ shift ≤ unitsOf (shift * leadingBit + q + i) := by
  induction i with
  | zero => rw [Nat.add_zero, Nat.add_zero, unitsOf_shifted hq hnormal]
  | succ i ih =>
    have hstep : unitsOf (shift * leadingBit + q + i) + 2 ^ shift ≤
        unitsOf (shift * leadingBit + q + i + 1) :=
      unitsOf_add_le_succ (by rw [Nat.succ_mul]; omega)
    calc (q + (i + 1)) * 2 ^ shift = (q + i) * 2 ^ shift + 2 ^ shift := by ring
      _ ≤ unitsOf (shift * leadingBit + q + i) + 2 ^ shift := Nat.add_le_add_right ih _
      _ ≤ unitsOf (shift * leadingBit + q + (i + 1)) := by rwa [← Nat.add_assoc _ i 1]

/-- A number up to the half-way point after `p`, enlarged by a factor that is worth less
than `t` steps there, stays below the half-way point `t` steps on. -/
theorem lt_midpoint_of_factor {p t : ℕ} {A B ε : ℚ} (hA : 2 * A ≤ (unitsOf p + unitsOf (p + 1) : ℚ))
    (hB : B ≤ (1 + ε) * A) (hε : 0 ≤ ε) (ht : (2 ^ 54 - 1) * ε < 2 * t) :
    2 * B < (unitsOf (p + t) + unitsOf (p + t + 1) : ℚ) := by
  obtain ⟨shift, q, rfl, hq, hnormal⟩ := exists_shifted p
  have hnext : unitsOf (shift * leadingBit + q + 1) = (q + 1) * 2 ^ shift := by
    rw [Nat.add_assoc, unitsOf_shifted hq (by omega)]
  have hlow := @Nat.cast_le ℚ _ _ _ _ _ _ _ |>.2 (add_mul_le_unitsOf hq.le hnormal t)
  have hhigh := @Nat.cast_le ℚ _ _ _ _ _ _ _ |>.2 (add_mul_le_unitsOf hq.le hnormal (t + 1))
  rw [unitsOf_shifted hq.le hnormal, hnext] at hA
  generalize unitsOf (shift * leadingBit + q + t) = low at *
  rw [← Nat.add_assoc] at hhigh
  generalize unitsOf (shift * leadingBit + q + t + 1) = high at *
  push_cast at hA hlow hhigh
  have hq' : (2 * q + 1 : ℚ) ≤ 2 ^ 54 - 1 := by
    have hq2 : 2 * q + 2 ≤ 2 ^ 54 := by unfold leadingBit at hq; omega
    have : (2 * q + 2 : ℚ) ≤ 2 ^ 54 := by exact_mod_cast hq2
    linarith
  have hmoved : (2 * q + 1) * ε < 2 * t := (mul_le_mul_of_nonneg_right hq' hε).trans_lt ht
  have hstep : (0 : ℚ) < 2 ^ shift := by positivity
  calc 2 * B ≤ (1 + ε) * (2 * A) := by linarith
    _ ≤ (1 + ε) * ((2 * q + 1) * 2 ^ shift) := by
      apply mul_le_mul_of_nonneg_left _ (by linarith)
      linarith
    _ = (2 * q + 1 + (2 * q + 1) * ε) * 2 ^ shift := by ring
    _ < (2 * q + 1 + 2 * t) * 2 ^ shift := by gcongr
    _ = (q + t) * 2 ^ shift + (q + t + 1) * 2 ^ shift := by ring
    _ ≤ low + high := add_le_add hlow hhigh

/-- A number close to one in the interval of `m` rounds to few steps from `m`. -/
theorem RoundsTo.dist_le {X D ε : ℚ} {m r t : ℕ} (h : RoundsTo X r) (hm : m ≤ infinityBits)
    (hD : InInterval m D) (hX : Within (1 + ε) X D) (hε : 0 ≤ ε) (ht : (2 ^ 54 - 1) * ε < 2 * t) :
    r ≤ m + t ∧ m ≤ r + t := by
  constructor
  · exact h.below (m + t) (lt_midpoint_of_factor hD.high hX.1 hε ht)
  · by_contra hfar
    obtain ⟨p, rfl⟩ : ∃ p, m = p + t + 1 := ⟨m - t - 1, by omega⟩
    have hmid : (unitsOf p + unitsOf (p + 1) : ℚ) < 2 * X := by
      by_contra hle
      have hfactor := lt_midpoint_of_factor (not_lt.1 hle) hX.2 hε ht
      linarith [hD.low (p + t) rfl]
    have := h.above p (by omega) hmid
    omega

/-! ## Errors -/

theorem Within.of_eq {c a b : ℚ} (hc : 1 ≤ c) (ha : 0 ≤ a) (h : a = b) : Within c a b := by
  subst h
  exact ⟨le_mul_of_one_le_left ha hc, le_mul_of_one_le_left ha hc⟩

theorem Within.trans {c c' a b d : ℚ} (hc : 0 ≤ c) (hc' : 0 ≤ c') (h : Within c a b)
    (h' : Within c' b d) : Within (c * c') a d := by
  constructor
  · calc a ≤ c * b := h.1
      _ ≤ c * (c' * d) := by gcongr; exact h'.1
      _ = c * c' * d := by ring
  · calc d ≤ c' * b := h'.2
      _ ≤ c' * (c * a) := by gcongr; exact h.2
      _ = c * c' * a := by ring

theorem Within.mono {c c' a b : ℚ} (ha : 0 ≤ a) (hb : 0 ≤ b) (hc : c ≤ c') (h : Within c a b) :
    Within c' a b :=
  ⟨h.1.trans (mul_le_mul_of_nonneg_right hc hb), h.2.trans (mul_le_mul_of_nonneg_right hc ha)⟩

theorem Within.mul {c c' a b a' b' : ℚ} (ha : 0 ≤ a) (hb : 0 ≤ b) (ha' : 0 ≤ a') (hb' : 0 ≤ b')
    (h : Within c a b) (h' : Within c' a' b') : Within (c * c') (a * a') (b * b') := by
  constructor
  · calc a * a' ≤ (c * b) * (c' * b') := mul_le_mul h.1 h'.1 ha' (ha.trans h.1)
      _ = c * c' * (b * b') := by ring
  · calc b * b' ≤ (c * a) * (c' * a') := mul_le_mul h.2 h'.2 hb' (hb.trans h.2)
      _ = c * c' * (a * a') := by ring

theorem Within.scale {c a b k : ℚ} (hk : 0 ≤ k) (h : Within c a b) : Within c (a * k) (b * k) := by
  constructor
  · calc a * k ≤ c * b * k := mul_le_mul_of_nonneg_right h.1 hk
      _ = c * (b * k) := mul_assoc _ _ _
  · calc b * k ≤ c * a * k := mul_le_mul_of_nonneg_right h.2 hk
      _ = c * (a * k) := mul_assoc _ _ _

theorem Within.pos {c a b : ℚ} (hc : 0 < c) (hb : 0 < b) (h : Within c a b) : 0 < a :=
  pos_of_mul_pos_right (hb.trans_le h.2) hc.le

theorem Within.inv {c a b : ℚ} (ha : 0 < a) (hb : 0 < b) (h : Within c a b) :
    Within c a⁻¹ b⁻¹ := by
  constructor
  · rw [inv_le_iff_one_le_mul₀ ha, mul_comm c, mul_assoc, ← div_eq_inv_mul, le_div_iff₀ hb, one_mul]
    exact h.2
  · rw [inv_le_iff_one_le_mul₀ hb, mul_comm c, mul_assoc, ← div_eq_inv_mul, le_div_iff₀ ha, one_mul]
    exact h.1

theorem Within.div {c c' a b a' b' : ℚ} (ha : 0 ≤ a) (hb : 0 ≤ b) (ha' : 0 < a') (hb' : 0 < b')
    (h : Within c a b) (h' : Within c' a' b') : Within (c * c') (a / a') (b / b') := by
  rw [div_eq_mul_inv, div_eq_mul_inv]
  exact h.mul ha hb (inv_pos.2 ha').le (inv_pos.2 hb').le (h'.inv ha' hb')

/-- In the lowest binades a step is one unit, and rounding moves by half of it. -/
theorem RoundsTo.abs_sub_le {X : ℚ} {r : ℕ} (h : RoundsTo X r) (hX0 : 0 ≤ X) (hX : X ≤ 2 ^ 53) :
    |(unitsOf r : ℚ) - X| ≤ 1 / 2 := by
  have hunits : ∀ m ≤ 2 * leadingBit, unitsOf m = m := by
    intro m hm
    have := @unitsOf_shifted 0 m hm (.inl rfl)
    simpa using this
  have htop : unitsOf (2 * leadingBit) = 2 ^ 53 := by decide
  have hr : r ≤ 2 * leadingBit := h.le_of_le_unitsOf (by rw [htop]; exact_mod_cast hX)
  obtain ⟨hlow, hhigh⟩ := h.bounds
  rw [abs_le]
  constructor
  · rcases hr.lt_or_eq with hlt | rfl
    · have hmid := hhigh (by unfold leadingBit infinityBits at *; omega)
      rw [hunits r hr, hunits (r + 1) hlt] at hmid
      rw [hunits r hr]
      push_cast at hmid
      linarith
    · rw [htop]
      push_cast
      linarith
  · cases r with
    | zero =>
      rw [unitsOf_zero, Nat.cast_zero]
      linarith
    | succ p =>
      have hmid := hlow p rfl
      rw [hunits _ hr, hunits p (by omega)] at hmid
      rw [hunits _ hr]
      push_cast at hmid ⊢
      linarith

/-- Above the lowest binade a step is at most one part in 2^52. -/
theorem unitsOf_succ_le {m : ℕ} (hm : leadingBit ≤ m) :
    (unitsOf (m + 1) : ℚ) ≤ (1 + 1 / 2 ^ 52) * unitsOf m := by
  obtain ⟨shift, q, rfl, hq, hnormal⟩ := exists_shifted m
  have hq' : leadingBit ≤ q := by
    rcases hnormal with rfl | hle
    · omega
    · exact hle
  have hq'' : (2 ^ 52 : ℚ) ≤ q := by exact_mod_cast hq'
  rw [unitsOf_shifted hq.le hnormal, Nat.add_assoc, unitsOf_shifted hq (by omega)]
  push_cast
  rw [← mul_assoc]
  gcongr
  linarith

/-- There half a step is at most one part in 2^53. -/
theorem RoundsTo.within {X : ℚ} {r : ℕ} (h : RoundsTo X r) (hX : 2 ^ 52 ≤ X)
    (hinfinity : X ≤ unitsOf infinityBits) : Within (1 + 1 / 2 ^ 53) (unitsOf r) X := by
  obtain ⟨hlow, hhigh⟩ := h.bounds
  have hL : (unitsOf leadingBit : ℚ) = 2 ^ 52 := by
    have : unitsOf leadingBit = 2 ^ 52 := by decide
    exact_mod_cast this
  have hr : leadingBit ≤ r := h.le_of_unitsOf_le (by decide) (by rw [hL]; exact hX)
  rcases lt_trichotomy X (unitsOf r) with hup | hon | hdown
  · obtain ⟨p, rfl⟩ : ∃ p, r = p + 1 := ⟨r - 1, by unfold leadingBit at hr; omega⟩
    have hp : leadingBit ≤ p := by
      by_contra hlt
      rw [show p + 1 = leadingBit by omega] at hup
      linarith
    have hmid := hlow p rfl
    have hstep := unitsOf_succ_le hp
    constructor <;> linarith
  · exact Within.of_eq (by norm_num) (by linarith) hon.symm
  · have hmid := hhigh (h.le_infinity.lt_of_ne (by rintro rfl; linarith))
    have hstep := unitsOf_succ_le hr
    constructor <;> linarith

/-- Somewhat below, half a unit is little more. -/
theorem RoundsTo.within_low {X : ℚ} {r : ℕ} (h : RoundsTo X r) (hX : 2 * 10 ^ 15 ≤ X)
    (hinfinity : X ≤ unitsOf infinityBits) :
    Within (1 + 5 / 2 * (1 / 2 ^ 53)) (unitsOf r) X := by
  rcases le_or_gt (2 ^ 52) X with hhigh | hlow
  · exact (h.within hhigh hinfinity).mono (Nat.cast_nonneg _) (by linarith) (by norm_num)
  · obtain ⟨hdown, hup⟩ := abs_le.1 (h.abs_sub_le (by linarith) (by linarith))
    constructor <;> linarith

end RecordRules.Binary64
