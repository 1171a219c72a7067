import Mathlib.Order.WithBotTop
import RecordRules.Proofs.Binary64.Nearest
import RecordRules.Proofs.Binary64.Order

/-!
# Comparisons are exact

The format reads a word by its three fields: as a dyadic rational, as an infinity, or as no
number at all (`reading`).  Both comparisons are the order of what is read, in the rational
numbers with an infinity at each end:

    order x y = x.reading.bind fun v => y.reading.map fun w => compare v w   (order_eq_compare)
    orderInteger n x = x.reading.map fun v => compare n v             (orderInteger_eq_compare)

The cast of the whole part, on the way of the second, is reached only where it loses nothing
(`orderIntegerChecked?_eq`).  An integer that is a double precision number is compared as that
number (`orderInteger_eq_order`).
-/

namespace RecordRules.Binary64

/-! ## The format -/

/-- The eleven bits of the exponent. -/
def exponentField (x : Binary64) : ℕ := x.bits.toNat / 2 ^ 52 % 2 ^ 11

/-- The fifty-two bits of the fraction. -/
def fractionField (x : Binary64) : ℕ := x.bits.toNat % 2 ^ 52

/-- The rational number that a finite word stands for: a fraction in units of 2^-1074 where the
exponent field is zero, and else with a leading one, scaled by the exponent. -/
def finiteValue (x : Binary64) : ℚ :=
  signFactor x.isNegative *
    if x.exponentField = 0 then (x.fractionField : ℚ) * 2 ^ (-1074 : ℤ)
    else (2 ^ 52 + x.fractionField : ℚ) * 2 ^ (x.exponentField - 1075 : ℤ)

/-- What a word stands for, if it is a number. -/
def reading (x : Binary64) : Option (WithBotTop ℚ) :=
  if x.exponentField = 2047 then
    if x.fractionField = 0 then some (if x.isNegative then ⊥ else ⊤) else none
  else some x.finiteValue

/-! ## Fields -/

theorem exponentField_le (x : Binary64) : x.exponentField ≤ 2047 := by
  unfold exponentField
  omega

theorem fractionField_lt (x : Binary64) : x.fractionField < leadingBit := by
  unfold fractionField leadingBit
  omega

theorem magnitude_eq (x : Binary64) :
    x.magnitude = x.exponentField * leadingBit + x.fractionField := by
  unfold magnitude exponentField fractionField signBit leadingBit
  omega

theorem infinityBits_eq : infinityBits = 2047 * leadingBit := by decide

theorem isNaN_iff {x : Binary64} :
    x.isNaN = true ↔ x.exponentField = 2047 ∧ x.fractionField ≠ 0 := by
  have he := exponentField_le x
  have hf := fractionField_lt x
  unfold isNaN
  rw [decide_eq_true_iff, infinityBits_eq, magnitude_eq]
  unfold leadingBit at *
  omega

/-- The fields say how many units a word stands for. -/
theorem unitsOf_magnitude (x : Binary64) :
    unitsOf x.magnitude =
      if x.exponentField = 0 then x.fractionField
      else (leadingBit + x.fractionField) * 2 ^ (x.exponentField - 1) := by
  have hf := fractionField_lt x
  have hexponent : x.magnitude / leadingBit = x.exponentField := by
    rw [magnitude_eq]
    unfold leadingBit at *
    omega
  have hfraction : x.magnitude % leadingBit = x.fractionField := by
    rw [magnitude_eq]
    unfold leadingBit at *
    omega
  unfold unitsOf
  simp only [hexponent, hfraction, Nat.shiftLeft_eq]

theorem cast_one_shiftLeft (k : ℕ) : ((1 <<< k : ℕ) : ℚ) = 2 ^ (k : ℤ) := by
  rw [Nat.one_shiftLeft, Nat.cast_pow, Nat.cast_ofNat, zpow_natCast]

theorem value_eq_finiteValue (x : Binary64) : x.value = x.finiteValue := by
  have hU : (unitsPerOne : ℚ) = 2 ^ (1074 : ℤ) := cast_one_shiftLeft 1074
  have hL : (leadingBit : ℚ) = 2 ^ 52 := by norm_num [leadingBit]
  rw [value_eq, finiteValue, unitsOf_magnitude, hU]
  split
  · rw [div_eq_mul_inv, ← zpow_neg]
  · next hpos =>
    -- the leading one is in place of the first binade, so the shift is one less than the field
    obtain ⟨e, he⟩ : ∃ e, x.exponentField = e + 1 := ⟨x.exponentField - 1, by omega⟩
    have hscale : (2 : ℚ) ^ (e : ℤ) / 2 ^ (1074 : ℤ) = 2 ^ ((e + 1 : ℕ) - 1075 : ℤ) := by
      rw [← zpow_sub₀ two_ne_zero]
      congr 1
      push_cast
      ring
    rw [he, Nat.add_sub_cancel, Nat.cast_mul, Nat.cast_add, hL, Nat.cast_pow, Nat.cast_ofNat,
      mul_div_assoc, ← zpow_natCast 2 e, hscale]

/-! ## Readings by units -/

/-- What a number of units stands for, infinite from the units of infinity on. -/
def ofUnits (u : ℤ) : WithBotTop ℚ :=
  if (unitsOf infinityBits : ℤ) ≤ u then ⊤
  else if u ≤ -(unitsOf infinityBits : ℤ) then ⊥
  else ((u / unitsPerOne : ℚ) : WithBotTop ℚ)

theorem ofUnits_of_lt {u : ℤ} (hu : u.natAbs < unitsOf infinityBits) :
    ofUnits u = ((u / unitsPerOne : ℚ) : WithBotTop ℚ) := by
  rw [ofUnits, if_neg (by omega), if_neg (by omega)]

/-- Between the infinities, both included, more units stand for a greater number. -/
theorem ofUnits_lt_ofUnits {u v : ℤ} (hu : u.natAbs ≤ unitsOf infinityBits)
    (hv : v.natAbs ≤ unitsOf infinityBits) (huv : u < v) : ofUnits u < ofUnits v := by
  have hU := unitsPerOne_pos
  -- of two different numbers of units in the range, only the lower can be at its lower end
  by_cases hbot : u = -(unitsOf infinityBits : ℤ)
  · have hu' : ofUnits u = ⊥ := by rw [ofUnits, if_neg (by omega), if_pos (by omega)]
    rw [hu', bot_lt_iff_ne_bot, ofUnits]
    split
    · simp
    · rw [if_neg (by omega)]
      simp
  · rw [ofUnits_of_lt (show u.natAbs < unitsOf infinityBits by omega)]
    by_cases htop : v = unitsOf infinityBits
    · rw [ofUnits, if_pos (by omega)]
      exact WithBot.coe_lt_coe.2 (WithTop.coe_lt_top _)
    · rw [ofUnits_of_lt (show v.natAbs < unitsOf infinityBits by omega), WithBotTop.coe_lt_coe,
        div_lt_div_iff_of_pos_right hU]
      exact_mod_cast huv

theorem compare_ofUnits {u v : ℤ} (hu : u.natAbs ≤ unitsOf infinityBits)
    (hv : v.natAbs ≤ unitsOf infinityBits) :
    compare (ofUnits u) (ofUnits v) = compare u v := by
  rcases lt_trichotomy u v with h | rfl | h
  · rw [compare_lt_iff_lt.2 h, compare_lt_iff_lt.2 (ofUnits_lt_ofUnits hu hv h)]
  · rw [compare_eq_iff_eq.2 rfl, compare_eq_iff_eq.2 rfl]
  · rw [compare_gt_iff_gt.2 h, compare_gt_iff_gt.2 (ofUnits_lt_ofUnits hv hu h)]

theorem natAbs_units (x : Binary64) : x.units.natAbs = unitsOf x.magnitude := by
  unfold units
  split <;> omega

/-- No word that is a number lies beyond the infinities. -/
theorem natAbs_units_le {x : Binary64} (hx : x.isNaN = false) :
    x.units.natAbs ≤ unitsOf infinityBits := by
  rw [natAbs_units]
  exact unitsOf_strictMono.monotone (isNaN_eq_false_iff.1 hx)

theorem reading_of_isNaN {x : Binary64} (hx : x.isNaN = true) : x.reading = none := by
  obtain ⟨he, hf⟩ := isNaN_iff.1 hx
  rw [reading, if_pos he, if_neg hf]

theorem reading_of_infinite {x : Binary64} (he : x.exponentField = 2047)
    (hf : x.fractionField = 0) : x.reading = some (ofUnits x.units) := by
  have hm : x.magnitude = infinityBits := by
    rw [magnitude_eq, he, hf, Nat.add_zero, infinityBits_eq]
  have hpos : 0 < unitsOf infinityBits := by
    rw [← unitsOf_zero]
    exact unitsOf_strictMono (by decide)
  rw [reading, if_pos he, if_pos hf]
  cases hs : x.isNegative with
  | false =>
    have hunits : x.units = unitsOf infinityBits := by rw [units, hs, hm]; rfl
    show some ⊤ = _
    rw [hunits, ofUnits, if_pos le_rfl]
  | true =>
    have hunits : x.units = -(unitsOf infinityBits : ℤ) := by rw [units, hs, hm]; rfl
    show some ⊥ = _
    rw [hunits, ofUnits, if_neg (by omega), if_pos le_rfl]

theorem reading_of_finite {x : Binary64} (he : x.exponentField ≠ 2047) :
    x.reading = some (ofUnits x.units) := by
  have hm : x.magnitude < infinityBits := by
    have he' := exponentField_le x
    have hf := fractionField_lt x
    rw [magnitude_eq, infinityBits_eq]
    unfold leadingBit at *
    omega
  have hlt : x.units.natAbs < unitsOf infinityBits := by
    rw [natAbs_units]
    exact unitsOf_strictMono hm
  rw [reading, if_neg he, ofUnits_of_lt hlt, ← value_eq_finiteValue, value]

/-- The fields and the number of units say the same of every word that is a number. -/
theorem reading_eq_ofUnits {x : Binary64} (hx : x.isNaN = false) :
    x.reading = some (ofUnits x.units) := by
  by_cases he : x.exponentField = 2047
  · have hf : x.fractionField = 0 := by
      by_contra hf
      rw [isNaN_iff.2 ⟨he, hf⟩] at hx
      cases hx
    exact reading_of_infinite he hf
  · exact reading_of_finite he

/-! ## Comparisons -/

/-- Two numbers are compared as they read; a word that is no number has no order. -/
theorem order_eq_compare (x y : Binary64) :
    order x y = x.reading.bind fun v => y.reading.map fun w => compare v w := by
  unfold order
  cases hx : x.isNaN with
  | true => rw [reading_of_isNaN hx]; rfl
  | false =>
    rw [reading_eq_ofUnits hx]
    cases hy : y.isNaN with
    | true => rw [reading_of_isNaN hy]; rfl
    | false =>
      rw [reading_eq_ofUnits hy, Option.bind_some, Option.map_some,
        compare_ofUnits (natAbs_units_le hx) (natAbs_units_le hy)]
      rfl

theorem signBit_mul_unitsPerOne_lt : signBit * unitsPerOne < unitsOf infinityBits := by
  decide +kernel

/-- An integer of 64 bits lies between the infinities. -/
theorem natAbs_toInt_mul_lt (n : Int64) :
    (n.toInt * unitsPerOne).natAbs < unitsOf infinityBits := by
  have hn : n.toInt.natAbs ≤ signBit := by
    have hlow : -9223372036854775808 ≤ n.toInt := n.le_toInt
    have hhigh : n.toInt < 9223372036854775808 := n.toInt_lt
    unfold signBit
    omega
  rw [Int.natAbs_mul, Int.natAbs_natCast]
  exact lt_of_le_of_lt (Nat.mul_le_mul_right _ hn) signBit_mul_unitsPerOne_lt

theorem ofUnits_toInt (n : Int64) :
    ofUnits (n.toInt * unitsPerOne) = ((n.toInt : ℚ) : WithBotTop ℚ) := by
  have hU := unitsPerOne_pos
  rw [ofUnits_of_lt (natAbs_toInt_mul_lt n), Int.cast_mul, Int.cast_natCast,
    mul_div_cancel_right₀ _ hU.ne']

theorem orderInteger_eq_compare (n : Int64) (x : Binary64) :
    orderInteger n x = x.reading.map fun v => compare ((n.toInt : ℚ) : WithBotTop ℚ) v := by
  cases hx : x.isNaN with
  | true =>
    rw [reading_of_isNaN hx, orderInteger, if_pos hx]
    rfl
  | false =>
    rw [reading_eq_ofUnits hx, Option.map_some, ← ofUnits_toInt,
      compare_ofUnits (natAbs_toInt_mul_lt n).le (natAbs_units_le hx), compare_units,
      orderInteger_eq n hx]

/-! ## Comparisons without an order -/

theorem reading_eq_none_iff {x : Binary64} : x.reading = none ↔ x.isNaN = true := by
  refine ⟨fun hnone => ?_, reading_of_isNaN⟩
  by_contra hx
  rw [reading_eq_ofUnits (Bool.eq_false_iff.2 hx)] at hnone
  cases hnone

theorem orderInteger_eq_none_iff {n : Int64} {x : Binary64} :
    orderInteger n x = none ↔ x.isNaN = true := by
  rw [orderInteger_eq_compare, Option.map_eq_none_iff, reading_eq_none_iff]

theorem order_eq_none_iff {x y : Binary64} :
    order x y = none ↔ x.isNaN = true ∨ y.isNaN = true := by
  rw [order, ← Bool.or_eq_true, ite_eq_left_iff]
  simp only [reduceCtorEq, imp_false, not_not]

/-! ## The cast of the whole part -/

/-- The integer of 64 bits that has the value, if there is one. -/
def toInt64? (k : ℤ) : Option Int64 :=
  if Int64.minValue.toInt ≤ k ∧ k ≤ Int64.maxValue.toInt then some (Int64.ofInt k) else none

/-- The steps of `orderInteger` with a cast that stops them where it would lose the value. -/
def orderIntegerChecked? (n : Int64) (x : Binary64) : Option (Option Ordering) :=
  if x.isNaN then some none
  else if (signBit * unitsPerOne : ℕ) ≤ x.units then some (some .lt)
  else if x.units < -(signBit * unitsPerOne : ℕ) then some (some .gt)
  else
    (toInt64? x.truncate).map fun whole =>
      match compare n.toInt whole.toInt with
      | .eq => some (compare (x.truncate * unitsPerOne) x.units)
      | o => some o

theorem toInt64?_toInt (n : Int64) : toInt64? n.toInt = some n := by
  rw [toInt64?, if_pos ⟨n.minValue_le_toInt, n.toInt_le⟩, Int64.ofInt_toInt]

/-- The cast is reached only where the whole part is an integer of 64 bits. -/
theorem orderIntegerChecked?_eq (n : Int64) (x : Binary64) :
    orderIntegerChecked? n x = some (orderInteger n x) := by
  unfold orderIntegerChecked? orderInteger
  split
  · rfl
  · split
    · rfl
    · next hhigh =>
      split
      · rfl
      · next hlow =>
        have hwhole := toInt_truncate (not_lt.1 hlow) (not_le.1 hhigh)
        generalize Int64.ofIntClamp x.truncate = whole at *
        rw [← hwhole, toInt64?_toInt]
        rfl

/-- **Integers against numbers.**  A word that is no number has no order against an integer.
With every other word the integer is compared exactly, as the format reads the word.  On the
way the whole part is cast only if it is an integer of 64 bits. -/
theorem orderInteger_exact (n : Int64) (x : Binary64) :
    (orderInteger n x = none ↔ x.exponentField = 2047 ∧ x.fractionField ≠ 0) ∧
    (orderInteger n x = x.reading.map fun v => compare ((n.toInt : ℚ) : WithBotTop ℚ) v) ∧
    orderIntegerChecked? n x = some (orderInteger n x) := by
  refine ⟨?_, orderInteger_eq_compare n x, orderIntegerChecked?_eq n x⟩
  rw [orderInteger_eq_none_iff, isNaN_iff]

-- Of the two bounds of the integers only the lower one is a number that an integer equals.
example : orderInteger Int64.maxValue (ofMagnitude false 0x43e0000000000000) = some .lt ∧
    orderInteger Int64.minValue (ofMagnitude true 0x43e0000000000000) = some .eq := by
  decide +kernel

/-! ## Integers that are numbers -/

theorem value_of_reading {x : Binary64} {q : ℚ} (h : x.reading = some (q : WithBotTop ℚ)) :
    x.isNaN = false ∧ x.value = q := by
  unfold reading at h
  split at h
  · split at h
    · have hq := Option.some.inj h
      split at hq <;> cases hq
    · cases h
  · next he =>
    constructor
    · rw [Bool.eq_false_iff, Ne, isNaN_iff]
      exact fun hx => he hx.1
    · rw [value_eq_finiteValue]
      exact WithBotTop.coe_injective (Option.some.inj h)

theorem reading_congr {x y : Binary64} (hx : x.isNaN = false) (hy : y.isNaN = false)
    (h : x.value = y.value) : x.reading = y.reading := by
  have hunits : x.units = y.units := by
    unfold value at h
    rw [div_left_inj' unitsPerOne_pos.ne'] at h
    exact_mod_cast h
  rw [reading_eq_ofUnits hx, reading_eq_ofUnits hy, hunits]

/-- The number nearest to a number is that number. -/
theorem IsNearest.value_eq {x y : Binary64} {q : ℚ} (hx : x.IsNearest q) (hy : y.isNaN = false)
    (h : y.value = q) : x.value = q := by
  have hdist := hx.dist_le y hy
  rw [h, sub_self, abs_zero] at hdist
  have hzero : q - x.value = 0 := abs_eq_zero.1 (le_antisymm hdist (abs_nonneg _))
  linarith

theorem isNearest_ofInt (n : ℤ) : (ofInt n).IsNearest n := by
  have hq : signFactor (n < 0) * ((n.natAbs : ℚ) / (1 : ℕ)) = n := by
    rcases lt_or_ge n 0 with h | h
    · simp [signFactor, h, abs_of_neg h]
    · simp [signFactor, h.not_gt, abs_of_nonneg h]
  rw [← hq]
  exact isNearest_ofRatio _ _ Nat.one_pos

/-- An integer that is a number is converted into that number. -/
theorem reading_ofInt {n : ℤ} {y : Binary64} (h : y.reading = some ((n : ℚ) : WithBotTop ℚ)) :
    (ofInt n).reading = some ((n : ℚ) : WithBotTop ℚ) := by
  obtain ⟨hy, hvalue⟩ := value_of_reading h
  have hnearest := isNearest_ofInt n
  rw [← h]
  exact reading_congr hnearest.isNaN_eq hy ((hnearest.value_eq hy hvalue).trans hvalue.symm)

/-- An integer that is a number is compared as that number. -/
theorem orderInteger_eq_order {n : Int64} {x : Binary64}
    (h : x.reading = some ((n.toInt : ℚ) : WithBotTop ℚ)) (y : Binary64) :
    orderInteger n y = order x y := by
  rw [orderInteger_eq_compare, order_eq_compare, h, Option.bind_some]

end RecordRules.Binary64
