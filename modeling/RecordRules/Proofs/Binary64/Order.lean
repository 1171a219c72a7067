import Mathlib.Algebra.Order.Field.Rat
import RecordRules.Proofs.Binary64.Units

/-!
# Integers against double precision numbers

`orderInteger` compares the integer with the whole part of the number first and with
the fraction only where they are equal.  That is the order of the two values, at every
integer of 64 bits and every number, infinities among them:

    x.isNaN = false → orderInteger n x = some (compare n x.value)          (orderInteger_eq)
-/

namespace RecordRules.Binary64

/-- An integer and a value are compared as whole numbers of units. -/
theorem compare_units (k : ℤ) (x : Binary64) :
    compare (k * unitsPerOne) x.units = compare (k : ℚ) x.value := by
  have hU := unitsPerOne_pos
  unfold value
  rcases lt_trichotomy (k * unitsPerOne) x.units with h | h | h
  · have hq : (k : ℚ) < x.units / unitsPerOne := by
      rw [lt_div_iff₀ hU]
      exact_mod_cast h
    rw [compare_lt_iff_lt.2 h, compare_lt_iff_lt.2 hq]
  · have hq : (k : ℚ) = x.units / unitsPerOne := by
      rw [eq_div_iff hU.ne']
      exact_mod_cast h
    rw [compare_eq_iff_eq.2 h, compare_eq_iff_eq.2 hq]
  · have hq : (x.units : ℚ) / unitsPerOne < k := by
      rw [div_lt_iff₀ hU]
      exact_mod_cast h
    rw [compare_gt_iff_gt.2 h, compare_gt_iff_gt.2 hq]

/-- The whole part of a number between -2^63 and 2^63 is an integer of 64 bits. -/
theorem toInt_truncate {x : Binary64} (hlow : -(signBit * unitsPerOne : ℕ) ≤ x.units)
    (hhigh : x.units < (signBit * unitsPerOne : ℕ)) :
    (Int64.ofIntClamp x.truncate).toInt = x.truncate := by
  have hU : (0 : ℤ) < unitsPerOne := by exact_mod_cast unitsPerOne_pos
  have hmul := Int.mul_tdiv_add_tmod x.units unitsPerOne
  have hrem := Int.tmod_lt_of_pos x.units hU
  have hrem' := Int.lt_tmod_of_pos x.units hU
  have hsign : 0 ≤ x.units → 0 ≤ x.units.tmod unitsPerOne := Int.tmod_nonneg _
  push_cast at hlow hhigh
  unfold truncate
  generalize (unitsPerOne : ℤ) = U at *
  generalize x.units.tmod U = ρ at *
  generalize x.units.tdiv U = w at *
  have hS : (signBit : ℤ) = 9223372036854775808 := rfl
  apply Int64.toInt_ofIntClamp
  · show -9223372036854775808 ≤ w
    by_contra hlt
    have : U * w ≤ U * (-9223372036854775809) := Int.mul_le_mul_of_nonneg_left (by omega) hU.le
    rw [hS] at hlow
    linarith
  · show w ≤ 9223372036854775807
    by_contra hlt
    have : U * 9223372036854775808 ≤ U * w := Int.mul_le_mul_of_nonneg_left (by omega) hU.le
    rw [hS] at hhigh
    -- so far from zero the number is not negative, and its whole part is not above it
    have := hsign (by linarith)
    linarith

theorem orderInteger_eq (n : Int64) {x : Binary64} (hx : x.isNaN = false) :
    orderInteger n x = some (compare (n.toInt : ℚ) x.value) := by
  have hU : (0 : ℤ) < unitsPerOne := by exact_mod_cast unitsPerOne_pos
  have hS : (signBit : ℤ) = 9223372036854775808 := rfl
  have hn : n.toInt < 9223372036854775808 := n.toInt_lt
  have hn' : -9223372036854775808 ≤ n.toInt := n.le_toInt
  rw [← compare_units, orderInteger, hx]
  simp only [Bool.false_eq_true, if_false]
  split
  · next h =>
    have hlt : n.toInt * unitsPerOne < x.units := by
      refine lt_of_lt_of_le ?_ h
      push_cast
      exact Int.mul_lt_mul_of_pos_right (by omega) hU
    rw [compare_lt_iff_lt.2 hlt]
  · next hhigh =>
    split
    · next h =>
      have hgt : x.units < n.toInt * unitsPerOne := by
        refine lt_of_lt_of_le h ?_
        push_cast
        rw [← Int.neg_mul]
        exact Int.mul_le_mul_of_nonneg_right (by omega) hU.le
      rw [compare_gt_iff_gt.2 hgt]
    · next hlow =>
      rw [toInt_truncate (not_lt.1 hlow) (not_le.1 hhigh)]
      have hmul := Int.mul_tdiv_add_tmod x.units unitsPerOne
      have hrem := Int.tmod_lt_of_pos x.units hU
      have hrem' := Int.lt_tmod_of_pos x.units hU
      rw [← truncate] at hmul
      -- the whole part is less than one away from the number, on either side of zero
      rcases lt_trichotomy n.toInt x.truncate with h | h | h
      · have hstep : (n.toInt + 1) * unitsPerOne ≤ x.truncate * unitsPerOne :=
          Int.mul_le_mul_of_nonneg_right (by omega) hU.le
        have hlt : n.toInt * unitsPerOne < x.units := by linarith
        rw [compare_lt_iff_lt.2 h, compare_lt_iff_lt.2 hlt]
      · rw [compare_eq_iff_eq.2 h, h]
      · have hstep : (x.truncate + 1) * unitsPerOne ≤ n.toInt * unitsPerOne :=
          Int.mul_le_mul_of_nonneg_right (by omega) hU.le
        have hgt : x.units < n.toInt * unitsPerOne := by linarith
        rw [compare_gt_iff_gt.2 h, compare_gt_iff_gt.2 hgt]

end RecordRules.Binary64
