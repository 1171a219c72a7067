import Mathlib.Data.Rat.Cast.Order
import Mathlib.Order.Monotone.Basic
import Mathlib.Tactic.Linarith
import Mathlib.Tactic.Ring
import RecordRules.Binary64

/-!
# The grid of double precision numbers

The numbers that magnitude bits stand for grow with the bits (`unitsOf_strictMono`),
by the step of their binade (`unitsOf_succ`).  A word is split as a shift and a
significand `q`, and then stands for `q` shifted (`unitsOf_shifted`).
-/

namespace RecordRules.Binary64

/-! ## Magnitudes -/

/-- With a significand from one leading bit up to two, `shift` counts the binades. -/
theorem unitsOf_shifted {shift q : Nat} (hq : q ≤ 2 * leadingBit)
    (hnormal : shift = 0 ∨ leadingBit ≤ q) :
    unitsOf (shift * leadingBit + q) = q * 2 ^ shift := by
  unfold unitsOf
  simp only [Nat.shiftLeft_eq]
  rcases Nat.lt_or_ge q leadingBit with hlow | hhigh
  · obtain rfl : shift = 0 := by omega
    rw [Nat.zero_mul, Nat.zero_add, Nat.div_eq_of_lt hlow, Nat.mod_eq_of_lt hlow, if_pos rfl,
      pow_zero, mul_one]
  · rcases Nat.lt_or_ge q (2 * leadingBit) with hlt | hge
    · have hexp : (shift * leadingBit + q) / leadingBit = shift + 1 := by
        unfold leadingBit at *; omega
      have hfrac : leadingBit + (shift * leadingBit + q) % leadingBit = q := by
        unfold leadingBit at *; omega
      rw [hexp, hfrac, if_neg (by omega), Nat.add_sub_cancel]
    · -- two leading bits carry into the exponent
      have hexp : (shift * leadingBit + q) / leadingBit = shift + 1 + 1 := by
        unfold leadingBit at *; omega
      have hfrac : (shift * leadingBit + q) % leadingBit = 0 := by
        unfold leadingBit at *; omega
      obtain rfl : q = 2 * leadingBit := by omega
      rw [hexp, hfrac, if_neg (by omega), Nat.add_sub_cancel]
      ring

/-- Every word splits so, its significand below two leading bits. -/
theorem exists_shifted (m : Nat) :
    ∃ shift q, m = shift * leadingBit + q ∧ q < 2 * leadingBit ∧
      (shift = 0 ∨ leadingBit ≤ q) := by
  refine ⟨m / leadingBit - 1, m - (m / leadingBit - 1) * leadingBit, ?_, ?_, ?_⟩ <;>
    unfold leadingBit <;> omega

theorem unitsOf_succ (m : Nat) : ∃ shift, unitsOf (m + 1) = unitsOf m + 2 ^ shift := by
  obtain ⟨shift, q, rfl, hq, hnormal⟩ := exists_shifted m
  refine ⟨shift, ?_⟩
  rw [Nat.add_assoc, unitsOf_shifted (by omega) (by omega), unitsOf_shifted (by omega) hnormal]
  ring

theorem unitsOf_strictMono : StrictMono unitsOf := by
  apply strictMono_nat_of_lt_succ
  intro m
  obtain ⟨shift, h⟩ := unitsOf_succ m
  have : 0 < 2 ^ shift := Nat.two_pow_pos shift
  omega

@[simp] theorem unitsOf_zero : unitsOf 0 = 0 := by decide

/-! ## Words -/

theorem toNat_ofMagnitude {negative : Bool} {m : Nat} (hm : m < signBit) :
    (ofMagnitude negative m).bits.toNat = if negative then signBit + m else m := by
  have hS : signBit = 9223372036854775808 := rfl
  unfold ofMagnitude
  apply UInt64.toNat_ofNat_of_lt
  show _ < 18446744073709551616
  split <;> omega

@[simp] theorem isNegative_ofMagnitude {negative : Bool} {m : Nat} (hm : m < signBit) :
    (ofMagnitude negative m).isNegative = negative := by
  unfold isNegative
  rw [toNat_ofMagnitude hm]
  cases negative
  · simpa using hm
  · simp

@[simp] theorem magnitude_ofMagnitude {negative : Bool} {m : Nat} (hm : m < signBit) :
    (ofMagnitude negative m).magnitude = m := by
  unfold magnitude
  rw [toNat_ofMagnitude hm]
  cases negative
  · simpa using Nat.mod_eq_of_lt hm
  · simpa using Nat.mod_eq_of_lt hm

/-- A word is its sign and its magnitude. -/
theorem ext_magnitude {x y : Binary64} (hsign : x.isNegative = y.isNegative)
    (hmagnitude : x.magnitude = y.magnitude) : x = y := by
  have hx := x.bits.toNat_lt
  have hy := y.bits.toNat_lt
  have hbits : x.bits.toNat = y.bits.toNat := by
    unfold isNegative magnitude signBit at *
    rw [decide_eq_decide] at hsign
    omega
  exact congrArg Binary64.mk (UInt64.toNat_inj.1 hbits)

theorem isNaN_eq_false_iff {x : Binary64} : x.isNaN = false ↔ x.magnitude ≤ infinityBits := by
  simp [isNaN]

/-! ## Values -/

/-- The number that a word stands for, where infinity counts as 2^1024. -/
def value (x : Binary64) : ℚ := x.units / unitsPerOne

/-- The sign as a factor. -/
def signFactor (negative : Bool) : ℚ := if negative then -1 else 1

theorem unitsPerOne_pos : (0 : ℚ) < (unitsPerOne : ℚ) := by
  have : 0 < unitsPerOne := by decide
  exact_mod_cast this

theorem value_eq (x : Binary64) :
    x.value = signFactor x.isNegative * (unitsOf x.magnitude / unitsPerOne) := by
  unfold value units signFactor
  cases x.isNegative
  · simp
  · simp [neg_div]

theorem value_ofMagnitude {negative : Bool} {m : Nat} (hm : m < signBit) :
    (ofMagnitude negative m).value = signFactor negative * (unitsOf m / unitsPerOne) := by
  rw [value_eq, isNegative_ofMagnitude hm, magnitude_ofMagnitude hm]

end RecordRules.Binary64
