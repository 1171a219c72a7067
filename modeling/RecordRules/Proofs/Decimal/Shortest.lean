import RecordRules.Decimal.Shortest
import RecordRules.Proofs.Binary64.Steps
import RecordRules.Proofs.Decimal.Nearest

/-!
# The shortest decimal rounds to its number

The interval of a magnitude reaches half way to its neighbours (`low_interval`,
`high_interval`).  A grid whose step is at most half the step of the numbers has a
multiple in it (`nearestMultiple?_ne_none`), and the twenty-four grids that are tried
reach one.  So the search ends with a decimal in the interval, which has few digits,
since a grid ten times as coarse is too coarse, and an exponent within reach:

    0 < m → m < infinityBits → IsShort m (shortest tie m)              (isShort_shortest)

A decimal in the interval rounds to the number (`magnitudeOfRatio_shortest`).
-/

namespace RecordRules.Decimal

open Binary64

/-- A power of ten in quarters of the unit. -/
def quarters (exponent : ℤ) : ℚ := 10 ^ exponent * (4 * unitsPerOne)

/-- A number of quarters of the unit that lies in the interval. -/
structure Interval.Holds (i : Interval) (x : ℚ) : Prop where
  low : i.low ≤ x
  high : x ≤ i.high
  strict : i.closed = false → i.low < x ∧ x < i.high

/-- A decimal in the interval of a magnitude, of few digits and not too fine. -/
structure IsShort (m : ℕ) (d : Scaled) : Prop where
  holds : (interval m).Holds (d.significand * quarters d.exponent)
  significand_pos : 0 < d.significand
  significand_lt : d.significand < 2 ^ 60
  le_exponent : -324 ≤ d.exponent

/-! ## Grids -/

theorem quarters_pos (exponent : ℤ) : 0 < quarters exponent :=
  mul_pos (zpow_pos (by norm_num) _) (mul_pos (by norm_num) unitsPerOne_pos)

theorem quarters_succ (exponent : ℤ) : quarters (exponent + 1) = 10 * quarters exponent := by
  unfold quarters
  rw [zpow_add_one₀ (by norm_num)]
  ring

/-- The quotient that the search computes with. -/
theorem mul_quarters (exponent : ℤ) :
    ((Nat.pow 10 (-exponent).toNat : ℕ) : ℚ) * quarters exponent =
      ((Nat.pow 10 exponent.toNat * (4 * unitsPerOne) : ℕ) : ℚ) := by
  rw [quarters, ← mul_assoc, mul_pow_toNat]
  push_cast
  rfl

namespace Interval

theorem holds_iff (i : Interval) (n : ℕ) (exponent : ℤ) :
    i.holds (n * (Nat.pow 10 exponent.toNat * (4 * unitsPerOne))) (Nat.pow 10 (-exponent).toNat) =
      true ↔ i.Holds (n * quarters exponent) := by
  have hq := mul_quarters exponent
  have hdown : 0 < Nat.pow 10 (-exponent).toNat := Nat.pow_pos (by norm_num)
  have hdown' : (0 : ℚ) < (Nat.pow 10 (-exponent).toNat : ℕ) := by exact_mod_cast hdown
  generalize Nat.pow 10 (-exponent).toNat = down at *
  generalize Nat.pow 10 exponent.toNat * (4 * unitsPerOne) = up at *
  have hscale : ((n * up : ℕ) : ℚ) = n * quarters exponent * down := by
    push_cast
    rw [← hq]
    ring
  have hle : ∀ l : ℕ, l * down ≤ n * up ↔ (l : ℚ) ≤ n * quarters exponent := by
    intro l
    rw [← @Nat.cast_le ℚ, hscale, Nat.cast_mul]
    exact mul_le_mul_iff_of_pos_right hdown'
  have hge : ∀ l : ℕ, n * up ≤ l * down ↔ n * quarters exponent ≤ (l : ℚ) := by
    intro l
    rw [← @Nat.cast_le ℚ, hscale, Nat.cast_mul]
    exact mul_le_mul_iff_of_pos_right hdown'
  unfold holds
  split
  · next hclosed =>
    rw [Bool.and_eq_true, decide_eq_true_iff, decide_eq_true_iff, hle, hge]
    exact ⟨fun h => ⟨h.1, h.2, by simp [hclosed]⟩, fun h => ⟨h.low, h.high⟩⟩
  · next hopen =>
    rw [Bool.and_eq_true, decide_eq_true_iff, decide_eq_true_iff, ← not_le, ← not_le, hle, hge,
      not_le, not_le]
    exact ⟨fun h => ⟨h.1.le, h.2.le, fun _ => h⟩, fun h => h.strict (by simpa using hopen)⟩

theorem holds_of_nearestMultiple? {i : Interval} {tie : Tie} {exponent : ℤ} {n : ℕ}
    (h : i.nearestMultiple? tie exponent = some n) : i.Holds (n * quarters exponent) := by
  rw [← holds_iff]
  unfold nearestMultiple? at h
  dsimp only at h
  generalize i.middle * Nat.pow 10 (-exponent).toNat / _ = q at h
  have hq : q % 2 = 0 ∨ q % 2 = 1 := by omega
  split at h
  · cases h
  · next hlow _ =>
    obtain rfl := Option.some.inj h
    exact hlow
  · next hhigh =>
    obtain rfl := Option.some.inj h
    exact hhigh
  · next hlow hhigh =>
    -- of the two neighbours either may be taken
    have hn : n = q ∨ n = q + 1 := by
      split at h
      · exact .inl (Option.some.inj h).symm
      · split at h
        · exact .inr (Option.some.inj h).symm
        · split at h
          · exact .inr (Option.some.inj h).symm
          · have := Option.some.inj h
            omega
    rcases hn with rfl | rfl
    · exact hlow
    · exact hhigh

/-- A grid that is no coarser than the lower half of the interval has a multiple there. -/
theorem nearestMultiple?_ne_none {i : Interval} (tie : Tie) {exponent : ℤ}
    (hlow : i.low + quarters exponent ≤ i.middle) (hhigh : i.middle < i.high) :
    i.nearestMultiple? tie exponent ≠ none := by
  have hfloor : i.Holds ((i.middle * Nat.pow 10 (-exponent).toNat /
      (Nat.pow 10 exponent.toNat * (4 * unitsPerOne)) : ℕ) * quarters exponent) := by
    have hq := mul_quarters exponent
    have hdown : (0 : ℚ) < (Nat.pow 10 (-exponent).toNat : ℕ) := by
      have : 0 < Nat.pow 10 (-exponent).toNat := Nat.pow_pos (by norm_num)
      exact_mod_cast this
    have hup : 0 < Nat.pow 10 exponent.toNat * (4 * unitsPerOne) :=
      Nat.mul_pos (Nat.pow_pos (by norm_num)) (by decide)
    generalize Nat.pow 10 (-exponent).toNat = down at *
    generalize Nat.pow 10 exponent.toNat * (4 * unitsPerOne) = up at *
    have hle : (i.middle * down / up : ℕ) * quarters exponent ≤ i.middle := by
      have h := Nat.div_mul_le_self (i.middle * down) up
      have h' : ((i.middle * down / up : ℕ) : ℚ) * up ≤ i.middle * down := by exact_mod_cast h
      rw [← hq] at h'
      refine le_of_mul_le_mul_right ?_ hdown
      linarith
    have hlt : (i.middle : ℚ) < ((i.middle * down / up : ℕ) + 1) * quarters exponent := by
      have h := Nat.lt_div_mul_add (a := i.middle * down) hup
      have h' : (i.middle * down : ℚ) < ((i.middle * down / up : ℕ) : ℚ) * up + up := by
        exact_mod_cast h
      rw [← hq] at h'
      refine lt_of_mul_lt_mul_right ?_ hdown.le
      linarith
    have hhigh' : (i.middle : ℚ) < i.high := by exact_mod_cast hhigh
    exact ⟨by linarith, by linarith, fun _ => ⟨by linarith, by linarith⟩⟩
  have htrue := (holds_iff _ _ _).2 hfloor
  unfold nearestMultiple?
  dsimp only
  rw [htrue]
  split
  · next h _ => cases h
  · simp
  · next h _ => cases h
  · split
    · simp
    · split
      · simp
      · split <;> simp

/-- The search ends on the first grid that has a multiple in the interval. -/
theorem exists_coarsest {i : Interval} {tie : Tie} {grids k : ℕ} (hk : k < grids) {exponent : ℤ}
    (h : i.nearestMultiple? tie (exponent - k) ≠ none) :
    ∃ j n, j ≤ k ∧ i.coarsest tie grids exponent = ⟨n, exponent - j⟩ ∧
      i.nearestMultiple? tie (exponent - j) = some n ∧
      ∀ l < j, i.nearestMultiple? tie (exponent - l) = none := by
  induction grids generalizing k exponent with
  | zero => omega
  | succ grids ih =>
    cases hfirst : i.nearestMultiple? tie exponent with
    | some n =>
      refine ⟨0, n, Nat.zero_le _, ?_, by simpa using hfirst, fun l hl => ?_⟩
      · rw [coarsest, hfirst]
        simp
      · exact absurd hl (Nat.not_lt_zero l)
    | none =>
      cases k with
      | zero => simp [hfirst] at h
      | succ k =>
        have hshift : ∀ j : ℕ, exponent - (j + 1 : ℕ) = exponent - 1 - j := by
          intro j
          omega
        rw [hshift] at h
        obtain ⟨j, n, hj, hcoarsest, hn, hnone⟩ := ih (by omega) h
        refine ⟨j + 1, n, by omega, ?_, by rwa [hshift], ?_⟩
        · rw [coarsest, hfirst, hshift]
          exact hcoarsest
        · intro l hl
          cases l with
          | zero => simpa using hfirst
          | succ l =>
            rw [hshift]
            exact hnone l (by omega)

end Interval

/-! ## The interval of a magnitude -/

/-- The step after a magnitude. -/
theorem unitsOf_succ_eq (m : ℕ) : unitsOf (m + 1) = unitsOf m + 2 ^ (m / leadingBit - 1) := by
  obtain ⟨shift, q, rfl, hq, hnormal⟩ := exists_shifted m
  have hshift : (shift * leadingBit + q) / leadingBit - 1 = shift := by
    unfold leadingBit at *
    omega
  rw [hshift, unitsOf_shifted hq.le hnormal, Nat.add_assoc, unitsOf_shifted hq (by omega),
    Nat.succ_mul]

theorem high_interval (m : ℕ) : (interval m).high = 2 * (unitsOf m + unitsOf (m + 1)) := by
  rw [unitsOf_succ_eq]
  unfold interval
  dsimp only
  rw [Nat.shiftLeft_eq]
  omega

/-- Below a power of two the step is half the one above. -/
theorem low_interval (p : ℕ) : (interval (p + 1)).low = 2 * (unitsOf p + unitsOf (p + 1)) := by
  rw [unitsOf_succ_eq]
  have hbelow : (if (p + 1) % leadingBit = 0 && 1 < (p + 1) / leadingBit then
      2 ^ ((p + 1) / leadingBit - 1) else 2 * 2 ^ ((p + 1) / leadingBit - 1)) =
      2 * 2 ^ (p / leadingBit - 1) := by
    split
    · next h =>
      rw [Bool.and_eq_true, decide_eq_true_iff, decide_eq_true_iff] at h
      have hexponent : (p + 1) / leadingBit - 1 = p / leadingBit - 1 + 1 := by
        unfold leadingBit at *
        omega
      rw [hexponent, Nat.pow_succ, Nat.mul_comm]
    · next h =>
      rw [Bool.and_eq_true, decide_eq_true_iff, decide_eq_true_iff] at h
      have hexponent : (p + 1) / leadingBit - 1 = p / leadingBit - 1 := by
        unfold leadingBit at *
        omega
      rw [hexponent]
  unfold interval
  dsimp only
  rw [Nat.shiftLeft_eq, Nat.one_mul, hbelow, unitsOf_succ_eq]
  omega

/-- A number is at most 2^53 of the steps below it. -/
theorem unitsOf_succ_le_steps (p : ℕ) :
    unitsOf (p + 1) + 2 ^ 53 * unitsOf p ≤ 2 ^ 53 * unitsOf (p + 1) := by
  obtain ⟨shift, q, rfl, hq, hnormal⟩ := exists_shifted p
  rw [unitsOf_shifted hq.le hnormal, Nat.add_assoc, unitsOf_shifted hq (by omega)]
  have hq' : q + 1 ≤ 2 ^ 53 := hq
  calc (q + 1) * 2 ^ shift + 2 ^ 53 * (q * 2 ^ shift)
      ≤ 2 ^ 53 * 2 ^ shift + 2 ^ 53 * (q * 2 ^ shift) := by gcongr
    _ = 2 ^ 53 * ((q + 1) * 2 ^ shift) := by ring

/-- The next number is at most twice as great. -/
theorem unitsOf_succ_le_double {m : ℕ} (hm : 0 < m) : unitsOf (m + 1) ≤ 2 * unitsOf m := by
  obtain ⟨shift, q, rfl, hq, hnormal⟩ := exists_shifted m
  have hq0 : 0 < q := by
    rcases hnormal with rfl | hle
    · omega
    · exact Nat.lt_of_lt_of_le (by decide) hle
  rw [unitsOf_shifted hq.le hnormal, Nat.add_assoc, unitsOf_shifted hq (by omega), ← Nat.mul_assoc]
  exact Nat.mul_le_mul_right _ (by omega)

/-! ## The grids that are tried -/

/-- The first grid is coarser than the number, and the last one fine enough. -/
theorem powerAbove_checked :
    ((List.range 2101).all fun bits =>
      decide (2 ^ bits * Nat.pow 10 (-powerAbove bits).toNat ≤
        Nat.pow 10 (powerAbove bits).toNat * (4 * unitsPerOne)) &&
      decide (2 ^ 56 * (Nat.pow 10 (powerAbove bits - 23).toNat * (4 * unitsPerOne)) ≤
        2 ^ bits * Nat.pow 10 (-(powerAbove bits - 23)).toNat)) = true := by
  decide +kernel

theorem powerAbove_bounds {bits : ℕ} (h : bits ≤ 2100) :
    2 ^ bits ≤ quarters (powerAbove bits) ∧
      2 ^ 56 * quarters (powerAbove bits - 23) ≤ 2 ^ bits := by
  have hall := List.all_eq_true.1 powerAbove_checked bits (List.mem_range.2 (by omega))
  rw [Bool.and_eq_true, decide_eq_true_iff, decide_eq_true_iff] at hall
  obtain ⟨hfirst, hlast⟩ := hall
  rw [← @Nat.cast_le ℚ, ← mul_quarters] at hfirst
  rw [← @Nat.cast_le ℚ, Nat.cast_mul, ← mul_quarters] at hlast
  have hdown : ∀ e : ℤ, (0 : ℚ) < (Nat.pow 10 e.toNat : ℕ) := by
    intro e
    have : 0 < Nat.pow 10 e.toNat := Nat.pow_pos (by norm_num)
    exact_mod_cast this
  constructor
  · refine le_of_mul_le_mul_left ?_ (hdown (-powerAbove bits))
    push_cast at hfirst ⊢
    linarith
  · refine le_of_mul_le_mul_left ?_ (hdown (-(powerAbove bits - 23)))
    push_cast at hlast ⊢
    linarith

theorem quarters_le_two : quarters (-324) ≤ 2 := by
  have hcompare : 4 * unitsPerOne ≤ 2 * 10 ^ 324 := by decide +kernel
  have hcompare' : (4 * unitsPerOne : ℚ) ≤ 2 * 10 ^ 324 := by exact_mod_cast hcompare
  rw [quarters, zpow_neg, zpow_ofNat, inv_mul_le_iff₀ (by positivity), mul_comm _ (2 : ℚ)]
  exact hcompare'

/-- The middle of an interval has three bits or more, and less than infinity has. -/
theorem log2_middle_bounds {m : ℕ} (hm : 0 < m) (hfinite : m < infinityBits) :
    2 ≤ (interval m).middle.log2 ∧ (interval m).middle.log2 < 2100 := by
  have hmiddle : (interval m).middle = 4 * unitsOf m := rfl
  have hpos := unitsOf_strictMono hm
  have hlt := unitsOf_strictMono hfinite
  rw [unitsOf_zero] at hpos
  rw [Numeral.unitsOf_infinityBits] at hlt
  have hne : (interval m).middle ≠ 0 := by omega
  constructor
  · rw [Nat.le_log2 hne]
    omega
  · generalize hbits : 2100 = bits
    have htop : 4 * (2 ^ 1024 * unitsPerOne) = 2 ^ bits := by rw [← hbits]; decide +kernel
    exact (Nat.log2_lt hne).2 ((Nat.mul_lt_mul_of_pos_left hlt (by decide)).trans_eq htop)

/-! ## The search -/

section
variable (tie : Tie) {p : ℕ}

/-- A grid as fine as twice the step below the number has a multiple in its interval. -/
theorem nearestMultiple?_interval_ne_none {e : ℤ}
    (he : quarters e ≤ 2 * (unitsOf (p + 1) - unitsOf p)) :
    (interval (p + 1)).nearestMultiple? tie e ≠ none := by
  have hmiddle : (interval (p + 1)).middle = 4 * unitsOf (p + 1) := rfl
  have hnext : unitsOf (p + 1) < unitsOf (p + 1 + 1) := unitsOf_strictMono (Nat.lt_succ_self _)
  apply Interval.nearestMultiple?_ne_none
  · rw [hmiddle, low_interval]
    push_cast
    linarith
  · rw [hmiddle, high_interval]
    omega

/-- The search starts on a grid coarser than the number, and ends on the first that has a
multiple in the interval; those before it are coarser than the numbers are. -/
theorem exists_shortest (hfinite : p + 1 < infinityBits) :
    ∃ start j n, shortest tie (p + 1) = ⟨n, start - (j : ℕ)⟩ ∧ -324 ≤ start ∧
      4 * unitsOf (p + 1) < quarters start ∧
      (interval (p + 1)).Holds (n * quarters (start - j)) ∧
      ∀ l < j, 2 * (unitsOf (p + 1) - unitsOf p) < quarters (start - l) := by
  obtain ⟨hlow, hhigh⟩ := log2_middle_bounds (Nat.succ_pos p) hfinite
  obtain ⟨hfirst, hlast⟩ :=
    powerAbove_bounds (show (interval (p + 1)).middle.log2 + 1 ≤ 2100 from hhigh)
  have hmiddle : (interval (p + 1)).middle = 4 * unitsOf (p + 1) := rfl
  have hbelow : (4 * unitsOf (p + 1) : ℚ) < 2 ^ ((interval (p + 1)).middle.log2 + 1) := by
    have := @Nat.lt_log2_self (interval (p + 1)).middle
    rw [hmiddle] at this ⊢
    exact_mod_cast this
  have habove : (2 ^ ((interval (p + 1)).middle.log2 + 1) : ℚ) ≤ 2 * (4 * unitsOf (p + 1)) := by
    have := @Nat.log2_self_le (interval (p + 1)).middle (by rintro h; simp [h] at hlow)
    rw [pow_succ, mul_comm]
    rw [hmiddle] at this ⊢
    exact_mod_cast Nat.mul_le_mul_left 2 this
  have hstart : -324 ≤ powerAbove ((interval (p + 1)).middle.log2 + 1) := by
    unfold powerAbove
    omega
  have hshort : shortest tie (p + 1) = (interval (p + 1)).coarsest tie 24
      (powerAbove ((interval (p + 1)).middle.log2 + 1)) := rfl
  rw [hshort]
  generalize powerAbove ((interval (p + 1)).middle.log2 + 1) = start at *
  have hfine : quarters (start - (23 : ℕ)) ≤ 2 * (unitsOf (p + 1) - unitsOf p) := by
    have hsteps : (unitsOf (p + 1) + 2 ^ 53 * unitsOf p : ℚ) ≤ 2 ^ 53 * unitsOf (p + 1) := by
      exact_mod_cast unitsOf_succ_le_steps p
    have hstep := cast_unitsOf_lt (Nat.lt_succ_self p)
    push_cast
    linarith
  obtain ⟨j, n, -, hcoarsest, hn, hnone⟩ :=
    Interval.exists_coarsest (show 23 < 24 by decide) (nearestMultiple?_interval_ne_none tie hfine)
  refine ⟨start, j, n, hcoarsest, hstart, ?_, Interval.holds_of_nearestMultiple? hn, ?_⟩
  · exact hbelow.trans_le hfirst
  · intro l hl
    by_contra hle
    exact nearestMultiple?_interval_ne_none tie (not_lt.1 hle) (hnone l hl)

theorem isShort_shortest {m : ℕ} (hm : 0 < m) (hfinite : m < infinityBits) :
    IsShort m (shortest tie m) := by
  obtain ⟨p, rfl⟩ : ∃ p, m = p + 1 := ⟨m - 1, by omega⟩
  obtain ⟨start, j, n, hshort, hstart, hfirst, hholds, hcoarse⟩ := exists_shortest tie hfinite
  have hgrid := quarters_pos (start - j)
  have hlow := hholds.low
  have hhigh := hholds.high
  rw [low_interval] at hlow
  rw [high_interval] at hhigh
  push_cast at hlow hhigh
  have hpos : (unitsOf p + 1 : ℚ) ≤ unitsOf (p + 1) := by
    exact_mod_cast unitsOf_strictMono (Nat.lt_succ_self p)
  have hp : (0 : ℚ) ≤ unitsOf p := Nat.cast_nonneg _
  have hdouble : (unitsOf (p + 1 + 1) : ℚ) ≤ 2 * unitsOf (p + 1) := by
    exact_mod_cast unitsOf_succ_le_double hm
  have hsteps : (unitsOf (p + 1) + 2 ^ 53 * unitsOf p : ℚ) ≤ 2 ^ 53 * unitsOf (p + 1) := by
    exact_mod_cast unitsOf_succ_le_steps p
  rw [hshort]
  refine ⟨hholds, ?_, ?_, ?_⟩
  · rcases Nat.eq_zero_or_pos n with rfl | hn
    · rw [Nat.cast_zero, zero_mul] at hlow
      linarith
    · exact hn
  · have hn : n * quarters (start - j) < (2 ^ 60 : ℕ) * quarters (start - j) := by
      rcases Nat.eq_zero_or_pos j with rfl | hj
      · rw [Nat.cast_zero, sub_zero] at *
        push_cast
        linarith
      · -- the grid before is too coarse, and this one is a tenth of it
        have hbefore := hcoarse (j - 1) (by omega)
        rw [show start - (j - 1 : ℕ) = start - j + 1 by omega, quarters_succ] at hbefore
        push_cast
        linarith
    exact_mod_cast lt_of_mul_lt_mul_right hn hgrid.le
  · by_contra hlt
    have hbefore := hcoarse (start + 324).toNat (by simp at hlt; omega)
    rw [show start - ((start + 324).toNat : ℕ) = -324 by omega] at hbefore
    linarith [quarters_le_two]

end

/-- The same interval counted in units. -/
theorem IsShort.inInterval {m : ℕ} {d : Scaled} (h : IsShort m d) :
    InInterval m (d.significand * 10 ^ d.exponent * unitsPerOne) := by
  obtain ⟨hlow, hhigh, hstrict⟩ := h.holds
  have hquarters : (d.significand : ℚ) * quarters d.exponent =
      4 * (d.significand * 10 ^ d.exponent * unitsPerOne) := by
    unfold quarters
    ring
  rw [hquarters] at hlow hhigh hstrict
  rw [high_interval] at hhigh hstrict
  push_cast at hhigh hstrict
  have hclosed : m % 2 = 1 → (interval m).closed = false := by
    intro hodd
    show (m % 2 == 0) = false
    simp [hodd]
  refine ⟨?_, by linarith, fun hodd => ⟨?_, by linarith [(hstrict (hclosed hodd)).2]⟩⟩
  · rintro p rfl
    rw [low_interval] at hlow
    push_cast at hlow
    linarith
  · rintro p rfl
    have hlt := (hstrict (hclosed hodd)).1
    rw [low_interval] at hlt
    push_cast at hlt
    linarith

/-- **The nearest number to the shortest decimal of a number is the number again.** -/
theorem magnitudeOfRatio_shortest (tie : Tie) {m : ℕ} (hm : 0 < m) (hfinite : m < infinityBits) :
    magnitudeOfRatio
      ((shortest tie m).significand * Nat.pow 10 (shortest tie m).exponent.toNat)
      (Nat.pow 10 (-(shortest tie m).exponent).toNat) = m := by
  have hD := (isShort_shortest tie hm hfinite).inInterval
  generalize shortest tie m = d at *
  have hrounds := roundsTo_magnitudeOfRatio (d.significand * Nat.pow 10 d.exponent.toNat)
    (show 0 < Nat.pow 10 (-d.exponent).toNat from Nat.pow_pos (by norm_num))
  rw [mul_div_right_comm, ← mul_pow_eq_quotient] at hrounds
  exact hrounds.eq_of_inInterval hfinite hD

end RecordRules.Decimal
