import Docket.Json.Magnitude
import Mathlib.Algebra.Order.Field.Power
import Mathlib.Tactic.Linarith
import Mathlib.Tactic.NormNum
import Mathlib.Tactic.Positivity
import Mathlib.Tactic.Ring

/-! Whether a number can be held is found out by two roundings, one of its leading digits and one of
its power of ten. Where the range ends can be told without them: every magnitude below `10 ^ 308` is
held, and none from `10 ^ 309` on. A rounding moves a number by an eighth of it at most, so there is
room for both. -/
namespace Docket.NumberRange

/-- The magnitude that digits and a power of ten stand for. -/
def magnitude (significand : Nat) (exponent : Int) : ℚ := significand * 10 ^ exponent

variable {significand : Nat} {exponent : Int}

/-- The distance between neighbours is one, or small beside the number. -/
theorem step_small (n : Nat) :
    n.log2 + 1 - mantissaBits = 0 ∨ 8 * 1 <<< (n.log2 + 1 - mantissaBits) ≤ n := by
  by_cases short : n.log2 + 1 ≤ mantissaBits
  · exact .inl (Nat.sub_eq_zero_of_le short)
  · right
    have nonzero : n ≠ 0 := by
      rintro rfl
      exact short (by decide)
    have highest : 2 ^ n.log2 ≤ n := Nat.log2_self_le nonzero
    have split : n.log2 = n.log2 + 1 - mantissaBits + 52 := by
      unfold mantissaBits at *
      omega
    rw [split, Nat.pow_add] at highest
    rw [Nat.shiftLeft_eq, Nat.one_mul]
    omega

theorem nearestFloat_of_short {n : Nat} (short : n.log2 + 1 - mantissaBits = 0) :
    nearestFloat n = n := by
  simp [nearestFloat, short, Nat.mod_one]

/-- Rounding to the nearest number that can be held moves a number by an eighth of it at most. -/
theorem nearestFloat_near (n : Nat) :
    7 * n ≤ 8 * nearestFloat n ∧ 8 * nearestFloat n ≤ 9 * n := by
  rcases step_small n with short | small
  · rw [nearestFloat_of_short short]
    omega
  · have whole := Nat.div_add_mod' n (1 <<< (n.log2 + 1 - mantissaBits))
    have positive : 0 < 1 <<< (n.log2 + 1 - mantissaBits) := by
      rw [Nat.shiftLeft_eq, Nat.one_mul]
      exact Nat.two_pow_pos _
    have rest := Nat.mod_lt n positive
    unfold nearestFloat
    dsimp only
    generalize 1 <<< (n.log2 + 1 - mantissaBits) = step at *
    have raised : (n / step + 1) * step = n / step * step + step := Nat.succ_mul ..
    split <;> omega

/-- The leading digits of a number other than zero are never all zero. -/
theorem leadingDigits_spec (significand : Nat) (exponent : Int) :
    ∃ dropped : Nat,
      leadingDigits significand exponent = (significand / 10 ^ dropped, exponent + dropped) ∧
        significand / 10 ^ dropped < 2 ^ 64 ∧
        (0 < significand → 0 < significand / 10 ^ dropped) := by
  induction significand, exponent using leadingDigits.induct with
  | case1 significand exponent short =>
    refine ⟨0, ?_, ?_, ?_⟩
    · rw [leadingDigits, if_pos short]
      simp
    · simpa using short
    · simp
  | case2 significand exponent long ih =>
    obtain ⟨dropped, kept, fits, positive⟩ := ih
    have next : significand / 10 / 10 ^ dropped = significand / 10 ^ (dropped + 1) := by
      rw [Nat.div_div_eq_div_mul, Nat.pow_succ, Nat.mul_comm]
    refine ⟨dropped + 1, ?_, next ▸ fits, fun _ => next ▸ positive ?_⟩
    · rw [leadingDigits, if_neg long, kept, next]
      push_cast
      rw [add_assoc, add_comm (1 : Int)]
    · unfold UInt64.size at long
      omega

/-- The digits that are dropped are worth less than one of those that are kept. -/
theorem magnitude_bounds (significand : Nat) (exponent : Int) (dropped : Nat) :
    magnitude (significand / 10 ^ dropped) (exponent + dropped) ≤ magnitude significand exponent ∧
      magnitude significand exponent <
        magnitude (significand / 10 ^ dropped + 1) (exponent + dropped) := by
  have scaled (kept : Nat) : magnitude kept (exponent + dropped) =
      magnitude (kept * 10 ^ dropped) exponent := by
    unfold magnitude
    rw [zpow_add₀ (by norm_num), zpow_natCast]
    push_cast
    ring
  have unit : (0 : ℚ) < 10 ^ exponent := zpow_pos (by norm_num) exponent
  rw [scaled, scaled]
  unfold magnitude
  constructor
  · have below := Nat.div_mul_le_self significand (10 ^ dropped)
    exact mul_le_mul_of_nonneg_right (by exact_mod_cast below) unit.le
  · have above : significand < (significand / 10 ^ dropped + 1) * 10 ^ dropped :=
      Nat.lt_mul_of_div_lt (Nat.lt_succ_self _) (Nat.pow_pos (by decide))
    exact mul_lt_mul_of_pos_right (by exact_mod_cast above) unit

theorem magnitude_natural (kept power : Nat) :
    magnitude kept power = (kept * 10 ^ power : Nat) := by
  unfold magnitude
  push_cast
  rw [zpow_natCast]

/-- Two roundings leave a product above three quarters of it and below four thirds. -/
theorem product_near (kept power : Nat) :
    3 * (kept * 10 ^ power) ≤ 4 * (nearestFloat kept * nearestFloat (Nat.pow 10 power)) ∧
      3 * (nearestFloat kept * nearestFloat (Nat.pow 10 power)) ≤ 4 * (kept * 10 ^ power) := by
  obtain ⟨lowDigits, highDigits⟩ := nearestFloat_near kept
  obtain ⟨lowPower, highPower⟩ := nearestFloat_near (Nat.pow 10 power)
  have low := Nat.mul_le_mul lowDigits lowPower
  have high := Nat.mul_le_mul highDigits highPower
  change 7 * kept * (7 * 10 ^ power) ≤ _ at low
  change _ ≤ 9 * kept * (9 * 10 ^ power) at high
  constructor <;> nlinarith

/-- What is asked of the leading digits and the power of ten that is left beside them. -/
theorem holds_iff {kept : Nat} {left : Int}
    (digits : leadingDigits significand exponent = (kept, left)) :
    holdsMagnitude significand exponent = true ↔
      kept = 0 ∨ left ≤ 0 ∨ left ≤ 308 ∧
        nearestFloat kept * nearestFloat (Nat.pow 10 left.toNat) < overflowBound := by
  simp only [holdsMagnitude, digits, greatestPower, Bool.or_eq_true, Bool.and_eq_true, beq_iff_eq,
    decide_eq_true_eq, or_assoc]

/-- Below `10 ^ 308` there is room for two roundings. -/
theorem holds_of_small (small : magnitude significand exponent < 10 ^ 308) :
    holdsMagnitude significand exponent = true := by
  obtain ⟨dropped, digits, -⟩ := leadingDigits_spec significand exponent
  have below := (magnitude_bounds significand exponent dropped).1.trans_lt small
  refine (holds_iff digits).mpr ?_
  generalize significand / 10 ^ dropped = kept at *
  refine or_iff_not_imp_left.mpr fun nonzero => or_iff_not_imp_left.mpr fun high => ?_
  obtain ⟨power, same⟩ := Int.eq_ofNat_of_zero_le (Int.not_le.mp high).le
  rw [same, magnitude_natural] at below
  have product : kept * 10 ^ power < 10 ^ 308 := by exact_mod_cast below
  have alone : 10 ^ power ≤ kept * 10 ^ power :=
    Nat.le_mul_of_pos_left _ (Nat.pos_of_ne_zero nonzero)
  have low : power < 308 := (pow_lt_pow_iff_right₀ (by decide)).mp (alone.trans_lt product)
  have room : 4 * 10 ^ 308 < 3 * overflowBound := by decide +kernel
  have rounded := (product_near kept power).2
  rw [same, Int.toNat_natCast]
  omega

theorem significand_pos (large : 10 ^ 309 ≤ magnitude significand exponent) : 0 < significand := by
  rw [Nat.pos_iff_ne_zero]
  rintro rfl
  rw [magnitude, Nat.cast_zero, zero_mul] at large
  exact absurd large (not_le.mpr (by positivity))

/-- A few digits are worth so much only with a power of ten beside them. -/
theorem exponent_pos (few : significand ≤ 2 ^ 64)
    (large : 10 ^ 309 < magnitude significand exponent) : 0 < exponent := by
  by_contra low
  have shrunk : (10 : ℚ) ^ exponent ≤ 1 :=
    zpow_le_one_of_nonpos₀ (by norm_num) (not_lt.mp low)
  have bounded : magnitude significand exponent ≤ 10 ^ 309 :=
    calc (significand : ℚ) * 10 ^ exponent ≤ significand :=
          mul_le_of_le_one_right (by positivity) shrunk
      _ ≤ 2 ^ 64 := by exact_mod_cast few
      _ ≤ 10 ^ 20 := by norm_num
      _ ≤ 10 ^ 309 := pow_le_pow_right₀ (by norm_num) (by decide)
  exact absurd large (not_lt.mpr bounded)

/-- From `10 ^ 309` on no rounding leads back into the range. -/
theorem refuses_large (large : 10 ^ 309 ≤ magnitude significand exponent) :
    holdsMagnitude significand exponent = false := by
  obtain ⟨dropped, digits, fits, positive⟩ := leadingDigits_spec significand exponent
  have above := large.trans_lt (magnitude_bounds significand exponent dropped).2
  have nonzero := positive (significand_pos large)
  rw [← Bool.not_eq_true, holds_iff digits]
  generalize significand / 10 ^ dropped = kept at *
  have high := exponent_pos fits above
  obtain ⟨power, same⟩ := Int.eq_ofNat_of_zero_le high.le
  rw [same, magnitude_natural] at above
  have more : 10 ^ 309 < (kept + 1) * 10 ^ power := by exact_mod_cast above
  have twice : (kept + 1) * 10 ^ power ≤ 2 * (kept * 10 ^ power) := by
    rw [← Nat.mul_assoc]
    exact Nat.mul_le_mul_right _ (by omega)
  have room : 8 * overflowBound < 3 * 10 ^ 309 := by decide +kernel
  have rounded := (product_near kept power).1
  rintro (none | low | ⟨-, product⟩)
  · exact nonzero.ne' none
  · exact high.not_ge low
  · rw [same, Int.toNat_natCast] at product
    omega

end Docket.NumberRange
