import Mathlib.Data.Int.Log
import Mathlib.Data.Rat.Floor
import Mathlib.Tactic.Linarith

/-!
# Rounding to binary64

Numbers are exact rationals, and an operation of binary64 is the exact one followed by `fl`: to the
nearest number of 53 significant bits, and to the even one of two that are equally near.  The range
of the exponent is left out, so there are no subnormal numbers, no infinities and no NaN.
-/

set_option autoImplicit false

namespace Kalypso.Lib

def roundEven (x : ℚ) : Int :=
  if x - ⌊x⌋ < 1 / 2 then ⌊x⌋
  else if 1 / 2 < x - ⌊x⌋ then ⌊x⌋ + 1
  else if ⌊x⌋ % 2 = 0 then ⌊x⌋ else ⌊x⌋ + 1

/-- The distance of the numbers of 53 bits around `x`. -/
def ulp (x : ℚ) : ℚ := 2 ^ (Int.log 2 |x| - 52)

def fl (x : ℚ) : ℚ := roundEven (x / ulp x) * ulp x

/-- Rounding toward 0. -/
def trunc (x : ℚ) : Int := x.num.tdiv x.den

/-! ## To an integer -/

theorem floor_le_roundEven (x : ℚ) : ⌊x⌋ ≤ roundEven x ∧ roundEven x ≤ ⌊x⌋ + 1 := by
  unfold roundEven
  split_ifs <;> omega

theorem le_roundEven {m : Int} {x : ℚ} (le : m ≤ x) : m ≤ roundEven x :=
  (Int.le_floor.mpr le).trans (floor_le_roundEven x).1

theorem roundEven_le {m : Int} {x : ℚ} (le : x ≤ m) : roundEven x ≤ m := by
  rcases le.lt_or_eq with less | rfl
  · have floor := Int.floor_lt.mpr less
    have above := (floor_le_roundEven x).2
    omega
  · simp [roundEven]

/-- An even integer is reached from its lower midpoint on. -/
theorem le_roundEven_iff {m : Int} (even : m % 2 = 0) (x : ℚ) :
    m ≤ roundEven x ↔ (m : ℚ) - 1 / 2 ≤ x := by
  have floor := Int.floor_le x
  have ceil := Int.lt_floor_add_one x
  have bounds := floor_le_roundEven x
  rcases lt_trichotomy m (⌊x⌋ + 1) with low | rfl | high
  · have below : (m : ℚ) ≤ ⌊x⌋ := by exact_mod_cast Int.lt_add_one_iff.mp low
    exact iff_of_true (by omega) (by linarith)
  · have odd : ¬ ⌊x⌋ % 2 = 0 := by omega
    unfold roundEven
    push_cast
    rw [if_neg odd]
    split_ifs with under
    · exact iff_of_false (by omega) (by linarith)
    · exact iff_of_true le_rfl (by linarith)
    · exact iff_of_true le_rfl (by linarith)
  · have above : (⌊x⌋ : ℚ) + 2 ≤ m := by exact_mod_cast (by omega : ⌊x⌋ + 2 ≤ m)
    exact iff_of_false (by omega) (by linarith)

theorem le_trunc_iff {m : Int} (positive : 0 < m) (x : ℚ) : m ≤ trunc x ↔ m ≤ x := by
  rcases le_or_gt 0 x with nonneg | negative
  · rw [trunc, Int.tdiv_eq_ediv_of_nonneg (Rat.num_nonneg.mpr nonneg), ← Rat.floor_def',
      Int.le_floor]
  · have bound : (0 : ℚ) < m := by exact_mod_cast positive
    have nonpos : trunc x ≤ 0 := by
      have numerator := Rat.num_neg.mpr negative
      have opposite := Int.tdiv_nonneg (by omega : 0 ≤ -x.num) (Int.natCast_nonneg x.den)
      rw [Int.neg_tdiv] at opposite
      exact Int.neg_nonneg.mp opposite
    exact iff_of_false (by omega) (by linarith)

/-! ## To 53 bits -/

theorem ulp_pos (x : ℚ) : 0 < ulp x := zpow_pos two_pos _

@[simp] theorem fl_zero : fl 0 = 0 := by
  simp [fl, roundEven]

theorem fl_nonpos {x : ℚ} (nonpos : x ≤ 0) : fl x ≤ 0 := by
  have rounded : roundEven (x / ulp x) ≤ 0 :=
    roundEven_le (by exact_mod_cast div_nonpos_of_nonpos_of_nonneg nonpos (ulp_pos x).le)
  exact mul_nonpos_of_nonpos_of_nonneg (by exact_mod_cast rounded) (ulp_pos x).le

theorem zpow_add_eq (e : Int) (n : Nat) : (2 : ℚ) ^ (e - 52 + n) = 2 ^ n * 2 ^ (e - 52) := by
  rw [zpow_add₀ two_ne_zero, zpow_natCast, mul_comm]

/-- A positive number stays between the powers of two around it. -/
theorem fl_bounds {x : ℚ} (positive : 0 < x) :
    2 ^ 52 * ulp x ≤ fl x ∧ fl x ≤ 2 ^ 53 * ulp x ∧ 2 ^ 52 * ulp x ≤ x ∧ x < 2 ^ 53 * ulp x := by
  have lower : 2 ^ 52 * ulp x ≤ x := by
    have power := Int.zpow_log_le_self (R := ℚ) one_lt_two (abs_pos.mpr positive.ne')
    rw [ulp, ← zpow_add_eq]
    simpa [abs_of_pos positive] using power
  have upper : x < 2 ^ 53 * ulp x := by
    have power := Int.lt_zpow_succ_log_self (R := ℚ) one_lt_two |x|
    rw [ulp, ← zpow_add_eq]
    refine (le_abs_self x).trans_lt (power.trans_eq ?_)
    congr 1
    push_cast
    ring
  have least : (2 ^ 52 : Int) ≤ roundEven (x / ulp x) := by
    apply le_roundEven
    rw [le_div_iff₀ (ulp_pos x)]
    exact_mod_cast lower
  have most : roundEven (x / ulp x) ≤ (2 ^ 53 : Int) := by
    apply roundEven_le
    rw [div_le_iff₀ (ulp_pos x)]
    exact_mod_cast upper.le
  refine ⟨?_, ?_, lower, upper⟩
  · exact mul_le_mul_of_nonneg_right (by exact_mod_cast least) (ulp_pos x).le
  · exact mul_le_mul_of_nonneg_right (by exact_mod_cast most) (ulp_pos x).le

/-- A number with an even significand is reached from its lower midpoint on. -/
theorem le_fl_iff {m : Int} (lower : 2 ^ 52 < m) (upper : m ≤ 2 ^ 53) (even : m % 2 = 0) (e : Int)
    (x : ℚ) : m * (2 : ℚ) ^ (e - 52) ≤ fl x ↔ (m - 1 / 2) * (2 : ℚ) ^ (e - 52) ≤ x := by
  have unit : (0 : ℚ) < 2 ^ (e - 52) := zpow_pos two_pos _
  have lower' : (2 : ℚ) ^ 52 + 1 ≤ m := by exact_mod_cast lower
  have upper' : (m : ℚ) ≤ 2 ^ 53 := by exact_mod_cast upper
  rcases le_or_gt x 0 with nonpos | positive
  · have rounded := fl_nonpos nonpos
    exact iff_of_false (by nlinarith) (by nlinarith)
  · obtain ⟨above, below, least, less⟩ := fl_bounds positive
    rcases lt_trichotomy (Int.log 2 |x|) e with smaller | same | larger
    · have power : 2 ^ 53 * ulp x ≤ 2 ^ 52 * 2 ^ (e - 52) := by
        rw [ulp, ← zpow_add_eq, ← zpow_add_eq]
        exact zpow_le_zpow_right₀ one_le_two (by push_cast; omega)
      exact iff_of_false (by nlinarith) (by nlinarith)
    · have unit_eq : ulp x = 2 ^ (e - 52) := by rw [ulp, same]
      rw [fl, unit_eq, mul_le_mul_iff_left₀ unit, Int.cast_le, le_roundEven_iff even,
        le_div_iff₀ unit]
    · have power : 2 ^ 53 * (2 : ℚ) ^ (e - 52) ≤ 2 ^ 52 * ulp x := by
        rw [ulp, ← zpow_add_eq, ← zpow_add_eq]
        exact zpow_le_zpow_right₀ one_le_two (by push_cast; omega)
      exact iff_of_true (by nlinarith) (by nlinarith)

end Kalypso.Lib
