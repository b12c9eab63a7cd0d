import Mathlib.Data.Rat.Floor
import Mathlib.Tactic

set_option autoImplicit false

/-! # Rounding to integers

The rounding of the C library on exact rationals: `lround` to the nearest integer, halves away
from zero, and the truncation of a conversion to `int`.
-/

namespace Swirl.Lib

/-- `lround` and `round`: to the nearest integer, halves away from zero. -/
def lround (q : ℚ) : Int := if 0 ≤ q then ⌊q + 1 / 2⌋ else ⌈q - 1 / 2⌉

/-- The conversion of a `double` to an `int`: towards zero. -/
def truncInt (q : ℚ) : Int := if 0 ≤ q then ⌊q⌋ else ⌈q⌉

theorem lround_of_nonneg {q : ℚ} (hq : 0 ≤ q) : lround q = ⌊q + 1 / 2⌋ := if_pos hq

theorem truncInt_intCast (m : ℤ) : truncInt m = m := by
  unfold truncInt
  split
  · exact Int.floor_intCast m
  · exact Int.ceil_intCast m

theorem truncInt_neg (q : ℚ) : truncInt (-q) = -truncInt q := by
  unfold truncInt
  rcases lt_trichotomy q 0 with hq | hq | hq
  · rw [if_pos (by linarith), if_neg (not_le.2 hq), Int.floor_neg]
  · rw [hq, neg_zero, if_pos le_rfl, Int.floor_zero]
    rfl
  · rw [if_neg (by linarith), if_pos hq.le, Int.ceil_neg]

theorem truncInt_gt (q : ℚ) : q - 1 < truncInt q := by
  unfold truncInt
  split
  · exact Int.sub_one_lt_floor q
  · exact (sub_lt_self q one_pos).trans_le (Int.le_ceil q)

theorem truncInt_lt (q : ℚ) : truncInt q < q + 1 := by
  unfold truncInt
  split
  · exact (Int.floor_le q).trans_lt (lt_add_one q)
  · exact Int.ceil_lt_add_one q

theorem truncInt_le {q : ℚ} (hq : 0 ≤ q) : (truncInt q : ℚ) ≤ q := by
  rw [truncInt, if_pos hq]
  exact Int.floor_le q

theorem truncInt_pos {q : ℚ} : 0 < truncInt q ↔ 1 ≤ q := by
  unfold truncInt
  split
  next hq =>
    rw [Int.floor_pos]
  next hq =>
    refine iff_of_false (fun h => ?_) (by linarith)
    have hceil : (0 : ℚ) < q := Int.ceil_pos.mp h
    linarith

/-- The numbers that round to `m`. -/
theorem lround_eq_iff {q : ℚ} {m : ℤ} (hq : 0 ≤ q) :
    lround q = m ↔ -(1 / 2) ≤ q - m ∧ q - m < 1 / 2 := by
  rw [lround_of_nonneg hq, Int.floor_eq_iff]
  constructor
  · rintro ⟨h1, h2⟩; constructor <;> linarith
  · rintro ⟨h1, h2⟩; constructor <;> linarith

/-- Rounding stays below a bound that is not negative exactly when less than a half is over. -/
theorem lround_le_iff {q : ℚ} {m : ℤ} (hm : 0 ≤ m) : lround q ≤ m ↔ q < m + 1 / 2 := by
  by_cases hq : 0 ≤ q
  · rw [lround_of_nonneg hq, ← Int.lt_add_one_iff, Int.floor_lt]
    push_cast
    constructor <;> intro h <;> linarith
  · have hm' : (0 : ℚ) ≤ m := by exact_mod_cast hm
    have hlt : q < m + 1 / 2 := by linarith
    have hle : lround q ≤ m := by
      rw [lround, if_neg hq, Int.ceil_le]
      linarith
    exact iff_of_true hle hlt

end Swirl.Lib
