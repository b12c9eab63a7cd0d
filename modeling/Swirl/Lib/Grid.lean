import Swirl.Lib.Rounding

set_option autoImplicit false

/-! # Grids

A grid for `n` things has `⌈√n⌉` columns and as many rows as they then need; the `i`-th thing is in
row `i / cols` and column `i % cols`. What is centred in a cell, with a gap left around it, stays in
the cell when its place and its size are rounded towards zero.
-/

namespace Swirl.Lib

/-! ## Rows and columns -/

/-- The ceiling of the square root. -/
def ceilSqrt : ℕ → ℕ
  | 0 => 0
  | n + 1 => if n + 1 ≤ ceilSqrt n * ceilSqrt n then ceilSqrt n else ceilSqrt n + 1

/-- The rows that `n` things need in a number of columns. -/
def gridRows (n cols : ℕ) : ℕ := ⌈(n : ℚ) / cols⌉₊

theorem ceilSqrt_spec (n : ℕ) :
    n ≤ ceilSqrt n * ceilSqrt n ∧ ∀ m, n ≤ m * m → ceilSqrt n ≤ m := by
  induction n with
  | zero => exact ⟨Nat.zero_le _, fun m _ => Nat.zero_le m⟩
  | succ n ih =>
      unfold ceilSqrt
      split
      · next h => exact ⟨h, fun m hm => ih.2 m (by omega)⟩
      · next h =>
        constructor
        · calc n + 1 ≤ ceilSqrt n * ceilSqrt n + 1 := by omega
            _ ≤ (ceilSqrt n + 1) * (ceilSqrt n + 1) := by nlinarith
        · -- a smaller number of columns was not enough
          intro m hm
          have hle : ceilSqrt n ≤ m := ih.2 m (by omega)
          rcases hle.lt_or_eq with hlt | rfl
          · exact hlt
          · exact absurd hm h

/-- The ceiling of the square root, as an adjoint of squaring. -/
theorem ceilSqrt_le_iff {n m : ℕ} : ceilSqrt n ≤ m ↔ n ≤ m * m :=
  ⟨fun h => (ceilSqrt_spec n).1.trans (Nat.mul_le_mul h h), (ceilSqrt_spec n).2 m⟩

/-- **It is the ceiling of the square root.** -/
theorem ceilSqrt_eq_ceil (n : ℕ) : ceilSqrt n = ⌈Real.sqrt n⌉₊ := by
  refine eq_of_forall_ge_iff fun m => ?_
  rw [ceilSqrt_le_iff, Nat.ceil_le, Real.sqrt_le_left (Nat.cast_nonneg m), sq]
  exact_mod_cast Iff.rfl

theorem ceilSqrt_pos {n : ℕ} (hn : 0 < n) : 0 < ceilSqrt n := by
  rw [Nat.pos_iff_ne_zero]
  intro h
  have hle : n ≤ 0 * 0 := ceilSqrt_le_iff.1 h.le
  omega

/-- Every thing is in one of the rows. -/
theorem div_lt_gridRows {n cols i : ℕ} (hcols : 0 < cols) (hi : i < n) :
    i / cols < gridRows n cols := by
  have hcols' : (0 : ℚ) < cols := by exact_mod_cast hcols
  have hi' : (i : ℚ) < n := by exact_mod_cast hi
  rw [gridRows, Nat.lt_ceil]
  calc ((i / cols : ℕ) : ℚ) ≤ i / cols := Nat.cast_div_le
    _ < n / cols := by gcongr

/-- The last thing is in the last row. -/
theorem last_div {n cols : ℕ} (hcols : 0 < cols) (hn : 0 < n) :
    (n - 1) / cols + 1 = gridRows n cols := by
  refine le_antisymm (div_lt_gridRows hcols (by omega)) ?_
  have hcols' : (0 : ℚ) < cols := by exact_mod_cast hcols
  have hlt : n - 1 < (n - 1) / cols * cols + cols := Nat.lt_div_mul_add hcols
  have hle : n ≤ ((n - 1) / cols + 1) * cols := by
    rw [Nat.add_mul, Nat.one_mul]
    omega
  rw [gridRows, Nat.ceil_le, div_le_iff₀ hcols']
  exact_mod_cast hle

theorem gridRows_pos {n cols : ℕ} (hcols : 0 < cols) (hn : 0 < n) : 0 < gridRows n cols := by
  rw [← last_div hcols hn]
  exact Nat.succ_pos _

/-- Two things are in two cells. -/
theorem cell_ne (cols : ℕ) {i j : ℕ} (h : i ≠ j) : i / cols ≠ j / cols ∨ i % cols ≠ j % cols := by
  by_contra hne
  rw [not_or, not_not, not_not] at hne
  apply h
  calc i = cols * (i / cols) + i % cols := (Nat.div_add_mod i cols).symm
    _ = cols * (j / cols) + j % cols := by rw [hne.1, hne.2]
    _ = j := Nat.div_add_mod j cols

/-! ## Cells -/

/-- Where a thing of size `s` begins that is centred in the `k`-th of the cells of size `c`, which
begin at `b`. -/
def cellStart (b c s : ℚ) (k : ℕ) : ℚ := b + k * c + (c - s) / 2

/-- **What is centred in a cell with a gap of two stays in it.** -/
theorem cell_within {b c s : ℚ} (k : ℕ) (hs : 0 ≤ s) (h : s ≤ c - 2) :
    b + k * c ≤ truncInt (cellStart b c s k) ∧
      (truncInt (cellStart b c s k) : ℚ) + truncInt s ≤ b + (k + 1) * c := by
  have hlow := truncInt_gt (cellStart b c s k)
  have hhigh := truncInt_lt (cellStart b c s k)
  have hsize := truncInt_le hs
  simp only [cellStart] at hlow hhigh ⊢
  constructor <;> linarith

/-- The cells of a line follow each other. -/
theorem cell_before {b c : ℚ} (hc : 0 ≤ c) {i j : ℕ} (h : i < j) : b + (i + 1) * c ≤ b + j * c := by
  have hle : ((i + 1 : ℕ) : ℚ) ≤ j := by exact_mod_cast h
  have := mul_le_mul_of_nonneg_right hle hc
  push_cast at this
  linarith

/-- The cells that share a line lie within it. -/
theorem cell_in_line {b total : ℚ} {n k : ℕ} (htotal : 0 ≤ total) (hk : k < n) :
    b ≤ b + k * (total / n) ∧ b + (k + 1) * (total / n) ≤ b + total := by
  have hn : (0 : ℚ) < n := by exact_mod_cast Nat.zero_lt_of_lt hk
  have hk' : (k : ℚ) + 1 ≤ n := by exact_mod_cast Nat.succ_le_of_lt hk
  constructor
  · exact le_add_of_nonneg_right (by positivity)
  · calc b + (k + 1) * (total / n) ≤ b + n * (total / n) := by gcongr
      _ = b + total := by rw [mul_div_cancel₀ _ hn.ne']

end Swirl.Lib
