import Swirl.Tree.Row

set_option autoImplicit false

/-! # How wide a row comes out

What `arrangeRow` makes of the widths of a row: the overflow branch ends at the row width plus
what the floors hold back, the underflow branch never hands out more than the spare width, and
the placement puts the last edge at the rounded sum.
-/

namespace Swirl

open Lib

/-! ## The clamp -/

/-- `hi`: the declared maximum, or else what is available. -/
def ColumnLimits.hi (l : ColumnLimits) (available : ℚ) : ℚ :=
  if l.cap ≠ dblMax then l.cap else available

theorem ColumnLimits.clamp_eq (l : ColumnLimits) (desired available : ℚ) :
    l.clamp desired available = max l.lo (min desired (min available (l.hi available))) := rfl

theorem ColumnLimits.lo_le_clamp (l : ColumnLimits) (desired available : ℚ) :
    l.lo ≤ l.clamp desired available := le_max_left _ _

/-- A clamped width that is scaled down is held back by the floor alone. -/
theorem ColumnLimits.clamp_scaled {l : ColumnLimits} {p a scale : ℚ} (hlo : 0 ≤ l.lo)
    (hscale : scale ≤ 1) (hfit : l.clamp p a * scale ≤ a) :
    l.clamp (l.clamp p a * scale) a = max l.lo (l.clamp p a * scale) := by
  have hw : 0 ≤ l.clamp p a := hlo.trans (l.lo_le_clamp p a)
  have hle : l.clamp p a * scale ≤ l.clamp p a := mul_le_of_le_one_right hw hscale
  by_cases hhi : l.clamp p a ≤ l.hi a
  · rw [l.clamp_eq (l.clamp p a * scale) a, min_eq_left (le_min hfit (hle.trans hhi))]
  · -- above its maximum a width stands at its floor
    have hfloor : l.clamp p a = l.lo := by
      rw [l.clamp_eq] at hhi ⊢
      refine max_eq_left ?_
      by_contra hlt
      rw [max_eq_right (le_of_not_ge hlt)] at hhi
      exact hhi ((min_le_right _ _).trans (min_le_right _ _))
    rw [l.clamp_eq (l.clamp p a * scale) a, max_eq_left (le_trans (min_le_left _ _) (hfloor ▸ hle)),
      max_eq_left (hfloor ▸ hle)]

/-! ## Sums -/

theorem rowSum_cons (c : RowColumn) (row : List RowColumn) :
    rowSum (c :: row) = c.w + rowSum row := by
  simp [rowSum]

theorem width_le_rowSum {row : List RowColumn} (h : ∀ c ∈ row, 0 ≤ c.w) {c : RowColumn}
    (hc : c ∈ row) : c.w ≤ rowSum row := by
  refine List.single_le_sum ?_ _ (List.mem_map_of_mem hc)
  simpa using h

/-- Every column is as wide as its floor asks. -/
def FloorsKept (row : List RowColumn) : Prop := ∀ c ∈ row, c.limits.lo ≤ c.w

/-- No floor is negative. -/
def FloorsNonneg (row : List RowColumn) : Prop := ∀ c ∈ row, 0 ≤ c.limits.lo

theorem FloorsKept.nonneg {row : List RowColumn} (hk : FloorsKept row) (hn : FloorsNonneg row) :
    ∀ c ∈ row, 0 ≤ c.w := fun c hc => (hn c hc).trans (hk c hc)

theorem floorsKept_clampRow (totalW : ℚ) (row : List RowColumn) :
    FloorsKept (clampRow totalW row) := by
  intro c hc
  obtain ⟨d, _, rfl⟩ := List.mem_map.mp hc
  exact d.limits.lo_le_clamp d.w totalW

theorem floorsNonneg_clampRow {totalW : ℚ} {row : List RowColumn} (h : FloorsNonneg row) :
    FloorsNonneg (clampRow totalW row) := by
  intro c hc
  obtain ⟨d, hd, rfl⟩ := List.mem_map.mp hc
  exact h d hd

/-! ## The overflow branch -/

/-- What the floors hold back when a row is scaled down: the widths the pinned columns keep
above their share. -/
def pinnedDeficit (scale : ℚ) (row : List RowColumn) : ℚ :=
  (row.map fun c => max 0 (c.limits.lo - c.w * scale)).sum

/-- A column of a clamped row after the overflow branch. -/
theorem shrinkRow_clampRow {totalW : ℚ} {row : List RowColumn} (hlo : FloorsNonneg row)
    (hT : 0 ≤ totalW) (hover : totalW < rowSum (clampRow totalW row)) :
    shrinkRow totalW (totalW / rowSum (clampRow totalW row)) (clampRow totalW row) =
      (clampRow totalW row).map fun c =>
        { c with w := max c.limits.lo (c.w * (totalW / rowSum (clampRow totalW row))) } := by
  have hS : 0 < rowSum (clampRow totalW row) := lt_of_le_of_lt hT hover
  have hwidths := (floorsKept_clampRow totalW row).nonneg (floorsNonneg_clampRow hlo)
  unfold shrinkRow
  refine List.map_congr_left fun c hc => ?_
  obtain ⟨d, hd, rfl⟩ := List.mem_map.mp hc
  have hle := width_le_rowSum hwidths hc
  have hfit : d.limits.clamp d.w totalW * (totalW / rowSum (clampRow totalW row)) ≤ totalW := by
    rw [mul_div_assoc', div_le_iff₀ hS, mul_comm]
    exact mul_le_mul_of_nonneg_left hle hT
  have hone : totalW / rowSum (clampRow totalW row) ≤ 1 := (div_le_one hS).mpr hover.le
  simp only
  rw [ColumnLimits.clamp_scaled (hlo d hd) hone hfit]

theorem rowSum_scaled (scale : ℚ) (row : List RowColumn) :
    rowSum (row.map fun c => { c with w := max c.limits.lo (c.w * scale) }) =
      rowSum row * scale + pinnedDeficit scale row := by
  induction row with
  | nil => simp [rowSum, pinnedDeficit]
  | cons c row ih =>
      have hc : max c.limits.lo (c.w * scale) =
          c.w * scale + max 0 (c.limits.lo - c.w * scale) := by
        rw [max_comm, ← max_add_add_left, add_zero, add_sub_cancel]
      rw [List.map_cons, rowSum_cons, ih, rowSum_cons]
      simp only [pinnedDeficit, List.map_cons, List.sum_cons]
      rw [hc]
      ring

/-- **The overflow branch ends at the row width plus what the floors hold back.** -/
theorem rowSum_shrinkRow {totalW : ℚ} {row : List RowColumn} (hlo : FloorsNonneg row)
    (hT : 0 ≤ totalW) (hover : totalW < rowSum (clampRow totalW row)) :
    rowSum (shrinkRow totalW (totalW / rowSum (clampRow totalW row)) (clampRow totalW row)) =
      totalW + pinnedDeficit (totalW / rowSum (clampRow totalW row)) (clampRow totalW row) := by
  have hS : rowSum (clampRow totalW row) ≠ 0 := (lt_of_le_of_lt hT hover).ne'
  rw [shrinkRow_clampRow hlo hT hover, rowSum_scaled, mul_div_cancel₀ _ hS]

/-! ## The underflow branch -/

/-- The sum of the widths during the growth. -/
def growSum (cols : List GrowColumn) : ℚ := (cols.map fun c => c.w).sum

/-- The same columns, none narrower. -/
def Grown (cols cols' : List GrowColumn) : Prop :=
  List.Forall₂ (fun c c' => c'.limits = c.limits ∧ c.w ≤ c'.w) cols cols'

theorem Grown.refl (cols : List GrowColumn) : Grown cols cols :=
  List.forall₂_same.mpr fun _ _ => ⟨rfl, le_rfl⟩

theorem Grown.trans {a b c : List GrowColumn} (h : Grown a b) (h' : Grown b c) : Grown a c := by
  induction h generalizing c with
  | nil => exact h'
  | cons hd _ ih =>
      cases h' with
      | cons hd' htl' => exact List.Forall₂.cons ⟨hd'.1.trans hd.1, hd.2.trans hd'.2⟩ (ih htl')

theorem Grown.nonneg {cols cols' : List GrowColumn} (h : Grown cols cols')
    (hw : ∀ c ∈ cols, 0 ≤ c.w) : ∀ c ∈ cols', 0 ≤ c.w := by
  intro c' hc'
  induction h with
  | nil => exact absurd hc' List.not_mem_nil
  | cons hd _ ih =>
      rcases List.mem_cons.mp hc' with rfl | hmem
      · exact (hw _ List.mem_cons_self).trans hd.2
      · exact ih (fun c hc => hw c (List.mem_cons_of_mem _ hc)) hmem

theorem Grown.growSum_le {cols cols' : List GrowColumn} (h : Grown cols cols') :
    growSum cols ≤ growSum cols' := by
  induction h with
  | nil => exact le_rfl
  | cons hd _ ih =>
      simp only [growSum, List.map_cons, List.sum_cons] at ih ⊢
      exact add_le_add hd.2 ih

theorem growShare_nonneg {n : Nat} {spare base w : ℚ} (hs : 0 ≤ spare) (hw : 0 ≤ w) :
    0 ≤ growShare n spare base w := by
  unfold growShare
  split
  next hb => exact div_nonneg (mul_nonneg hs hw) hb.le
  next => exact div_nonneg hs (Nat.cast_nonneg n)

/-- **One round hands out what it took**, and no more than the spare width. -/
theorem growPass_spec (n : Nat) {spare base : ℚ} (hs : 0 ≤ spare) (cols : List GrowColumn)
    (hw : ∀ c ∈ cols, 0 ≤ c.w) {taken : ℚ} (ht : taken ≤ spare) :
    growSum (growPass n spare base cols taken).1 + taken =
        growSum cols + (growPass n spare base cols taken).2 ∧
      taken ≤ (growPass n spare base cols taken).2 ∧
      (growPass n spare base cols taken).2 ≤ spare ∧
      Grown cols (growPass n spare base cols taken).1 := by
  induction cols generalizing taken with
  | nil => exact ⟨by simp [growPass, growSum], le_rfl, ht, List.Forall₂.nil⟩
  | cons c cs ih =>
      have hcs : ∀ d ∈ cs, 0 ≤ d.w := fun d hd => hw d (List.mem_cons_of_mem _ hd)
      have hc := hw c List.mem_cons_self
      rw [growPass]
      split
      next =>
        obtain ⟨h1, h2, h3, h4⟩ := ih hcs ht
        refine ⟨?_, h2, h3, List.Forall₂.cons ⟨rfl, le_rfl⟩ h4⟩
        simp only [growSum, List.map_cons, List.sum_cons] at h1 ⊢
        linarith
      next hrun =>
        dsimp only
        split
        next =>
          obtain ⟨h1, h2, h3, h4⟩ := ih hcs ht
          refine ⟨?_, h2, h3, List.Forall₂.cons ⟨rfl, le_rfl⟩ h4⟩
          simp only [growSum, List.map_cons, List.sum_cons] at h1 ⊢
          linarith
        next hroom =>
          have hleft : 0 ≤ spare - taken := by linarith
          have hgrow : 0 ≤ min (min (growShare n spare base c.w) (c.limits.headroom c.w))
              (spare - taken) :=
            le_min (le_min (growShare_nonneg hs hc) (by linarith)) hleft
          have hcap := min_le_right
            (min (growShare n spare base c.w) (c.limits.headroom c.w)) (spare - taken)
          have htaken : taken + min (min (growShare n spare base c.w) (c.limits.headroom c.w))
              (spare - taken) ≤ spare := by linarith
          obtain ⟨h1, h2, h3, h4⟩ := ih hcs htaken
          refine ⟨?_, by linarith, h3, List.Forall₂.cons ⟨rfl, by simpa using hgrow⟩ h4⟩
          simp only [growSum, List.map_cons, List.sum_cons] at h1 ⊢
          linarith

/-- The whole loop never hands out more than the spare width. -/
theorem growLoop_spec (fuel n : Nat) {spare : ℚ} (hs : 0 ≤ spare) (cols : List GrowColumn)
    (hw : ∀ c ∈ cols, 0 ≤ c.w) :
    growSum (growLoop fuel n spare cols) ≤ growSum cols + spare ∧
      Grown cols (growLoop fuel n spare cols) := by
  induction fuel generalizing spare cols with
  | zero => exact ⟨by simpa [growLoop] using hs, Grown.refl cols⟩
  | succ fuel ih =>
      obtain ⟨h1, -, h3, h4⟩ := @growPass_spec n spare (growBase cols) hs cols hw 0 hs
      rw [growLoop]
      split
      next => exact ⟨by linarith, Grown.refl cols⟩
      next =>
        split
        next => exact ⟨by linarith, Grown.refl cols⟩
        next =>
          dsimp only
          split
          next => exact ⟨by linarith, h4⟩
          next =>
            have hs' : 0 ≤ spare - (growPass n spare (growBase cols) cols 0).2 := by linarith
            obtain ⟨h5, h6⟩ := ih hs' _ (h4.nonneg hw)
            exact ⟨by linarith, h4.trans h6⟩

/-- More rounds than `growFuel` change nothing. -/
theorem growLoop_fuel (n : Nat) {spare : ℚ} (cols : List GrowColumn) (k fuel : Nat)
    (hfuel : 2 * spare < fuel) : growLoop (fuel + k) n spare cols = growLoop fuel n spare cols := by
  induction fuel generalizing spare cols with
  | zero =>
      have hstop : spare ≤ 1 / 2 := by
        rw [Nat.cast_zero] at hfuel
        linarith
      cases k with
      | zero => rfl
      | succ k => rw [Nat.zero_add, growLoop.eq_2, if_pos hstop, growLoop]
  | succ fuel ih =>
      rw [show fuel + 1 + k = (fuel + k) + 1 by omega, growLoop, growLoop]
      dsimp only
      split
      next => rfl
      next =>
        split
        next => rfl
        next =>
          split
          next => rfl
          next htaken =>
            refine ih _ ?_
            rw [Nat.cast_succ] at hfuel
            linarith

theorem growSum_unlocked (row : List RowColumn) : growSum (unlocked row) = rowSum row := by
  simp [growSum, unlocked, rowSum, Function.comp_def]

theorem unlocked_nonneg {row : List RowColumn} (hw : ∀ c ∈ row, 0 ≤ c.w) :
    ∀ c ∈ unlocked row, 0 ≤ c.w := by
  intro c hc
  obtain ⟨d, hd, rfl⟩ := List.mem_map.mp hc
  exact hw d hd

/-- **The underflow branch never hands out more than the spare width.** -/
theorem rowSum_growRow {spare : ℚ} (hs : 0 ≤ spare) {row : List RowColumn}
    (hw : ∀ c ∈ row, 0 ≤ c.w) : rowSum (growRow spare row) ≤ rowSum row + spare := by
  have h := (growLoop_spec (growFuel spare) row.length hs (unlocked row) (unlocked_nonneg hw)).1
  rw [growSum_unlocked] at h
  simpa [growRow, rowSum, growSum, Function.comp_def] using h

/-! ## The whole row -/

/-- The row fits: the clamped widths do, or scaling them down leaves less than half a pixel to
the floors. -/
def RowFits (totalW : ℚ) (row : List RowColumn) : Prop :=
  rowSum (clampRow totalW row) ≤ totalW ∨
    pinnedDeficit (totalW / rowSum (clampRow totalW row)) (clampRow totalW row) < 1 / 2

/-- **The row ends less than half a pixel behind its width exactly when it fits.** -/
theorem rowSum_arrangeRow_lt_iff {totalW : ℚ} {row : List RowColumn} (hlo : FloorsNonneg row)
    (hT : 0 ≤ totalW) : rowSum (arrangeRow totalW row) < totalW + 1 / 2 ↔ RowFits totalW row := by
  have hw := (floorsKept_clampRow totalW row).nonneg (floorsNonneg_clampRow hlo)
  unfold arrangeRow RowFits
  by_cases hover : totalW < rowSum (clampRow totalW row)
  · have hS : 0 < rowSum (clampRow totalW row) := lt_of_le_of_lt hT hover
    rw [if_pos ⟨hover, hS⟩, rowSum_shrinkRow hlo hT hover, or_iff_right (not_le.mpr hover)]
    constructor <;> intro h <;> linarith
  · have hfit := not_lt.mp hover
    rw [if_neg (fun h => hover h.1)]
    refine iff_of_true ?_ (Or.inl hfit)
    split
    next =>
      have hspare : 0 ≤ totalW - rowSum (clampRow totalW row) := by linarith
      have := rowSum_growRow hspare hw
      linarith
    next => linarith

theorem growRow_length (spare : ℚ) (row : List RowColumn) :
    (growRow spare row).length = row.length := by
  have hpass : ∀ (n : Nat) (spare base : ℚ) (cols : List GrowColumn) (taken : ℚ),
      (growPass n spare base cols taken).1.length = cols.length := by
    intro n spare base cols
    induction cols with
    | nil => exact fun _ => rfl
    | cons c cs ih =>
        intro taken
        rw [growPass]
        dsimp only
        split
        · simp [ih]
        · split <;> simp [ih]
  have hloop : ∀ (fuel n : Nat) (spare : ℚ) (cols : List GrowColumn),
      (growLoop fuel n spare cols).length = cols.length := by
    intro fuel
    induction fuel with
    | zero => exact fun _ _ _ => rfl
    | succ fuel ih =>
        intro n spare cols
        rw [growLoop]
        dsimp only
        split
        · rfl
        · split
          · rfl
          · split
            · exact hpass _ _ _ _ _
            · rw [ih, hpass]
  simp [growRow, hloop, unlocked]

theorem arrangeRow_length (totalW : ℚ) (row : List RowColumn) :
    (arrangeRow totalW row).length = row.length := by
  unfold arrangeRow
  dsimp only
  split
  · simp [shrinkRow, clampRow]
  · split
    · simp [growRow_length, clampRow]
    · simp [clampRow]

/-- No column of an arranged row has a negative width. -/
theorem arrangeRow_nonneg {totalW : ℚ} {row : List RowColumn} (hlo : FloorsNonneg row)
    (hT : 0 ≤ totalW) : ∀ c ∈ arrangeRow totalW row, 0 ≤ c.w := by
  have hw := (floorsKept_clampRow totalW row).nonneg (floorsNonneg_clampRow hlo)
  unfold arrangeRow
  by_cases hover : totalW < rowSum (clampRow totalW row)
  · have hS : 0 < rowSum (clampRow totalW row) := lt_of_le_of_lt hT hover
    rw [if_pos ⟨hover, hS⟩, shrinkRow_clampRow hlo hT hover]
    intro c hc
    obtain ⟨d, hd, rfl⟩ := List.mem_map.mp hc
    exact (floorsNonneg_clampRow hlo d hd).trans (le_max_left _ _)
  · rw [if_neg (fun h => hover h.1)]
    split
    next =>
      intro c hc
      have hs : 0 ≤ totalW - rowSum (clampRow totalW row) := by linarith
      have hgrown := (growLoop_spec (growFuel (totalW - rowSum (clampRow totalW row)))
        (clampRow totalW row).length hs (unlocked (clampRow totalW row)) (unlocked_nonneg hw)).2
      obtain ⟨d, hd, rfl⟩ := List.mem_map.mp hc
      exact hgrown.nonneg (unlocked_nonneg hw) d hd
    next => exact hw

/-! ## Placement -/

/-- The left edge and the width of the last column add up to the rounded right edge. -/
theorem placeColumns_getLast (gaps : Int) (pos : ℚ) (prevEdge : Int) (ws : List ℚ) (hne : ws ≠ []) :
    ∃ p, (placeColumns gaps pos prevEdge ws).getLast? = some p ∧
      p.1 + p.2 = lround (pos + ws.sum + gaps * (ws.length - 1)) := by
  induction ws generalizing pos prevEdge with
  | nil => exact absurd rfl hne
  | cons w ws ih =>
      rw [placeColumns]
      cases ws with
      | nil =>
          refine ⟨(prevEdge, lround (pos + w) - prevEdge), rfl, ?_⟩
          simp
      | cons v vs =>
          obtain ⟨p, hp, hsum⟩ := ih (pos + w + gaps) (lround (pos + w) + gaps) (by simp)
          refine ⟨p, ?_, ?_⟩
          · rw [List.getLast?_cons, hp]
            rfl
          · rw [hsum]
            congr 1
            simp only [List.sum_cons, List.length_cons]
            push_cast
            ring

theorem placeColumns_length (gaps : Int) (pos : ℚ) (prevEdge : Int) (ws : List ℚ) :
    (placeColumns gaps pos prevEdge ws).length = ws.length := by
  induction ws generalizing pos prevEdge with
  | nil => rfl
  | cons w ws ih => simp [placeColumns, ih]

end Swirl
