import Swirl.Tree.RowWidths

set_option autoImplicit false

/-! # When a row is a fixed point

The second run of the pass starts from the rendered widths. It places the columns where they are
exactly when the widths it computes leave every edge within half a pixel of the rendered one
(`placeColumns_eq_iff`). For a row whose columns the clamp only lifts, that is a question of the
total: the lift, and what the first round of the growth hands out.
-/

namespace Swirl

open Lib

/-! ## Edges -/

/-- Every edge stays within half a pixel: the pairs are ideal and rendered widths, `drift` is how
far the ideal left edge is off. -/
def EdgesKept : ℚ → List (ℚ × ℚ) → Prop
  | _, [] => True
  | drift, (w, r) :: rest =>
      (-(1 / 2) ≤ drift + (w - r) ∧ drift + (w - r) < 1 / 2) ∧ EdgesKept (drift + (w - r)) rest

instance decidableEdgesKept : (drift : ℚ) → (ps : List (ℚ × ℚ)) → Decidable (EdgesKept drift ps)
  | _, [] => inferInstanceAs (Decidable True)
  | drift, (w, r) :: rest =>
      @instDecidableAnd _ _ inferInstance (decidableEdgesKept (drift + (w - r)) rest)

/-- The rendered widths of a list of places. -/
def placeWidths (places : List (Int × Int)) : List ℚ := places.map fun p => (p.2 : ℚ)

/-- **Two rows are placed alike exactly when the ideal widths of one keep the edges of the
other.** -/
theorem placeColumns_eq_iff {gaps : Int} (hgaps : 0 ≤ gaps) (vs ws : List ℚ)
    (hlen : vs.length = ws.length) (hv : ∀ v ∈ vs, 0 ≤ v) (pos' pos : ℚ) (hpos : 0 ≤ pos')
    (prevEdge : Int) :
    placeColumns gaps pos' prevEdge vs = placeColumns gaps pos prevEdge ws ↔
      EdgesKept (pos' - prevEdge) (vs.zip (placeWidths (placeColumns gaps pos prevEdge ws))) := by
  induction vs generalizing ws pos' pos prevEdge with
  | nil =>
      cases ws with
      | nil => simp [placeColumns, placeWidths, EdgesKept]
      | cons w ws => exact absurd hlen (by simp)
  | cons v vs ih =>
      cases ws with
      | nil => exact absurd hlen (by simp)
      | cons w ws =>
          have hv0 : 0 ≤ pos' + v := add_nonneg hpos (hv v List.mem_cons_self)
          have hg : (0 : ℚ) ≤ gaps := by exact_mod_cast hgaps
          have hnext := ih ws (by simpa using hlen) (fun x hx => hv x (List.mem_cons_of_mem _ hx))
            (pos' + v + gaps) (pos + w + gaps) (by linarith)
            (lround (pos + w) + gaps)
          have hhead : pos' + v - lround (pos + w) =
              pos' - prevEdge + (v - ((lround (pos + w) - prevEdge : Int) : ℚ)) := by
            push_cast
            ring
          have htail : pos' + v + gaps - ((lround (pos + w) + gaps : Int) : ℚ) =
              pos' - prevEdge + (v - ((lround (pos + w) - prevEdge : Int) : ℚ)) := by
            push_cast
            ring
          rw [htail] at hnext
          simp only [placeColumns, placeWidths, List.map_cons, List.zip_cons_cons, EdgesKept,
            List.cons.injEq, Prod.mk.injEq, true_and]
          rw [← hhead, ← lround_eq_iff hv0]
          constructor
          · rintro ⟨hedge, hrest⟩
            have he : lround (pos' + v) = lround (pos + w) := by omega
            rw [he] at hrest
            rw [hhead]
            exact ⟨he, hnext.mp hrest⟩
          · rintro ⟨he, hrest⟩
            rw [he]
            rw [hhead] at hrest
            exact ⟨rfl, hnext.mpr hrest⟩

/-- When no ideal width is below the rendered one, the edges are kept as long as the total is. -/
theorem edgesKept_iff_total {ps : List (ℚ × ℚ)} (hle : ∀ p ∈ ps, p.2 ≤ p.1) {drift : ℚ}
    (h0 : 0 ≤ drift) (h1 : drift < 1 / 2) :
    EdgesKept drift ps ↔ drift + (ps.map fun p => p.1 - p.2).sum < 1 / 2 := by
  induction ps generalizing drift with
  | nil =>
      rw [List.map_nil, List.sum_nil, add_zero]
      exact iff_of_true trivial h1
  | cons p ps ih =>
      obtain ⟨w, r⟩ := p
      have hwr : r ≤ w := hle (w, r) List.mem_cons_self
      have hrest : ∀ p ∈ ps, p.2 ≤ p.1 := fun p hp => hle p (List.mem_cons_of_mem _ hp)
      have hsum : 0 ≤ (ps.map fun p => p.1 - p.2).sum := by
        refine List.sum_nonneg ?_
        intro x hx
        obtain ⟨p, hp, rfl⟩ := List.mem_map.mp hx
        have := hrest p hp
        linarith
      rw [EdgesKept, List.map_cons, List.sum_cons, ← add_assoc]
      by_cases hlt : drift + (w - r) < 1 / 2
      · rw [ih hrest (by linarith) hlt]
        constructor
        · exact fun h => h.2
        · exact fun h => ⟨⟨by linarith, hlt⟩, h⟩
      · refine iff_of_false (fun h => hlt h.1.2) ?_
        linarith

/-! ## Settled rows -/

/-- What the first round of the growth hands out. -/
def firstGrowth (spare : ℚ) (row : List RowColumn) : ℚ :=
  if spare ≤ 1 / 2 ∨ growRoom (unlocked row) ≤ 1 / 2 then 0
  else (growPass row.length spare (growBase (unlocked row)) (unlocked row) 0).2

/-- No column is wider than its limits allow: the clamp only lifts. -/
def OnlyLifted (totalW : ℚ) (row : List RowColumn) : Prop :=
  ∀ c ∈ row, c.w ≤ c.limits.clamp c.w totalW

instance (totalW : ℚ) (row : List RowColumn) : Decidable (OnlyLifted totalW row) :=
  inferInstanceAs (Decidable (∀ c ∈ row, _))

/-- The row is settled. An overflowing row: scaling it down, each column held at its floor, keeps
the edges. Any other row whose columns the clamp only lifts: the lift and the first growth stay
below half a pixel. Where a floor above the declared maximum pulls a column in, the clamped and
grown widths keep the edges. -/
def RowSettled (totalW : ℚ) (row : List RowColumn) : Prop :=
  let sum := rowSum (clampRow totalW row)
  if totalW < sum then
    EdgesKept 0 (((clampRow totalW row).map fun c =>
      max c.limits.lo (c.w * (totalW / sum))).zip (row.map RowColumn.w))
  else if OnlyLifted totalW row then
    sum - rowSum row + firstGrowth (totalW - sum) (clampRow totalW row) < 1 / 2
  else EdgesKept 0 (((if sum < totalW - 1 / 2 then growRow (totalW - sum) (clampRow totalW row)
    else clampRow totalW row).map RowColumn.w).zip (row.map RowColumn.w))

instance (totalW : ℚ) (row : List RowColumn) : Decidable (RowSettled totalW row) :=
  inferInstanceAs (Decidable (ite _ _ (ite _ _ _)))

/-- The growth hands out what its first round does when that is at most half a pixel, and more
than half a pixel otherwise. -/
theorem rowSum_growRow_firstGrowth {spare : ℚ} (hs : 0 ≤ spare) {row : List RowColumn}
    (hw : ∀ c ∈ row, 0 ≤ c.w) :
    (firstGrowth spare row ≤ 1 / 2 →
      rowSum (growRow spare row) = rowSum row + firstGrowth spare row) ∧
    (1 / 2 < firstGrowth spare row → rowSum row + 1 / 2 < rowSum (growRow spare row)) := by
  have hsum : rowSum (growRow spare row) =
      growSum (growLoop (growFuel spare) row.length spare (unlocked row)) := by
    simp [growRow, rowSum, growSum, Function.comp_def]
  have h0 := growSum_unlocked row
  have hnonneg := unlocked_nonneg hw
  rw [hsum, growFuel, growLoop, firstGrowth]
  by_cases hsp : spare ≤ 1 / 2
  · rw [if_pos hsp, if_pos (Or.inl hsp), h0]
    exact ⟨fun _ => (add_zero _).symm, fun h => absurd h (by norm_num)⟩
  · rw [if_neg hsp]
    by_cases hroom : growRoom (unlocked row) ≤ 1 / 2
    · rw [if_pos hroom, if_pos (Or.inr hroom), h0]
      exact ⟨fun _ => (add_zero _).symm, fun h => absurd h (by norm_num)⟩
    · rw [if_neg hroom, if_neg (by rintro (h | h); exacts [hsp h, hroom h])]
      obtain ⟨h1, -, h3, h4⟩ := @growPass_spec row.length spare (growBase (unlocked row)) hs
        (unlocked row) hnonneg 0 hs
      dsimp only
      constructor
      · intro htaken
        rw [if_pos htaken, ← h0]
        linarith
      · intro htaken
        rw [if_neg (not_le.mpr htaken)]
        have hspare : 0 ≤ spare - (growPass row.length spare (growBase (unlocked row))
            (unlocked row) 0).2 := by linarith
        have hmore := (growLoop_spec ⌈2 * spare⌉.toNat row.length hspare _ (h4.nonneg hnonneg)).2
        have hle := hmore.growSum_le
        linarith

/-- The columns of a row after the growth, none narrower. -/
theorem growRow_forall₂ {spare : ℚ} (hs : 0 ≤ spare) {row : List RowColumn}
    (hw : ∀ c ∈ row, 0 ≤ c.w) :
    List.Forall₂ (fun c c' : RowColumn => c.w ≤ c'.w) row (growRow spare row) := by
  have h := (growLoop_spec (growFuel spare) row.length hs (unlocked row) (unlocked_nonneg hw)).2
  have hmap : row = (unlocked row).map GrowColumn.toRowColumn := by
    simp [unlocked, Function.comp_def]
  rw [growRow]
  conv_lhs => rw [hmap]
  rw [List.forall₂_map_left_iff, List.forall₂_map_right_iff]
  exact h.imp fun c c' hc => hc.2

/-! ## The second run -/

theorem forall₂_le_trans {a b c : List RowColumn}
    (h : List.Forall₂ (fun c c' : RowColumn => c.w ≤ c'.w) a b)
    (h' : List.Forall₂ (fun c c' : RowColumn => c.w ≤ c'.w) b c) :
    List.Forall₂ (fun c c' : RowColumn => c.w ≤ c'.w) a c := by
  induction h generalizing c with
  | nil => exact h'
  | cons hd _ ih =>
      cases h' with
      | cons hd' htl' => exact List.Forall₂.cons (hd.trans hd') (ih htl')

/-- A row whose columns are at least as wide as the rendered ones keeps its edges as long as the
total does. -/
theorem edgesKept_iff_rowSum {row row' : List RowColumn}
    (h : List.Forall₂ (fun c c' : RowColumn => c.w ≤ c'.w) row row') :
    EdgesKept 0 ((row'.map RowColumn.w).zip (row.map RowColumn.w)) ↔
      rowSum row' - rowSum row < 1 / 2 := by
  have hle : ∀ p ∈ (row'.map RowColumn.w).zip (row.map RowColumn.w), p.2 ≤ p.1 := by
    induction h with
    | nil => simp
    | cons hd _ ih =>
        intro p hp
        rcases List.mem_cons.mp hp with rfl | hp
        · exact hd
        · exact ih p hp
  have hsum : (((row'.map RowColumn.w).zip (row.map RowColumn.w)).map
      fun p => p.1 - p.2).sum = rowSum row' - rowSum row := by
    clear hle
    induction h with
    | nil => simp [rowSum]
    | cons _ _ ih =>
        simp only [List.map_cons, List.zip_cons_cons, List.sum_cons, ih, rowSum_cons]
        ring
  rw [edgesKept_iff_total hle le_rfl (by norm_num), hsum, zero_add]

/-- **The widths of the second run keep the edges exactly when the row is settled.** -/
theorem edgesKept_arrangeRow_iff {totalW : ℚ} {row : List RowColumn} (hlo : FloorsNonneg row)
    (hT : 0 ≤ totalW) :
    EdgesKept 0 (((arrangeRow totalW row).map RowColumn.w).zip (row.map RowColumn.w)) ↔
      RowSettled totalW row := by
  have hw := (floorsKept_clampRow totalW row).nonneg (floorsNonneg_clampRow hlo)
  unfold arrangeRow RowSettled
  dsimp only
  by_cases hover : totalW < rowSum (clampRow totalW row)
  · have hS : 0 < rowSum (clampRow totalW row) := lt_of_le_of_lt hT hover
    rw [if_pos ⟨hover, hS⟩, if_pos hover, shrinkRow_clampRow hlo hT hover, List.map_map]
    rfl
  · rw [if_neg (fun h => hover h.1), if_neg hover]
    have hs : 0 ≤ totalW - rowSum (clampRow totalW row) := by linarith
    by_cases hlift : OnlyLifted totalW row
    · rw [if_pos hlift]
      have hclamp : List.Forall₂ (fun c c' : RowColumn => c.w ≤ c'.w) row
          (clampRow totalW row) := by
        rw [clampRow, List.forall₂_map_right_iff, List.forall₂_same]
        exact hlift
      have hlifted : rowSum row ≤ rowSum (clampRow totalW row) := by
        rw [rowSum, rowSum]
        refine List.Forall₂.sum_le_sum ?_
        rw [List.forall₂_map_left_iff, List.forall₂_map_right_iff]
        exact hclamp
      obtain ⟨hsmall, hlarge⟩ := rowSum_growRow_firstGrowth hs hw
      by_cases hunder : rowSum (clampRow totalW row) < totalW - 1 / 2
      · rw [if_pos hunder, edgesKept_iff_rowSum (forall₂_le_trans hclamp (growRow_forall₂ hs hw))]
        rcases le_or_gt (firstGrowth (totalW - rowSum (clampRow totalW row))
          (clampRow totalW row)) (1 / 2) with hle | hgt
        · rw [hsmall hle]
          constructor <;> intro h <;> linarith
        · have := hlarge hgt
          constructor <;> intro h <;> linarith
      · rw [if_neg hunder, edgesKept_iff_rowSum hclamp, firstGrowth, if_pos (Or.inl (by linarith)),
          add_zero]
    · rw [if_neg hlift]

end Swirl
