import Swirl.Tree.State

set_option autoImplicit false

/-! # The arithmetic of the arrange pass

The computations of `viewport.c` on plain lists of numbers: how `workspace_arrange_columns` turns
the pending widths of a row of columns into pixels, and how `viewport_arrange_windows` splits the
height of a column. `Swirl/Tree/Arrange.lean` reads the numbers from the tree and writes the
results back.
-/

namespace Swirl

open Lib

/-! ## The widths of a row -/

/-- What the width clamp of a column depends on: its floor and its declared maximum (`DBL_MAX`
when there is none). -/
structure ColumnLimits where
  lo : ℚ
  cap : ℚ

/-- `container_clamp_tiled_width` of a column with these limits. -/
def ColumnLimits.clamp (l : ColumnLimits) (desired available : ℚ) : ℚ :=
  clampTiled l.lo l.cap desired available

/-- `col_width_headroom` of a column with these limits. -/
def ColumnLimits.headroom (l : ColumnLimits) (width : ℚ) : ℚ :=
  if l.cap ≠ dblMax then max 0 (l.cap - width) else dblMax

/-- A column during the pass: its limits and `w[i]`. -/
structure RowColumn where
  limits : ColumnLimits
  w : ℚ

/-- `sum` -/
def rowSum (row : List RowColumn) : ℚ := (row.map RowColumn.w).sum

/-- The first loop: every width is clamped. -/
def clampRow (totalW : ℚ) (row : List RowColumn) : List RowColumn :=
  row.map fun c => { c with w := c.limits.clamp c.w totalW }

/-- The overflow branch: scale down, then clamp again. -/
def shrinkRow (totalW scale : ℚ) (row : List RowColumn) : List RowColumn :=
  row.map fun c => { c with w := c.limits.clamp (c.w * scale) totalW }

/-- A column during the growth of a sparse row: `w[i]` and `locked[i]`. -/
structure GrowColumn extends RowColumn where
  locked : Bool

/-- `base`: the widths of the columns that are not locked. -/
def growBase (cols : List GrowColumn) : ℚ := (cols.map fun c => if c.locked then 0 else c.w).sum

/-- `room`: the headroom of the columns that are not locked. -/
def growRoom (cols : List GrowColumn) : ℚ :=
  (cols.map fun c => if c.locked then 0 else c.limits.headroom c.w).sum

/-- `share`: what a column may take of the spare width of `n` columns. -/
def growShare (n : Nat) (spare base w : ℚ) : ℚ := if 0 < base then spare * w / base else spare / n

/-- The inner loop: every column that is not locked takes its share; the result is the columns and
`taken`. -/
def growPass (n : Nat) (spare base : ℚ) : List GrowColumn → ℚ → List GrowColumn × ℚ
  | [], taken => ([], taken)
  | c :: cs, taken =>
      if c.locked ∨ spare - taken ≤ 1 / 2 then
        let r := growPass n spare base cs taken
        (c :: r.1, r.2)
      else
        let headroom := c.limits.headroom c.w
        if headroom ≤ 1 / 2 then
          let r := growPass n spare base cs taken
          ({ c with locked := true } :: r.1, r.2)
        else
          let grow := min (min (growShare n spare base c.w) headroom) (spare - taken)
          let r := growPass n spare base cs (taken + grow)
          ({ c with w := c.w + grow } :: r.1, r.2)

/-- The `while` loop, at most `fuel` rounds. -/
def growLoop : Nat → Nat → ℚ → List GrowColumn → List GrowColumn
  | 0, _, _, cols => cols
  | fuel + 1, n, spare, cols =>
      if spare ≤ 1 / 2 then cols
      else if growRoom cols ≤ 1 / 2 then cols
      else
        let r := growPass n spare (growBase cols) cols 0
        if r.2 ≤ 1 / 2 then r.1 else growLoop fuel n (spare - r.2) r.1

/-- Every round of the `while` loop but the last takes more than half a pixel, so twice the spare
width bounds the rounds (`growLoop_fuel`). -/
def growFuel (spare : ℚ) : Nat := ⌈2 * spare⌉.toNat + 1

/-- No column is locked yet. -/
def unlocked (row : List RowColumn) : List GrowColumn := row.map fun c => ⟨c, false⟩

/-- The underflow branch. -/
def growRow (spare : ℚ) (row : List RowColumn) : List RowColumn :=
  (growLoop (growFuel spare) row.length spare (unlocked row)).map GrowColumn.toRowColumn

/-- The widths `w[i]` before placement. -/
def arrangeRow (totalW : ℚ) (row : List RowColumn) : List RowColumn :=
  let row := clampRow totalW row
  let sum := rowSum row
  if totalW < sum ∧ 0 < sum then shrinkRow totalW (totalW / sum) row
  else if sum < totalW - 1 / 2 then growRow (totalW - sum) row
  else row

/-- The placement loop: for every column the left edge relative to the origin and the width, with
`pos` and `prev_edge` so far. -/
def placeColumns (gaps : Int) : ℚ → Int → List ℚ → List (Int × Int)
  | _, _, [] => []
  | pos, prevEdge, w :: ws =>
      let edge := lround (pos + w)
      (prevEdge, edge - prevEdge) :: placeColumns gaps (pos + w + gaps) (edge + gaps) ws

/-! ## The heights of a column -/

/-- What the height of a window in a column depends on: the floor and the maximum of its clamp and
its height fraction. -/
structure WindowLimits where
  lo : ℚ
  cap : ℚ
  hf : ℚ

/-- `container_clamp_tiled_height` of a window with these limits. -/
def WindowLimits.clamp (l : WindowLimits) (desired available : ℚ) : ℚ :=
  clampTiled l.lo l.cap desired available

/-- A height fraction as the split reads it: a window without one counts as a whole. -/
def shareOf (heightFraction : ℚ) : ℚ := if 0 < heightFraction then heightFraction else 1

/-- `flexible`: whether a window can still absorb the leftover. -/
def windowFlexible (usableH leftover : ℚ) (l : WindowLimits) (h : ℚ) : Bool :=
  (decide (0 < leftover) && decide (h < l.clamp usableH usableH)) ||
  (decide (leftover < 0) && decide (l.lo < h))

/-- One pass over the windows: each takes its share of what is left over at its turn. -/
def redistribute (usableH flexSum : ℚ) : ℚ → List (WindowLimits × ℚ) → List ℚ × ℚ
  | leftover, [] => ([], leftover)
  | leftover, (l, h) :: rest =>
      if (0 < leftover ∧ l.clamp usableH usableH ≤ h) ∨ (leftover < 0 ∧ h ≤ l.lo) then
        let r := redistribute usableH flexSum leftover rest
        (h :: r.1, r.2)
      else
        let next := l.clamp (h + leftover * (l.hf / flexSum)) usableH
        let r := redistribute usableH flexSum (leftover - (next - h)) rest
        (next :: r.1, r.2)

/-- The redistribution loop, `passes` rounds. -/
def redistributePasses (usableH : ℚ) (limits : List WindowLimits) : Nat → ℚ → List ℚ → List ℚ × ℚ
  | 0, leftover, hs => (hs, leftover)
  | passes + 1, leftover, hs =>
      if leftover = 0 then (hs, leftover)
      else
        let flexSum := (List.zipWith
          (fun l h => if windowFlexible usableH leftover l h then l.hf else 0) limits hs).sum
        if flexSum ≤ 0 then (hs, leftover)
        else
          let r := redistribute usableH flexSum leftover (limits.zip hs)
          redistributePasses usableH limits passes r.2 r.1

/-- The heights `heights[i]` of a column with `usableH` pixels for its windows. -/
def columnHeights (limits : List WindowLimits) (usableH : ℚ) : List ℚ :=
  let total := (limits.map WindowLimits.hf).sum
  let totalHf : ℚ := if total ≤ 0 then limits.length else total
  if usableH < (limits.map WindowLimits.lo).sum then limits.map WindowLimits.lo
  else
    let hs := limits.map fun l => l.clamp (usableH * (l.hf / totalHf)) usableH
    let r := redistributePasses usableH limits 2 (usableH - hs.sum) hs
    match limits.getLast?, r.1.getLast? with
    | some l, some h =>
        if r.2 ≠ 0 then r.1.dropLast ++ [l.clamp (h + r.2) usableH] else r.1
    | _, _ => r.1

/-! Every window of a column has a height. -/

theorem redistribute_length (usableH flexSum leftover : ℚ) (rest : List (WindowLimits × ℚ)) :
    (redistribute usableH flexSum leftover rest).1.length = rest.length := by
  induction rest generalizing leftover with
  | nil => rfl
  | cons r rest ih =>
      obtain ⟨l, h⟩ := r
      rw [redistribute]
      split
      · simpa using ih leftover
      · simpa using ih _

theorem redistributePasses_length (usableH : ℚ) (limits : List WindowLimits) (passes : Nat)
    (leftover : ℚ) (hs : List ℚ) (hlen : hs.length = limits.length) :
    (redistributePasses usableH limits passes leftover hs).1.length = limits.length := by
  induction passes generalizing leftover hs with
  | zero => exact hlen
  | succ passes ih =>
      rw [redistributePasses]
      dsimp only
      split
      · exact hlen
      · split
        · exact hlen
        · refine ih _ _ ?_
          rw [redistribute_length, List.length_zip, hlen, min_self]

theorem columnHeights_length (limits : List WindowLimits) (usableH : ℚ) :
    (columnHeights limits usableH).length = limits.length := by
  unfold columnHeights
  dsimp only
  split
  · exact List.length_map _
  · generalize (if (limits.map WindowLimits.hf).sum ≤ 0 then (limits.length : ℚ)
      else (limits.map WindowLimits.hf).sum) = totalHf
    have hpasses := redistributePasses_length usableH limits 2
      (usableH - (limits.map fun l => l.clamp (usableH * (l.hf / totalHf)) usableH).sum)
      (limits.map fun l => l.clamp (usableH * (l.hf / totalHf)) usableH) (List.length_map _)
    split
    next l h _ hlast =>
      split
      · -- the last height is replaced
        rw [List.length_append, List.length_dropLast, hpasses, List.length_singleton]
        refine Nat.sub_add_cancel ?_
        rw [← hpasses]
        exact List.length_pos_iff.mpr fun hnil => by
          rw [hnil] at hlast
          cases hlast
      · exact hpasses
    next => exact hpasses

/-! ## Rows and columns of nested containers -/

/-- The fractions `apply_horiz_layout` and `apply_vert_layout` leave on the children: a child
without one gets the mean of the others, then their sum is one. -/
def normalizeFractions (fractions : List ℚ) : List ℚ :=
  let current := fractions.sum
  let fresh := (fractions.filter fun f => decide (f ≤ 0)).length
  let filled := fractions.map fun f =>
    if f ≤ 0 then
      if current ≤ 0 then 1
      else if fresh < fractions.length then current / (fractions.length - fresh)
      else current
    else f
  filled.map fun f => f / filled.sum

/-- The places along the axis: rounded shares, the last child filling up to the far edge. A child
that comes out too small in either direction (`cross` is the extent across) gets no size at all;
the flag says so. -/
def linearPlaces (far total gap cross : ℚ) : ℚ → List ℚ → List (ℚ × ℚ × Bool)
  | _, [] => []
  | pos, f :: fs =>
      let size : ℚ := if fs = [] then far - pos else lround (f * total)
      let small := decide (size < 10) || decide (cross < 10)
      let size := if small then 0 else size
      (pos, size, small) :: linearPlaces far total gap cross (pos + size + gap) fs

end Swirl
