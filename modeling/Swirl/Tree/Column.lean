import Swirl.Tree.Destroy

set_option autoImplicit false

/-! # The widths of columns that come and go

The parts of `viewport.c`, `workspace.c` and `column.c` that make room for a new column and hand
out the room of one that is gone. Apart from `column_remove` they write geometry only.
-/

namespace Swirl

open Lib

variable (fo : FocusOps)

/-- A column gets a width, and the fraction of the workspace that goes with it. -/
def setColumnWidth (w : WsId) (s : State) (c : ConId) (width : ℚ) : State :=
  s.modGeo c fun g => { g with width, widthFraction := workspaceWidthToFraction s w width }

/-! ## Room for a new column -/

/-- `workspace_view_remaining_width` -/
def workspaceViewRemainingWidth (s : State) (w : WsId) (startIndex : Int) : ℚ :=
  let k := s.wsGeo w
  let cols := (s.tree.ws w).tiling
  let left := if startIndex < 0 then cols else cols.take (startIndex.toNat + 1)
  max 0 (k.width - (left.map fun c => (s.geo c).width + k.gapsInner).sum)

/-- The width `viewport_scan_visible` finds occupied by the columns other than one. -/
def scanOccupied (s : State) (w : WsId) (exclude : Int) : ℚ :=
  let cols := (s.tree.ws w).tiling
  let widths := (if 0 ≤ exclude then cols.eraseIdx exclude.toNat else cols).map fun c =>
    (s.geo c).width
  if 1 < widths.length then widths.sum + (s.wsGeo w).gapsInner * (widths.length - 1)
  else widths.sum

/-- `max_cand` of the one caller of `viewport_scan_visible`. -/
def maxCandidates : Nat := 32

/-- The candidates `viewport_scan_visible` returns. -/
def scanVisible (n : Nat) (exclude : Int) : List Int :=
  (((List.range n).map Int.ofNat).filter fun i => decide (i ≠ exclude)).take maxCandidates

/-- The search of `viewport_absorb_farthest`: the position of the candidate farthest from the
focus. A negative candidate is used up. -/
def farthestCandidate (candidates : List Int) (focusIdx : Int) : Int :=
  (candidates.zipIdx.foldl
    (fun (best : Int × Int) (r : Int × Nat) =>
      let dist : Int := (r.1 - focusIdx).natAbs
      if r.1 < 0 then best
      else if best.2 < dist ∨ (dist = best.2 ∧ best.1 < r.1) then (r.2, dist)
      else best)
    (-1, -1)).1

/-- `viewport_absorb_farthest`, for a number of candidates; the second result is what remains. -/
def absorbFarthest (w : WsId) (focusIdx : Int) : Nat → List Int → State → ℚ → State × ℚ
  | 0, _, s, remaining => (s, remaining)
  | n + 1, candidates, s, remaining =>
      if remaining = 0 then (s, remaining)
      else
        let farthest := farthestCandidate candidates focusIdx
        if farthest < 0 then (s, remaining)
        else
          let idx := candidates.getD farthest.toNat 0
          let candidates := candidates.set farthest.toNat (-1)
          match (s.tree.ws w).tiling[idx.toNat]? with
          | none => (s, remaining)
          | some c =>
              let orig := (s.geo c).width
              let new := containerClampTiledWidth s c (orig - remaining) (s.wsGeo w).width
              absorbFarthest w focusIdx n candidates (setColumnWidth w s c new)
                (remaining - (orig - new))

/-- The column that counts as focused when a column goes to an index. -/
def fitFocusIdx (s : State) (w : WsId) (idx : Int) : Int :=
  let n : Int := (s.tree.ws w).tiling.length
  let i := (s.wsGeo w).focusedColumnIdx
  let i := if 0 ≤ i then i else idx - 1
  let i := if i < 0 then 0 else i
  if n ≤ i then (if 0 < n then n - 1 else 0) else i

/-- The last resort of `workspace_fit_new_column`: the other columns give up width. -/
def makeRoom (s : State) (w : WsId) (idx exclude : Int) (occupied defaultW minW : ℚ) : State × ℚ :=
  let k := s.wsGeo w
  let overflow := occupied + k.gapsInner + defaultW - k.width
  let candidates := scanVisible (s.tree.ws w).tiling.length exclude
  let (s, overflow) :=
    if 0 < overflow then
      absorbFarthest w (fitFocusIdx s w idx) candidates.length candidates s overflow
    else (s, overflow)
  (s, if 0 < overflow then max minW (defaultW - overflow) else defaultW)

/-- `workspace_fit_new_column` -/
def workspaceFitNewColumn (s : State) (w : WsId) (col : ConId) (idx : Int) : State :=
  let k := s.wsGeo w
  let lo := (containerGetSizeConstraints s col).minWidth
  let defaultW := max (workspaceWidthFraction s w s.config.defaultColumnWidthFraction) lo
  let minW := max (workspaceWidthFraction s w s.config.minColumnWidthFraction) lo
  let exclude := listFind (s.tree.ws w).tiling col
  let occupied := scanOccupied s w exclude
  let free := max 0 (k.width - occupied - k.gapsInner)
  let (s, target) :=
    if defaultW ≤ free then (s, defaultW)
    else if minW ≤ free then (s, free)
    else makeRoom s w idx exclude occupied defaultW minW
  columnSetWidthPx s col target

/-- The width `workspace_create_new_column` gives a column. -/
def newColumnWidth (s : State) (w : WsId) (col : ConId) (widthPx : ℚ) : ℚ :=
  let k := containerGetSizeConstraints s col
  let cfgMin := workspaceWidthFraction s w s.config.minColumnWidthFraction
  let floor := max cfgMin (if k.minWidth ≠ dblMin then k.minWidth else 0)
  let width : ℚ := if widthPx < 0 then ((s.wsGeo w).width : ℚ) else widthPx
  max (if k.maxWidth ≠ dblMax then min width k.maxWidth else width) floor

/-- The height `workspace_create_new_column` gives the view when none is asked for. -/
def newColumnHeight (s : State) (w : WsId) (col : ConId) : ℚ :=
  let k := containerGetSizeConstraints s col
  let height : ℚ := (s.wsGeo w).height
  let height := if k.minHeight ≠ dblMin then max height k.minHeight else height
  if k.maxHeight ≠ dblMax then min height k.maxHeight else height

/-- A new column for a workspace, in no list yet; its name is `s.tree.nextCon`. -/
def createColumn (s : State) (w : Option WsId) : State :=
  let col := s.tree.nextCon
  let s := (containerCreate s none).modGeo col fun g => { g with layout := .vert }
  s.modTree fun t => t.modCon col fun k => { k with workspace := w }

/-- `workspace_create_new_column`, with the height left to the column. -/
def workspaceCreateNewColumn (s : State) (w : WsId) (view : ConId) (widthPx : ℚ) : State :=
  let col := s.tree.nextCon
  let s := containerAddChild fo (createColumn s (some w)) col view
  let height := newColumnHeight s w col
  let s := columnSetWidthPx s col (newColumnWidth s w col widthPx)
  s.modGeo view fun g => { g with heightFraction := 1, height }

/-- `workspace_create_new_column_at`; the name of the column is `s.tree.nextCon`. -/
def workspaceCreateNewColumnAt (s : State) (w : WsId) (view : ConId) (index : Int) : State :=
  workspaceCreateNewColumn fo s w view
    (workspaceClampColumnWidth s w (workspaceViewRemainingWidth s w (index - 1)))

/-! ## Room that a column leaves -/

/-- One column of `viewport_grow_to_fill` grows up to the default width. -/
def growToDefault (w : WsId) (defaultW : ℚ) (r : State × ℚ) (c : ConId) : State × ℚ :=
  let (s, remaining) := r
  let orig := (s.geo c).width
  let give := min (max 0 (defaultW - orig)) remaining
  if 1 < remaining ∧ 1 < give then (setColumnWidth w s c (orig + give), remaining - give)
  else (s, remaining)

/-- The narrowest column, the first of several. -/
def smallestColumn (s : State) : List ConId → Option ConId
  | [] => none
  | c :: cs =>
      some (cs.foldl (fun best d => if (s.geo d).width < (s.geo best).width then d else best) c)

/-- `viewport_grow_to_fill`; the second result is the column to focus. -/
def viewportGrowToFill (s : State) (w : WsId) (colIdx : Int) (freedWidth : ℚ) : State × Int :=
  let cols := (s.tree.ws w).tiling
  if cols = [] ∨ freedWidth ≤ 1 then (s, -1)
  else
    let k := s.wsGeo w
    let freed := min (freedWidth + k.gapsInner) k.width
    let defaultW := workspaceWidthFraction s w s.config.defaultColumnWidthFraction
    let left := if 1 ≤ colIdx then cols[(colIdx - 1).toNat]?.toList else []
    let right := cols.drop colIdx.toNat
    let (s, remaining) := (left ++ right).foldl (growToDefault w defaultW) (s, freed)
    let s :=
      if 1 < remaining then
        match smallestColumn s cols with
        | some c => setColumnWidth w s c ((s.geo c).width + remaining)
        | none => s
      else s
    (s, if 1 ≤ colIdx then colIdx - 1 else -1)

/-- The loop of `viewport_grow_evenly`: the last column gets what is left. -/
def growEach (w : WsId) (give : ℚ) : List ConId → ℚ → State → State
  | [], _, s => s
  | c :: cs, left, s =>
      let add := if cs = [] then left else give
      growEach w give cs (left - add)
        (setColumnWidth w s c (min ((s.geo c).width + add) (s.wsGeo w).width))

/-- `viewport_grow_evenly` -/
def viewportGrowEvenly (s : State) (w : WsId) (freedWidth : ℚ) : State :=
  let cols := (s.tree.ws w).tiling
  if freedWidth ≤ 1 then s else growEach w (freedWidth / cols.length) cols freedWidth s

/-- The fallback loop of `workspace_even_freed`, over the columns from the freed one on. -/
def evenFreedLoop (w : WsId) (last : Option ConId) : List ConId → ℚ → State → State
  | [], remaining, s =>
      match last with
      | some c => if 1 < remaining then setColumnWidth w s c ((s.geo c).width + remaining) else s
      | none => s
  | c :: cs, remaining, s =>
      if remaining ≤ 1 then s
      else if remaining < (s.geo c).width then setColumnWidth w s c remaining
      else evenFreedLoop w (some c) cs (remaining - ((s.geo c).width + (s.wsGeo w).gapsInner)) s

/-- `workspace_even_freed` -/
def workspaceEvenFreed (s : State) (w : WsId) (columnIdx : Int) (freedWidth : ℚ) : State :=
  let cols := (s.tree.ws w).tiling
  if cols = [] ∨ freedWidth ≤ 0 then s
  else
    let k := s.wsGeo w
    let freed := min (freedWidth + k.gapsInner) k.width
    if freed ≤ 1 then
      let start := if columnIdx < cols.length then columnIdx.toNat else cols.length - 1
      evenFreedLoop w none (cols.drop start) freed s
    else viewportGrowEvenly s w freed

/-- `column_remove`; the second result is the column to focus. -/
def columnRemove (s : State) (col : ConId) (growNeighbors : Bool) : State × Int :=
  match (s.tree.con col).workspace with
  | none => (containerReapEmpty fo s col, -1)
  | some w =>
      let idx := listFind (s.tree.ws w).tiling col
      let colW := (s.geo col).width
      let s := containerReapEmpty fo s col
      if 0 ≤ idx ∧ growNeighbors ∧ (s.tree.ws w).tiling ≠ [] then viewportGrowToFill s w idx colW
      else (s, -1)

/-! ## Frames -/

theorem onlyGeometry_columnSetWidthPx (s : State) (c : ConId) (widthPx : ℚ) :
    OnlyGeometry s (columnSetWidthPx s c widthPx) := by
  unfold columnSetWidthPx
  dsimp only
  split
  · split
    · exact (OnlyGeometry.modGeo s c _).trans (OnlyGeometry.modGeo _ c _)
    · exact OnlyGeometry.modGeo s c _
  · exact OnlyGeometry.modGeo s c _

theorem onlyGeometry_absorbFarthest (w : WsId) (focusIdx : Int) (n : Nat) (candidates : List Int)
    (s : State) (remaining : ℚ) :
    OnlyGeometry s (absorbFarthest w focusIdx n candidates s remaining).1 := by
  induction n generalizing candidates s remaining with
  | zero => exact OnlyGeometry.refl s
  | succ n ih =>
      rw [absorbFarthest]
      split
      · exact OnlyGeometry.refl s
      · dsimp only
        split
        · exact OnlyGeometry.refl s
        · split
          · exact OnlyGeometry.refl s
          · exact (OnlyGeometry.modGeo s _ _).trans (ih _ _ _)

theorem onlyGeometry_workspaceFitNewColumn (s : State) (w : WsId) (col : ConId) (idx : Int) :
    OnlyGeometry s (workspaceFitNewColumn s w col idx) := by
  unfold workspaceFitNewColumn
  dsimp only
  refine OnlyGeometry.trans ?_ (onlyGeometry_columnSetWidthPx _ col _)
  split
  · exact OnlyGeometry.refl s
  · split
    · exact OnlyGeometry.refl s
    · unfold makeRoom
      dsimp only
      split
      · exact onlyGeometry_absorbFarthest w _ _ _ s _
      · exact OnlyGeometry.refl s

theorem onlyGeometry_growEach (w : WsId) (give : ℚ) (cols : List ConId) (left : ℚ) (s : State) :
    OnlyGeometry s (growEach w give cols left s) := by
  induction cols generalizing left s with
  | nil => exact OnlyGeometry.refl s
  | cons c cs ih => exact (OnlyGeometry.modGeo s c _).trans (ih _ _)

theorem onlyGeometry_evenFreedLoop (w : WsId) (last : Option ConId) (cols : List ConId)
    (remaining : ℚ) (s : State) : OnlyGeometry s (evenFreedLoop w last cols remaining s) := by
  induction cols generalizing last remaining s with
  | nil =>
      unfold evenFreedLoop
      split
      · split
        · exact OnlyGeometry.modGeo s _ _
        · exact OnlyGeometry.refl s
      · exact OnlyGeometry.refl s
  | cons c cs ih =>
      unfold evenFreedLoop
      split
      · exact OnlyGeometry.refl s
      · split
        · exact OnlyGeometry.modGeo s c _
        · exact ih _ _ _

theorem onlyGeometry_workspaceEvenFreed (s : State) (w : WsId) (columnIdx : Int)
    (freedWidth : ℚ) : OnlyGeometry s (workspaceEvenFreed s w columnIdx freedWidth) := by
  unfold workspaceEvenFreed
  dsimp only
  split
  · exact OnlyGeometry.refl s
  · split
    · exact onlyGeometry_evenFreedLoop w none _ _ s
    · unfold viewportGrowEvenly
      dsimp only
      split
      · exact OnlyGeometry.refl s
      · exact onlyGeometry_growEach w _ _ _ s

end Swirl
