import Swirl.Tree.Column

set_option autoImplicit false

/-! # Resizing tiled windows

`tiled_resize_horizontal_px` and `tiled_resize_vertical_px` of `resize.c`: a column or a window of
a column changes by some pixels, and the others of its row or column absorb the change. Both end
with an arrange pass; the sizes assigned before it are `horizontalWidths` and `verticalHeights`.
-/

namespace Swirl

/-! ## Edges -/

/-- `WLR_EDGE_TOP`, `WLR_EDGE_BOTTOM`, `WLR_EDGE_LEFT` and `WLR_EDGE_RIGHT` -/
def wlrEdgeTop : UInt32 := 1
def wlrEdgeBottom : UInt32 := 2
def wlrEdgeLeft : UInt32 := 4
def wlrEdgeRight : UInt32 := 8

/-- Whether one of the edges of a mask is set. -/
def hasEdge (edge mask : UInt32) : Bool := decide (edge &&& mask ≠ 0)

/-! ## Columns -/

/-- The column beside the dragged edge absorbs, if it is a candidate. What is left of the
candidates is not returned: after an edge has absorbed nobody else is asked. -/
def absorbEdge (w : WsId) (edgeSib : Int) (candidates : List Int) (s : State) (remaining : ℚ) :
    State × ℚ :=
  if edgeSib ∈ candidates then
    match (s.tree.ws w).tiling[edgeSib.toNat]? with
    | none => (s, remaining)
    | some c =>
        let orig := (s.geo c).width
        let new := containerClampTiledWidth s c (orig - remaining) (s.wsGeo w).width
        (setColumnWidth w s c new, remaining - (orig - new))
  else (s, remaining)

/-- The widths `tiled_resize_horizontal_px` assigns to the columns of a workspace: first the
column itself, then the ones that absorb the change, then what they could not absorb is taken
back. -/
def horizontalWidths (s : State) (w : WsId) (col : ConId) (edge : UInt32) (newW : ℚ) : State :=
  let colIdx := containerSiblingIndex s.tree col
  if colIdx < 0 then s
  else
    let k := s.wsGeo w
    let realDelta := newW - (s.geo col).width
    let focusIdx := if 0 ≤ k.focusedColumnIdx then k.focusedColumnIdx else colIdx
    let candidates := scanVisible (s.tree.ws w).tiling.length colIdx
    let occupied := scanOccupied s w (-1)
    let s := setColumnWidth w s col newW
    let remaining := if realDelta < 0 then realDelta else max 0 (occupied + realDelta - k.width)
    let dragged := hasEdge edge (wlrEdgeLeft ||| wlrEdgeRight)
    let edgeSib := if hasEdge edge wlrEdgeLeft then colIdx - 1 else colIdx + 1
    let (s, remaining) :=
      if remaining ≠ 0 ∧ dragged then absorbEdge w edgeSib candidates s remaining
      else (s, remaining)
    let (s, remaining) :=
      if dragged = false ∧ remaining ≠ 0 then
        absorbFarthest w focusIdx candidates.length candidates s remaining
      else (s, remaining)
    if 0 < remaining then
      setColumnWidth w s col
        (containerClampTiledWidth s col ((s.geo col).width - remaining) k.width)
    else s

/-- Where `tiled_resize_horizontal_px` goes to work: the workspace of a column that changes, and
the width the column is to get. -/
def horizontalResize (s : State) (con : ConId) (deltaPx : ℚ) : Option (WsId × ℚ) :=
  let col := containerToplevelAncestor s.tree con
  match (s.tree.con col).workspace with
  | none => none
  | some w =>
      let newW := containerClampTiledWidth s col ((s.geo col).width + deltaPx) (s.wsGeo w).width
      if newW - (s.geo col).width = 0 then none else some (w, newW)

/-- `tiled_resize_horizontal_px` up to its arrange pass. -/
def horizontalResized (s : State) (con : ConId) (edge : UInt32) (deltaPx : ℚ) : State :=
  match horizontalResize s con deltaPx with
  | none => s
  | some (w, newW) => horizontalWidths s w (containerToplevelAncestor s.tree con) edge newW

/-- `tiled_resize_horizontal_px` -/
def tiledResizeHorizontalPx (s : State) (con : ConId) (edge : UInt32) (deltaPx : ℚ) : State :=
  match horizontalResize s con deltaPx with
  | none => s
  | some (w, _) => arrangeWorkspace (horizontalResized s con edge deltaPx) w

/-! ## The order in which windows absorb -/

/-- The array `order[64]` while it is filled: its items, and the indices written so far. -/
structure OrderArray where
  items : List Int
  writes : List Nat
  deriving DecidableEq, Repr

/-- `order[no++] = k` -/
def OrderArray.push (order : OrderArray) (k : Int) : OrderArray :=
  ⟨order.items ++ [k], order.writes ++ [order.items.length]⟩

/-- The length the array is declared with. -/
def orderLength : Nat := 64

/-- The neighbour at a dragged edge comes first. -/
def edgeNeighbour (n : Nat) (index : Int) (edge : UInt32) (order : OrderArray) : OrderArray :=
  if hasEdge edge (wlrEdgeTop ||| wlrEdgeBottom) then
    let adj := index + if hasEdge edge wlrEdgeBottom then 1 else -1
    if 0 ≤ adj ∧ adj < n ∧ adj ≠ index then order.push adj else order
  else order

/-- One round of the inner loop: an index that is in the column, not the focused one and not in
the array yet is added. -/
def orderStep (n : Nat) (index : Int) (order : OrderArray) (k : Int) : OrderArray :=
  if k < 0 ∨ n ≤ k ∨ k = index then order
  else if k ∈ order.items then order
  else order.push k

/-- The indices the two loops try: distances from `d` down, first above, then below. -/
def triedIndices (index : Int) : Nat → List Int
  | 0 => []
  | d + 1 => (index - (d + 1)) :: (index + (d + 1)) :: triedIndices index d

/-- The array `order` of `tiled_resize_vertical_px`. -/
def absorptionOrder (n : Nat) (index : Int) (edge : UInt32) : OrderArray :=
  (triedIndices index (n - 1)).foldl (orderStep n index) (edgeNeighbour n index edge ⟨[], []⟩)

/-! ## Windows of a column -/

/-- A window gets a height, and the fraction of the workspace that goes with it. -/
def setWindowHeight (w : WsId) (s : State) (c : ConId) (height : ℚ) : State :=
  s.modGeo c fun g => { g with height, heightFraction := workspaceHeightToFraction s w height }

/-- The absorption loop; the second result is what remains. -/
def absorbHeights (w : WsId) (usable : ℚ) : List ConId → State → ℚ → State × ℚ
  | [], s, remaining => (s, remaining)
  | c :: cs, s, remaining =>
      if remaining = 0 then (s, remaining)
      else
        let orig := (s.geo c).height
        let new := containerClampTiledHeightResize s c (orig - remaining) usable
        absorbHeights w usable cs (setWindowHeight w s c new) (remaining - (orig - new))

/-- The column that is resized: the nearest parent that stacks its children. -/
def verticalColumn (s : State) (con : ConId) : Option ConId :=
  (s.tree.ancestors con).find? fun p => decide ((s.geo p).layout = .vert)

/-- The height of a column without the gaps between its windows. -/
def usableHeight (s : State) (w : WsId) (col : ConId) : ℚ :=
  (s.geo col).height - (s.wsGeo w).gapsInner * ((s.tree.con col).children.length - 1)

/-- The windows of a column in the order in which they absorb. -/
def absorbing (s : State) (col con : ConId) (edge : UInt32) : List ConId :=
  let siblings := (s.tree.con col).children
  (absorptionOrder siblings.length (listFind siblings con) edge).items.filterMap fun k =>
    siblings[k.toNat]?

/-- What the siblings of a window are to give when it grows, or to take in (a negative number)
when it shrinks. -/
def heightNeed (s : State) (col : ConId) (usable realDelta : ℚ) : ℚ :=
  let occupied := ((s.tree.con col).children.map fun c => (s.geo c).height).sum
  if realDelta < 0 then realDelta else max 0 (occupied + realDelta - usable)

/-- The heights `tiled_resize_vertical_px` assigns to the windows of a column: first the window
itself, then the ones that absorb the change, then what they could not absorb is taken back. -/
def verticalHeights (s : State) (w : WsId) (col con : ConId) (edge : UInt32) (newH : ℚ) : State :=
  let usable := usableHeight s w col
  let remaining := heightNeed s col usable (newH - (s.geo con).height)
  let (s, remaining) :=
    absorbHeights w usable (absorbing s col con edge) (setWindowHeight w s con newH) remaining
  if 0 < remaining then
    setWindowHeight w s con
      (containerClampTiledHeightResize s con ((s.geo con).height - remaining) usable)
  else s

/-- Where `tiled_resize_vertical_px` goes to work: the column and the workspace of a window that
has siblings, and the height the window is to get. -/
def verticalResize (s : State) (con : ConId) (deltaPx : ℚ) : Option (ConId × WsId × ℚ) :=
  match verticalColumn s con with
  | none => none
  | some col =>
      match (s.tree.con col).workspace with
      | none => none
      | some w =>
          let siblings := (s.tree.con col).children
          let usable := usableHeight s w col
          if siblings.length < 2 ∨ con ∉ siblings ∨ usable ≤ 0 then none
          else
            let newH :=
              containerClampTiledHeightResize s con ((s.geo con).height + deltaPx) usable
            if newH - (s.geo con).height = 0 then none else some (col, w, newH)

/-- `tiled_resize_vertical_px` up to its arrange pass. -/
def verticalResized (s : State) (con : ConId) (edge : UInt32) (deltaPx : ℚ) : State :=
  match verticalResize s con deltaPx with
  | none => s
  | some (col, w, newH) => verticalHeights s w col con edge newH

/-- `tiled_resize_vertical_px` -/
def tiledResizeVerticalPx (s : State) (con : ConId) (edge : UInt32) (deltaPx : ℚ) : State :=
  match verticalResize s con deltaPx with
  | none => s
  | some (_, w, _) => arrangeWorkspace (verticalResized s con edge deltaPx) w

end Swirl
