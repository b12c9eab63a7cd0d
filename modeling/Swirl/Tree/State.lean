import Swirl.Tree.Node

set_option autoImplicit false

/-! # State updates, size constraints and width fractions

The field updates of a `State`, and the functions of `container.c` and `layout.c` that turn view
constraints and configured fractions into pixel bounds.
-/

namespace Swirl

namespace State

/-! ## Updates -/

def modTree (s : State) (f : Tree → Tree) : State := { s with tree := f s.tree }

@[simp] theorem tree_modTree (s : State) (f : Tree → Tree) : (s.modTree f).tree = f s.tree := rfl

def modGeo (s : State) (c : ConId) (f : Geometry → Geometry) : State :=
  { s with geo := Function.update s.geo c (f (s.geo c)) }

def modWsGeo (s : State) (w : WsId) (f : WsGeometry → WsGeometry) : State :=
  { s with wsGeo := Function.update s.wsGeo w (f (s.wsGeo w)) }

def modDeco (s : State) (c : ConId) (f : Decoration → Decoration) : State :=
  { s with deco := Function.update s.deco c (f (s.deco c)) }

def modMax (s : State) (c : ConId) (f : MaxState → MaxState) : State :=
  { s with max := Function.update s.max c (f (s.max c)) }

def modSeat (s : State) (k : SeatId) (f : Seat → Seat) : State :=
  { s with seat := Function.update s.seat k (f (s.seat k)) }

def setMode (s : State) (c : ConId) (m : FullscreenMode) : State :=
  { s with full := { s.full with mode := Function.update s.full.mode c m } }

def setWsFullscreen (s : State) (w : WsId) (fs : Option ConId) : State :=
  { s with full := { s.full with workspace := Function.update s.full.workspace w fs } }

def setFullscreenGlobal (s : State) (fs : Option ConId) : State :=
  { s with full := { s.full with global := fs } }

def setMinimized (s : State) (c : ConId) (b : Bool) : State :=
  { s with pool := { s.pool with minimized := Function.update s.pool.minimized c b } }

def setWasFloating (s : State) (c : ConId) (b : Bool) : State :=
  { s with pool := { s.pool with wasFloating := Function.update s.pool.wasFloating c b } }

def modPool (s : State) (w : WsId) (f : List ConId → List ConId) : State :=
  { s with pool := { s.pool with pool := Function.update s.pool.pool w (f (s.pool.pool w)) } }

def fault (s : State) (f : Fault) : State := { s with faults := s.faults ++ [f] }

/-- What the C code would do wrong in a `list_insert` is recorded: an index outside the list, and
the child list of a view, which does not exist. -/
def checkInsert (s : State) (r : Tree.ListRef) (index : Int) : State :=
  let s := match r with
    | .children p => if (s.tree.con p).view.isSome then s.fault (.nullChildren p) else s
    | _ => s
  if InsertOk (s.tree.items r) index then s
  else s.fault (.insertRange index (s.tree.items r).length)

/-- `list_insert` of a container into a list of the tree. -/
def listInsertAt (s : State) (r : Tree.ListRef) (index : Int) (c : ConId) : State :=
  (s.checkInsert r index).modTree fun t => t.modList r fun l => listInsert l index c

/-- `list_insert` of a container into a list of the tree, with the links that go with it. -/
def attach (s : State) (r : Tree.ListRef) (index : Int) (c : ConId) : State :=
  (s.checkInsert r index).modTree fun t => t.attach r index c

/-- `list_add` of a container to a list of the tree, with the links that go with it. -/
def attachLast (s : State) (r : Tree.ListRef) (c : ConId) : State :=
  s.attach r (s.tree.items r).length c

end State

/-! ## Size constraints -/

/-- The four bounds `container_get_size_constraints` computes. -/
structure SizeConstraints where
  minWidth : ℚ
  maxWidth : ℚ
  minHeight : ℚ
  maxHeight : ℚ

/-- A container without constraints. -/
def SizeConstraints.unset : SizeConstraints := ⟨dblMin, dblMax, dblMin, dblMax⟩

/-- The constraints that satisfy two sets of them. -/
def SizeConstraints.meet (a b : SizeConstraints) : SizeConstraints :=
  ⟨max a.minWidth b.minWidth, min a.maxWidth b.maxWidth,
    max a.minHeight b.minHeight, min a.maxHeight b.maxHeight⟩

/-- `view_get_constraints`, as the two shells implement it: a hint that is not positive is no
hint. -/
def viewGetConstraints (v : View) : SizeConstraints :=
  { minWidth := if 0 < v.minWidth then v.minWidth else dblMin
    maxWidth := if 0 < v.maxWidth then v.maxWidth else dblMax
    minHeight := if 0 < v.minHeight then v.minHeight else dblMin
    maxHeight := if 0 < v.maxHeight then v.maxHeight else dblMax }

/-- The constraints of a view with its borders added. -/
def viewContainerConstraints (s : State) (c : ConId) (v : View) : SizeConstraints :=
  let k := viewGetConstraints v
  let d := s.deco c
  let bw : ℚ := if d.border = .none then 0 else d.borderThickness
  let top : ℚ :=
    if d.border = .normal ∧ s.full.mode c = .none then s.config.titlebarHeight else bw
  { minWidth := if k.minWidth ≠ dblMin then k.minWidth + 2 * bw else dblMin
    maxWidth := if k.maxWidth ≠ dblMax then k.maxWidth + 2 * bw else dblMax
    minHeight := if k.minHeight ≠ dblMin then k.minHeight + top + bw else dblMin
    maxHeight := if k.maxHeight ≠ dblMax then k.maxHeight + top + bw else dblMax }

/-- `container_get_size_constraints`, cut below a depth. -/
def sizeConstraintsWithin (s : State) : Nat → ConId → SizeConstraints
  | 0, _ => .unset
  | n + 1, c =>
      match (s.tree.con c).view with
      | some v => viewContainerConstraints s c v
      | none =>
          (s.tree.con c).children.foldl (fun k d => k.meet (sizeConstraintsWithin s n d)) .unset

/-- `container_get_size_constraints` -/
def containerGetSizeConstraints (s : State) (c : ConId) : SizeConstraints :=
  sizeConstraintsWithin s (s.tree.nextCon + 1) c

theorem dblMin_pos : 0 < dblMin := by
  unfold dblMin
  positivity

/-- Meeting constraints only raises the minimum width. -/
theorem le_foldl_meet_minWidth {α : Type} (f : α → SizeConstraints) (l : List α)
    (k : SizeConstraints) : k.minWidth ≤ (l.foldl (fun k a => k.meet (f a)) k).minWidth := by
  induction l generalizing k with
  | nil => exact le_rfl
  | cons a l ih => exact (le_max_left k.minWidth (f a).minWidth).trans (ih (k.meet (f a)))

/-! ## Fractions of a workspace -/

/-- `workspace_width_fraction` -/
def workspaceWidthFraction (s : State) (w : WsId) (fraction : ℚ) : ℚ :=
  let g := s.wsGeo w
  if 1 ≤ fraction then g.width else (g.width - g.gapsInner) * fraction

/-- `workspace_height_fraction` -/
def workspaceHeightFraction (s : State) (w : WsId) (fraction : ℚ) : ℚ :=
  let g := s.wsGeo w
  if 1 ≤ fraction then g.height else (g.height - g.gapsInner) * fraction

/-- `workspace_width_to_fraction` -/
def workspaceWidthToFraction (s : State) (w : WsId) (pixelWidth : ℚ) : ℚ :=
  let divisor : ℚ := (s.wsGeo w).width - (s.wsGeo w).gapsInner
  if 0 < divisor then pixelWidth / divisor else 0

/-- `workspace_height_to_fraction` -/
def workspaceHeightToFraction (s : State) (w : WsId) (pixelHeight : ℚ) : ℚ :=
  let divisor : ℚ := (s.wsGeo w).height - (s.wsGeo w).gapsInner
  if 0 < divisor then pixelHeight / divisor else 0

/-- `layout_get_default_width` -/
def layoutGetDefaultWidth (s : State) : ℚ := s.config.defaultColumnWidthFraction

/-- `workspace_clamp_column_width` -/
def workspaceClampColumnWidth (s : State) (w : WsId) (pixelWidth : ℚ) : ℚ :=
  let defaultW := workspaceWidthFraction s w s.config.defaultColumnWidthFraction
  let minW := workspaceWidthFraction s w s.config.minColumnWidthFraction
  if defaultW ≤ pixelWidth ∨ pixelWidth < minW then defaultW else pixelWidth

/-- `column_set_width_px` -/
def columnSetWidthPx (s : State) (c : ConId) (widthPx : ℚ) : State :=
  let s := s.modGeo c fun g => { g with width := widthPx }
  match (s.tree.con c).workspace with
  | some w =>
      if 0 < (s.wsGeo w).width then
        s.modGeo c fun g => { g with widthFraction := workspaceWidthToFraction s w widthPx }
      else s
  | none => s

/-! ## Clamps -/

/-- `tiled_clamp_width_min` -/
def containerClampTiledWidthMin (s : State) (c : ConId) : ℚ :=
  let k := containerGetSizeConstraints s c
  let minW := if k.minWidth ≠ dblMin then k.minWidth else 0
  match (s.tree.con c).workspace with
  | some w =>
      if 0 < s.config.minColumnWidthFraction then
        max minW (workspaceWidthFraction s w s.config.minColumnWidthFraction)
      else minW
  | none => minW

/-- `tiled_clamp_height_min` -/
def containerClampTiledHeightMin (s : State) (c : ConId) : ℚ :=
  let k := containerGetSizeConstraints s c
  if k.minHeight ≠ dblMin then k.minHeight else 0

/-- The rule all tiled clamps share: `lo` wins over `available` and `cap`; `cap` is `DBL_MAX` when
the view declares no maximum. -/
def clampTiled (lo cap desired available : ℚ) : ℚ :=
  max lo (min desired (min available (if cap ≠ dblMax then cap else available)))

/-- `container_clamp_tiled_width` -/
def containerClampTiledWidth (s : State) (c : ConId) (desired available : ℚ) : ℚ :=
  clampTiled (containerClampTiledWidthMin s c) (containerGetSizeConstraints s c).maxWidth
    desired available

/-- `container_clamp_tiled_height` -/
def containerClampTiledHeight (s : State) (c : ConId) (desired available : ℚ) : ℚ :=
  clampTiled (containerClampTiledHeightMin s c) (containerGetSizeConstraints s c).maxHeight
    desired available

/-- `MIN_SANE_W` and `MIN_SANE_H` -/
def minSaneW : Int := 100
def minSaneH : Int := 60

/-- `container_clamp_tiled_height_resize` -/
def containerClampTiledHeightResize (s : State) (c : ConId) (desired available : ℚ) : ℚ :=
  let k := containerGetSizeConstraints s c
  clampTiled (if k.minHeight ≠ dblMin then k.minHeight else minSaneH) k.maxHeight desired available

/-- `container_clamp_content_size` -/
def containerClampContentSize (s : State) (c : ConId) (width height : ℚ) : ℚ × ℚ :=
  match (s.tree.con c).view with
  | none => (width, height)
  | some v =>
      let k := viewGetConstraints v
      let width := if k.minWidth ≠ dblMin then max width k.minWidth else width
      let width := if k.maxWidth ≠ dblMax then min width k.maxWidth else width
      let height := if k.minHeight ≠ dblMin then max height k.minHeight else height
      let height := if k.maxHeight ≠ dblMax then min height k.maxHeight else height
      (width, height)

end Swirl
