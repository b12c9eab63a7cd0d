import Swirl.Input.Focus
import Swirl.Tree.Row

set_option autoImplicit false

/-! # The arrange pass

`arrange.c`, the layout part of `viewport.c`, and what they call in `view.c` and `container.c`:
the pass that gives every node of a workspace its box. It writes geometry only; the tree, the
pools and the focus are as before (`OnlyGeometry`).
-/

namespace Swirl

open Lib

/-! ## Boxes -/

/-- `container_get_box` -/
def containerGetBox (s : State) (c : ConId) : Box :=
  let g := s.geo c
  ⟨truncInt g.x, truncInt g.y, truncInt g.width, truncInt g.height⟩

/-- `workspace_get_box` -/
def workspaceGetBox (s : State) (w : WsId) : Box :=
  let g := s.wsGeo w
  ⟨truncInt g.x, truncInt g.y, g.width, g.height⟩

/-- `output_get_box` -/
def outputGetBox (s : State) (o : OutId) : Box :=
  let g := s.outGeo o
  ⟨g.lx, g.ly, g.width, g.height⟩

/-- A box contains a point. -/
def Box.Contains (b : Box) (x y : ℚ) : Prop :=
  b.x ≤ x ∧ x < b.x + b.width ∧ b.y ≤ y ∧ y < b.y + b.height

instance (b : Box) (x y : ℚ) : Decidable (b.Contains x y) := inferInstanceAs (Decidable (_ ∧ _))

/-- The vertical extent of a box lies within that of another. -/
def Box.Upright (b v : Box) : Prop := v.y ≤ b.y ∧ b.y + b.height ≤ v.y + v.height

/-- A box lies within another. -/
def Box.Inside (b v : Box) : Prop :=
  (v.x ≤ b.x ∧ b.x + b.width ≤ v.x + v.width) ∧ b.Upright v

/-- No point is in both boxes. -/
def Box.Apart (b v : Box) : Prop := ∀ x y : ℚ, ¬ (b.Contains x y ∧ v.Contains x y)

theorem Box.apart_of_left {b u : Box} (h : b.x + b.width ≤ u.x) : b.Apart u := by
  rintro x y ⟨⟨-, hx, -, -⟩, hx', -, -, -⟩
  have hle : (b.x + b.width : ℚ) ≤ u.x := by exact_mod_cast h
  linarith

theorem Box.apart_of_above {b u : Box} (h : b.y + b.height ≤ u.y) : b.Apart u := by
  rintro x y ⟨⟨-, -, -, hy⟩, -, -, hy', -⟩
  have hle : (b.y + b.height : ℚ) ≤ u.y := by exact_mod_cast h
  linarith

theorem Box.Apart.symm {b u : Box} (h : b.Apart u) : u.Apart b := fun x y hxy => h x y hxy.symm

/-! ## One view -/

/-- Whether the parent layout shows only one child at a time. -/
def isTabbedOrStacked (l : Layout) : Bool := decide (l = .tabbed) || decide (l = .stacked)

/-- `view_ancestor_is_only_visible`, from a container upwards. -/
def viewAncestorIsOnlyVisible (s : State) (c : ConId) : Bool :=
  (c :: s.tree.ancestors c).foldl
    (fun only d =>
      if isTabbedOrStacked (containerParentLayout s d) then true
      else only && decide ((containerSiblings s.tree d).length ≤ 1)) true

/-- `view_is_only_visible` -/
def viewIsOnlyVisible (s : State) (c : ConId) : Bool :=
  (c :: s.tree.ancestors c).all fun d =>
    isTabbedOrStacked (containerParentLayout s d) ||
      decide ((containerSiblings s.tree d).length ≤ 1)

/-- `gaps_to_edge` -/
def gapsToEdge (s : State) (w : WsId) : Bool :=
  let g := (s.wsGeo w).currentGaps
  decide (0 < g.top) || decide (0 < g.right) || decide (0 < g.bottom) || decide (0 < g.left)

/-- The border flags of a view that is laid out on a workspace. -/
def edgeBorders (s : State) (c : ConId) (g : Geometry) : Geometry :=
  let g := { g with borderTop := true, borderBottom := true, borderLeft := true,
                    borderRight := true }
  match containerIsFloatingOrChild s.tree c, (s.tree.con c).workspace with
  | false, some w =>
      let k := s.wsGeo w
      let hide := s.config.hideEdgeBorders
      let g :=
        if hide = .both ∨ hide = .vertical then
          { g with
            borderLeft := decide (g.x ≠ k.x)
            borderRight := decide ((truncInt (g.x + g.width) : ℚ) ≠ k.x + k.width) }
        else g
      let g :=
        if hide = .both ∨ hide = .horizontal then
          { g with
            borderTop := decide (g.y ≠ k.y)
            borderBottom := decide ((truncInt (g.y + g.height) : ℚ) ≠ k.y + k.height) }
        else g
      let smart := s.config.hideEdgeBordersSmart = .on ∨
        (s.config.hideEdgeBordersSmart = .noGaps ∧ gapsToEdge s w = false)
      if smart then
        let showBorder := !viewIsOnlyVisible s c
        { g with
          borderLeft := g.borderLeft && showBorder
          borderRight := g.borderRight && showBorder
          borderTop := g.borderTop && showBorder
          borderBottom := g.borderBottom && showBorder }
      else g
  | _, _ => g

/-- `y_offset`: the room for the title bars of a tabbed or stacked parent. -/
def titleOffset (s : State) (c : ConId) : ℚ :=
  let siblings := containerSiblings s.tree c
  if containerIsFloating s.tree c = false ∧ (1 < siblings.length ∨ s.config.hideLoneTab = false)
  then
    match containerParentLayout s c with
    | .tabbed => s.config.titlebarHeight
    | .stacked => s.config.titlebarHeight * siblings.length
    | _ => 0
  else 0

/-- Whether the title bar takes the place of the top border. -/
def titleHidesTop (s : State) (c : ConId) : Bool :=
  let siblings := containerSiblings s.tree c
  !containerIsFloating s.tree c && (decide (1 < siblings.length) || !s.config.hideLoneTab) &&
  isTabbedOrStacked (containerParentLayout s c)

/-- The content box inside the borders: `x`, `y`, `width`, `height`. -/
def contentInside (d : Decoration) (titlebarHeight : Int) (yOffset : ℚ) (g : Geometry) :
    ℚ × ℚ × ℚ × ℚ :=
  let side (b : Bool) : ℚ := if b then d.borderThickness else 0
  match d.border with
  | .csd | .none => (g.x, g.y + yOffset, g.width, g.height - yOffset)
  | .pixel =>
      (g.x + side g.borderLeft, g.y + side g.borderTop + yOffset,
        g.width - side g.borderLeft - side g.borderRight,
        g.height - yOffset - side g.borderTop - side g.borderBottom)
  | .normal =>
      let x := g.x + side g.borderLeft
      let width := g.width - side g.borderLeft - side g.borderRight
      if yOffset ≠ 0 then
        (x, g.y + yOffset, width, g.height - yOffset - side g.borderBottom)
      else
        (x, g.y + titlebarHeight, width, g.height - titlebarHeight - side g.borderBottom)

/-- `view_autoconfigure`, on the container of the view. -/
def viewAutoconfigure (s : State) (c : ConId) : State :=
  let mode := s.full.mode c
  let output := (s.tree.con c).workspace.bind fun w => (s.tree.ws w).output
  let content (x y width height : ℚ) (g : Geometry) : Geometry :=
    { g with contentX := x, contentY := y, contentWidth := width, contentHeight := height }
  if containerIsScratchpadHidden s.tree c ∧ mode ≠ .global then s
  else
    match mode, output with
    | .workspace, some o =>
        let g := s.outGeo o
        s.modGeo c (content g.lx g.ly g.width g.height)
    | .global, _ =>
        let b := s.rootBox
        s.modGeo c (content b.x b.y b.width b.height)
    | _, _ =>
        let g := edgeBorders s c (s.geo c)
        let g := if titleHidesTop s c then { g with borderTop := false } else g
        let (x, y, width, height) :=
          contentInside (s.deco c) s.config.titlebarHeight (titleOffset s c) g
        let (width, height) := containerClampContentSize s c width height
        s.modGeo c fun _ => content x y (max width 1) (max height 1) g

/-! ## Children side by side -/

/-- The two directions of `apply_horiz_layout` and `apply_vert_layout`. -/
inductive Axis where
  | horiz | vert
  deriving DecidableEq

namespace Axis

def fraction (a : Axis) (g : Geometry) : ℚ :=
  match a with
  | horiz => g.widthFraction
  | vert => g.heightFraction

def start (a : Axis) (b : Box) : Int :=
  match a with
  | horiz => b.x
  | vert => b.y

def extent (a : Axis) (b : Box) : Int :=
  match a with
  | horiz => b.width
  | vert => b.height

def other : Axis → Axis
  | horiz => vert
  | vert => horiz

def minSane : Axis → Int
  | horiz => minSaneW
  | vert => minSaneH

/-- What one child gets: its fraction, the total of the children, its place along the axis and
the parent's extent across. -/
def write (a : Axis) (parent : Box) (fraction total : ℚ) (place : ℚ × ℚ × Bool) (g : Geometry) :
    Geometry :=
  let cross : ℚ := if place.2.2 then 0 else a.other.extent parent
  match a with
  | horiz =>
      { g with
        widthFraction := fraction, childTotalWidth := total, x := place.1, y := parent.y,
        width := place.2.1, height := cross }
  | vert =>
      { g with
        heightFraction := fraction, childTotalHeight := total, x := parent.x, y := place.1,
        width := cross, height := place.2.1 }

end Axis

/-- The inner gap of the children of a container: none below a tabbed or stacked one. -/
def innerGap (s : State) (child : ConId) : ℚ :=
  if (child :: s.tree.ancestors child).any fun d => isTabbedOrStacked (containerParentLayout s d)
  then 0
  else
    match (s.tree.con child).workspace with
    | some w => (s.wsGeo w).gapsInner
    | none => 0

/-- `apply_horiz_layout` and `apply_vert_layout` -/
def applyLinearLayout (a : Axis) (s : State) (children : List ConId) (parent : Box) : State :=
  match children with
  | [] => s
  | first :: _ =>
      let n : ℚ := children.length
      let fractions := normalizeFractions (children.map fun c => a.fraction (s.geo c))
      let totalGap := min (innerGap s first * (n - 1)) (max 0 (a.extent parent - a.minSane * n))
      let total := a.extent parent - totalGap
      let places := linearPlaces (a.start parent + a.extent parent) total ⌊totalGap / (n - 1)⌋
        (a.other.extent parent) (a.start parent) fractions
      (children.zip (fractions.zip places)).foldl
        (fun s r => s.modGeo r.1 (a.write parent r.2.1 total r.2.2)) s

def applyHorizLayout := applyLinearLayout .horiz
def applyVertLayout := applyLinearLayout .vert

/-- `apply_tabbed_layout` and `apply_stacked_layout`: `bars` title bars above the content. -/
def applyBarLayout (bars : Int) (s : State) (children : List ConId) (parent : Box) : State :=
  children.foldl
    (fun s c =>
      let offset : ℚ := if (s.tree.con c).view.isSome then 0 else s.config.titlebarHeight * bars
      s.modGeo c fun g =>
        { g with
          x := 0, y := parent.y + offset, width := parent.width,
          height := parent.height - offset }) s

def applyTabbedLayout := applyBarLayout 1

def applyStackedLayout (s : State) (children : List ConId) (parent : Box) : State :=
  applyBarLayout children.length s children parent

/-- The first half of `arrange_children`: the boxes of the children. -/
def applyLayout (s : State) (children : List ConId) (layout : Layout) (parent : Box) : State :=
  match layout with
  | .horiz | .none => applyHorizLayout s children parent
  | .vert => applyVertLayout s children parent
  | .tabbed => applyTabbedLayout s children parent
  | .stacked => applyStackedLayout s children parent

/-! ## The windows of a column -/

/-- What the height split reads of a window. -/
def windowLimits (s : State) (c : ConId) : WindowLimits :=
  { lo := containerClampTiledHeightMin s c
    cap := (containerGetSizeConstraints s c).maxHeight
    hf := shareOf (s.geo c).heightFraction }

/-- One window of a column gets its box. -/
def placeWindow (col : Geometry) (y height : ℚ) (s : State) (c : ConId) : State :=
  let s := s.modGeo c fun g =>
    { g with height, x := col.x, y := col.y + y, width := col.width }
  if (s.tree.con c).view.isSome then viewAutoconfigure s c else s

/-- The placement loop of `viewport_arrange_windows`. -/
def placeWindows (col : Geometry) (gap : ℚ) : ℚ → List (ConId × ℚ) → State → State
  | _, [], s => s
  | y, (c, h) :: rest, s => placeWindows col gap (y + (h + gap)) rest (placeWindow col y h s c)

/-- `viewport_arrange_windows` -/
def viewportArrangeWindows (s : State) (col : ConId) : State :=
  let children := (s.tree.con col).children
  if (s.tree.con col).view.isSome ∨ children = [] then s
  else
    let gap : ℚ :=
      match (s.tree.con col).workspace with
      | some w => (s.wsGeo w).gapsInner
      | none => 0
    let g := s.geo col
    let usableH := max 0 (g.height - gap * (children.length - 1))
    let heights := columnHeights (children.map (windowLimits s)) usableH
    placeWindows g gap 0 (children.zip heights) s

/-! ## Containers -/

/-- `arrange_container`, cut below a depth. -/
def arrangeWithin : Nat → State → ConId → State
  | 0, s, _ => s
  | n + 1, s, c =>
      if s.config.reloading then s
      else if (s.tree.con c).view.isSome then viewAutoconfigure s c
      else if (s.tree.con c).parent.isNone ∧ (s.tree.con c).workspace.isSome ∧
          (s.geo c).layout = .vert then
        viewportArrangeWindows s c
      else
        let children := (s.tree.con c).children
        let s := applyLayout s children (s.geo c).layout (containerGetBox s c)
        children.foldl (arrangeWithin n) s

/-- `arrange_container` -/
def arrangeContainer (s : State) (c : ConId) : State := arrangeWithin (s.tree.nextCon + 1) s c

/-! ## The row of columns -/

/-- What the width clamp of a column reads. -/
def columnLimits (s : State) (c : ConId) : ColumnLimits :=
  { lo := containerClampTiledWidthMin s c
    cap := (containerGetSizeConstraints s c).maxWidth }

/-- The constraints do not depend on the geometry of any container. -/
theorem containerGetSizeConstraints_geo (s : State) (g : ConId → Geometry) (c : ConId) :
    containerGetSizeConstraints { s with geo := g } c = containerGetSizeConstraints s c := by
  have hk : ∀ (n : Nat) (c : ConId),
      sizeConstraintsWithin { s with geo := g } n c = sizeConstraintsWithin s n c := by
    intro n
    induction n with
    | zero => exact fun _ => rfl
    | succ n ih =>
        intro c
        simp only [sizeConstraintsWithin, ih]
        rfl
  exact hk _ c

/-- The limits do not depend on it either. -/
theorem columnLimits_geo (s : State) (g : ConId → Geometry) (c : ConId) :
    columnLimits { s with geo := g } c = columnLimits s c := by
  unfold columnLimits containerClampTiledWidthMin
  rw [containerGetSizeConstraints_geo]
  rfl

/-- A column with its pending width. -/
def rowColumn (s : State) (c : ConId) : RowColumn :=
  { limits := columnLimits s c, w := (s.geo c).width }

/-- `total_w`: the room for the columns without the gaps between them. -/
def rowWidth (gaps : Int) (parent : Box) (n : Nat) : ℚ :=
  max 0 (parent.width - gaps * (n - 1))

/-- A column gets its place: the left edge relative to the origin of the row, and the width. -/
def setColumnBox (w : WsId) (parent : Box) (s : State) (c : ConId) (place : Int × Int) : State :=
  let k := s.wsGeo w
  s.modGeo c fun g =>
    { g with
      x := k.x + place.1, y := k.y, height := parent.height, width := place.2,
      widthFraction := workspaceWidthToFraction s w place.2 }

/-- The windows of a column are arranged, by the layout of the column. -/
def arrangeColumn (s : State) (c : ConId) : State :=
  if (s.tree.con c).view.isSome then s
  else if (s.geo c).layout = .vert then viewportArrangeWindows s c
  else arrangeContainer s c

/-- One round of the placement loop of `workspace_arrange_columns`. -/
def placeColumn (w : WsId) (parent : Box) (s : State) (r : ConId × Int × Int) : State :=
  arrangeColumn (setColumnBox w parent s r.1 r.2) r.1

/-- `workspace_arrange_columns` -/
def workspaceArrangeColumns (s : State) (w : WsId) (parent : Box) : State :=
  let cols := (s.tree.ws w).tiling
  let gaps := (s.wsGeo w).gapsInner
  let row := arrangeRow (rowWidth gaps parent cols.length) (cols.map (rowColumn s))
  (cols.zip (placeColumns gaps 0 0 (row.map RowColumn.w))).foldl (placeColumn w parent) s

/-! ## Floating containers -/

/-- `container_floating_translate`, cut below a depth. -/
def translateWithin : Nat → State → ConId → ℚ → ℚ → State
  | 0, s, _, _, _ => s
  | n + 1, s, c, dx, dy =>
      let s := s.modGeo c fun g =>
        { g with
          x := g.x + dx, y := g.y + dy, contentX := g.contentX + dx, contentY := g.contentY + dy }
      (s.tree.con c).children.foldl (fun s d => translateWithin n s d dx dy) s

/-- `container_floating_translate` -/
def containerFloatingTranslate (s : State) (c : ConId) (dx dy : ℚ) : State :=
  translateWithin (s.tree.nextCon + 1) s c dx dy

/-- `container_floating_move_to_center` -/
def containerFloatingMoveToCenter (s : State) (c : ConId) : State :=
  if containerIsFloating s.tree c then
    match (s.tree.con c).workspace with
    | some w =>
        let k := s.wsGeo w
        let g := s.geo c
        containerFloatingTranslate s c (k.x + (k.width - g.width) / 2 - g.x)
          (k.y + (k.height - g.height) / 2 - g.y)
    | none => s
  else s

/-- `floating_fix_coordinates` -/
def floatingFixCoordinates (s : State) (c : ConId) (old new : Box) : State :=
  if old.width = 0 ∨ old.height = 0 then containerFloatingMoveToCenter s c
  else
    s.modGeo c fun g =>
      let relX := g.x - old.x + g.width / 2
      let relY := g.y - old.y + g.height / 2
      { g with
        x := new.x + relX * new.width / old.width - g.width / 2
        y := new.y + relY * new.height / old.height - g.height / 2 }

/-! ## Workspaces and outputs -/

/-- `workspace_has_single_visible_container` -/
def workspaceHasSingleVisibleContainer (s : State) (w : WsId) : Bool :=
  match seatGetFocusInactiveTiling s s.defaultSeat w with
  | none => false
  | some c =>
      let focus :=
        if (s.tree.con c).view.isSome then some c
        else seatGetFocusInactiveView s s.defaultSeat (.container c)
      match focus with
      | some v => (s.tree.con v).view.isSome && viewAncestorIsOnlyVisible s v
      | none => false

/-- Two opposite gaps that leave less than `sane` of `extent` are cut down, keeping their ratio. -/
def clampGaps (extent sane near far : Int) : Int × Int :=
  if extent - near - far < sane ∧ 0 < near + far then
    let total := max 0 (extent - sane)
    let near' := truncInt ((near : ℚ) / ((near : ℚ) + far) * total)
    (near', total - near')
  else (near, far)

/-- The gaps `workspace_add_gaps` settles on. -/
def currentGaps (s : State) (w : WsId) : SideGaps :=
  let k := s.wsGeo w
  let single := workspaceHasSingleVisibleContainer s w
  if s.config.smartGaps = .on ∧ single then ⟨0, 0, 0, 0⟩
  else
    let g : SideGaps :=
      if s.config.smartGaps = .inverseOuter ∧ single = false then ⟨0, 0, 0, 0⟩ else k.gapsOuter
    let add (x : Int) : Int := max 0 (x + k.gapsInner)
    let (left, right) := clampGaps k.width minSaneW (add g.left) (add g.right)
    let (top, bottom) := clampGaps k.height minSaneH (add g.top) (add g.bottom)
    { top, right, bottom, left }

/-- `workspace_add_gaps`. Under `smart_gaps on` a lone container keeps the whole area. -/
def workspaceAddGaps (s : State) (w : WsId) : State :=
  let g := currentGaps s w
  s.modWsGeo w fun k =>
    { k with
      currentGaps := g, x := k.x + g.left, y := k.y + g.top,
      width := k.width - (g.left + g.right), height := k.height - (g.top + g.bottom) }

/-- One floating container of a workspace that moved. -/
def fixFloater (w : WsId) (o : OutId) (prevBox : Box) (s : State) (c : ConId) : State :=
  let s := floatingFixCoordinates s c prevBox (workspaceGetBox s w)
  if (s.tree.con c).scratchpad then s.modGeo c fun g => { g with transform := outputGetBox s o }
  else s

/-- The loop of `arrange_workspace` over the floating containers. -/
def fixFloaters (s : State) (w : WsId) (o : OutId) (prevBox : Box) : State :=
  (s.tree.ws w).floating.foldl (fixFloater w o prevBox) s

/-- The end of `arrange_workspace`: the fullscreen container, or the columns and the floating
containers. -/
def arrangeContents (s : State) (w : WsId) (o : OutId) : State :=
  match s.full.workspace w with
  | some fs =>
      let out := s.outGeo o
      arrangeContainer
        (s.modGeo fs fun g =>
          { g with x := out.lx, y := out.ly, width := out.width, height := out.height }) fs
  | none =>
      let s := workspaceArrangeColumns s w (workspaceGetBox s w)
      (s.tree.ws w).floating.foldl arrangeContainer s

/-- `arrange_workspace` -/
def arrangeWorkspace (s : State) (w : WsId) : State :=
  if s.config.reloading then s
  else
    match (s.tree.ws w).output with
    | none => s
    | some o =>
        let out := s.outGeo o
        let k := s.wsGeo w
        let prevBox := workspaceGetBox s w
        let x : ℚ := out.lx + out.usableArea.x
        let y : ℚ := out.ly + out.usableArea.y
        let firstArrange := k.width = 0 ∧ k.height = 0
        let moved := x - (k.x - k.currentGaps.left) ≠ 0 ∨ y - (k.y - k.currentGaps.top) ≠ 0
        let s := s.modWsGeo w fun k =>
          { k with width := out.usableArea.width, height := out.usableArea.height, x, y }
        let s := if ¬firstArrange ∧ moved then fixFloaters s w o prevBox else s
        arrangeContents (workspaceAddGaps s w) w o

/-- `arrange_output` -/
def arrangeOutput (s : State) (o : OutId) : State :=
  if s.config.reloading ∨ (s.outGeo o).enabled = false then s
  else (s.tree.workspaces o).foldl arrangeWorkspace s

/-- `arrange_root` -/
def arrangeRoot (s : State) : State :=
  if s.config.reloading then s
  else
    let s := { s with rootBox := s.layoutBox }
    match s.full.global with
    | some fs =>
        let b := s.rootBox
        let s := s.modGeo fs fun g =>
          { g with x := b.x, y := b.y, width := b.width, height := b.height }
        arrangeContainer s fs
    | none => s.tree.outputs.foldl arrangeOutput s

end Swirl
