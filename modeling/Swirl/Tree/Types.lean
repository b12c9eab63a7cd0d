import Swirl.Common.List
import Swirl.Lib.Rounding
import Mathlib.Logic.Function.Basic

set_option autoImplicit false

/-! # The data model of the window tree

Containers, workspaces, outputs and seats are named by numbers, and a `State` holds one record
for every name. The fields of `struct sway_container` and `struct sway_workspace` are kept in
several maps, by what reads and writes them: the links of the tree (`Tree`), the minimize pools
(`Pool`), the fullscreen pointers (`Fullscreen`), the maximize flags (`MaxState`), the border
settings (`Decoration`) and the geometry (`Geometry`, `WsGeometry`). Doubles are exact
rationals, C `int`s are `Int`.

What only feeds rendering or the clients (scene nodes, titles, IPC events, urgency) is not
modelled; the dirty list and the transactions have a model of their own
(`Swirl/Desktop/Transaction.lean`).
-/

namespace Swirl

abbrev ConId := Nat
abbrev WsId := Nat
abbrev OutId := Nat
abbrev SeatId := Nat

/-- `enum sway_container_layout` -/
inductive Layout where
  | none | horiz | vert | stacked | tabbed
  deriving DecidableEq, Repr

/-- `enum sway_container_border` -/
inductive Border where
  | none | pixel | normal | csd
  deriving DecidableEq, Repr

/-- `enum sway_fullscreen_mode` -/
inductive FullscreenMode where
  | none | workspace | global
  deriving DecidableEq, Repr

/-- `struct sway_node`, as far as it tells nodes apart. -/
inductive Node where
  | root
  | output (o : OutId)
  | workspace (w : WsId)
  | container (c : ConId)
  deriving DecidableEq, Repr

/-- `struct wlr_box` -/
structure Box where
  x : Int
  y : Int
  width : Int
  height : Int
  deriving DecidableEq, Repr

/-- `struct side_gaps` -/
structure SideGaps where
  top : Int
  right : Int
  bottom : Int
  left : Int
  deriving DecidableEq, Repr

/-! ## Numbers -/

/-- `DBL_MIN`, the mark of an unset minimum size. -/
def dblMin : ℚ := 1 / 2 ^ 1022

/-- `DBL_MAX`, the mark of an unset maximum size. -/
def dblMax : ℚ := (2 ^ 53 - 1) * 2 ^ 971

/-! ## The tree -/

/-- The client's side of `struct sway_view`: its size hints (not positive when it has none), its
natural size and whether it decorates itself. -/
structure View where
  minWidth : Int
  maxWidth : Int
  minHeight : Int
  maxHeight : Int
  naturalWidth : Int
  naturalHeight : Int
  usingCsd : Bool
  deriving DecidableEq, Repr

/-- The links and the life of a `struct sway_container`. `children` is `NULL` in the C code
exactly when `view` is set; it is `[]` here. -/
structure Links where
  view : Option View
  parent : Option ConId
  workspace : Option WsId
  children : List ConId
  isSticky : Bool
  scratchpad : Bool
  destroying : Bool

/-- The links and the life of a `struct sway_workspace`. -/
structure WsLinks where
  name : String
  tiling : List ConId
  floating : List ConId
  output : Option OutId
  destroying : Bool

/-- The window tree: who hangs where. `nextCon` and `nextWs` are the names not yet given to a
container or a workspace. -/
structure Tree where
  con : ConId → Links
  ws : WsId → WsLinks
  workspaces : OutId → List WsId
  outputs : List OutId
  fallbackOutput : OutId
  scratchpad : List ConId
  nextCon : ConId
  nextWs : WsId

/-- The minimize pools: `minimized` and `minimized_was_floating` of a container, `minimized` of a
workspace. -/
structure Pool where
  minimized : ConId → Bool
  wasFloating : ConId → Bool
  pool : WsId → List ConId

/-- The fullscreen pointers: `pending.fullscreen_mode`, `fullscreen` of a workspace and
`root->fullscreen_global`. -/
structure Fullscreen where
  mode : ConId → FullscreenMode
  workspace : WsId → Option ConId
  global : Option ConId

/-- `struct maximize_snapshot` -/
structure MaximizeSnapshot where
  con : ConId
  wf : ℚ
  hf : ℚ
  pxW : ℚ
  deriving DecidableEq, Repr

/-- `maximized` and `max_snapshot` of a container. -/
structure MaxState where
  maximized : Bool
  snapshot : Option (List MaximizeSnapshot)

/-- The border settings of a container. -/
structure Decoration where
  border : Border
  borderThickness : Int
  savedBorder : Border

/-- The geometry of a container, with the layout its children are arranged in. -/
structure Geometry where
  x : ℚ
  y : ℚ
  width : ℚ
  height : ℚ
  contentX : ℚ
  contentY : ℚ
  contentWidth : ℚ
  contentHeight : ℚ
  widthFraction : ℚ
  heightFraction : ℚ
  childTotalWidth : ℚ
  childTotalHeight : ℚ
  savedX : ℚ
  savedY : ℚ
  savedWidth : ℚ
  savedHeight : ℚ
  layout : Layout
  borderTop : Bool
  borderBottom : Bool
  borderLeft : Bool
  borderRight : Bool
  transform : Box

/-- The geometry of a workspace. -/
structure WsGeometry where
  x : ℚ
  y : ℚ
  width : Int
  height : Int
  layout : Layout
  gapsInner : Int
  gapsOuter : SideGaps
  currentGaps : SideGaps
  focusedColumnIdx : Int
  defaultFloat : Bool

/-- The geometry of an output: its place in the layout, its size and its usable area, and the box
the output layout has for it. -/
structure OutGeometry where
  lx : Int
  ly : Int
  width : Int
  height : Int
  usableArea : Box
  layoutBox : Box
  enabled : Bool

/-- A layer surface a seat can focus: `exclusive` when it lies in the top layers and asks for
exclusive keyboard interactivity. -/
structure Layer where
  id : Nat
  exclusive : Bool
  deriving DecidableEq, Repr

/-- `struct sway_seat` -/
structure Seat where
  focusStack : List Node
  hasFocus : Bool
  workspace : Option WsId
  focusedLayer : Option Layer
  hasExclusiveLayer : Bool

/-! ## The configuration -/

/-- `enum smart_gaps_mode` -/
inductive SmartGaps where
  | off | on | inverseOuter
  deriving DecidableEq, Repr

/-- `enum edge_border_types` -/
inductive EdgeBorder where
  | none | vertical | horizontal | both
  deriving DecidableEq, Repr

/-- `enum edge_border_smart_types` -/
inductive EdgeBorderSmart where
  | off | on | noGaps
  deriving DecidableEq, Repr

/-- `enum sway_popup_during_fullscreen` -/
inductive PopupDuringFullscreen where
  | smart | ignore | leave
  deriving DecidableEq, Repr

/-- The settings of `struct sway_config` that the tree operations read. `titlebarHeight` is
`container_titlebar_height()`. -/
structure Config where
  defaultColumnWidthFraction : ℚ
  minColumnWidthFraction : ℚ
  gapsInner : Int
  gapsOuter : SideGaps
  smartGaps : SmartGaps
  hideEdgeBorders : EdgeBorder
  hideEdgeBordersSmart : EdgeBorderSmart
  hideLoneTab : Bool
  titlebarHeight : Int
  floatingMinimumWidth : Int
  floatingMinimumHeight : Int
  floatingMaximumWidth : Int
  floatingMaximumHeight : Int
  border : Border
  borderThickness : Int
  floatingBorder : Border
  floatingBorderThickness : Int
  popupDuringFullscreen : PopupDuringFullscreen
  reloading : Bool

/-- What the C code would have done wrong: an insertion outside the list, a use of the child list
of a view. -/
inductive Fault where
  | insertRange (index : Int) (length : Nat)
  | nullChildren (c : ConId)
  deriving DecidableEq, Repr

/-- The compositor's tree with its seats and settings. `isTransientFor` is the clients'
`view_is_transient_for`, `layoutBox` the box of the whole output layout, `closestPoint` the
library's `wlr_box_closest_point`. -/
structure State where
  tree : Tree
  pool : Pool
  full : Fullscreen
  max : ConId → MaxState
  deco : ConId → Decoration
  geo : ConId → Geometry
  wsGeo : WsId → WsGeometry
  outGeo : OutId → OutGeometry
  rootBox : Box
  layoutBox : Box
  seat : SeatId → Seat
  seats : List SeatId
  currentSeat : SeatId
  defaultSeat : SeatId
  sessionLock : Bool
  isTransientFor : ConId → ConId → Bool
  closestPoint : Box → ℚ → ℚ → ℚ × ℚ
  config : Config
  faults : List Fault

end Swirl
