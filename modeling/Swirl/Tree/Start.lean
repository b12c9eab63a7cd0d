import Swirl.Tree.State

set_option autoImplicit false

/-! # The state the compositor starts in

One output with one empty workspace, one seat that focuses it, and the settings of
`config_defaults`. Every run starts here. The states of the examples differ from it by their tree,
which an `Outline` for each workspace gives.
-/

namespace Swirl

/-- `config_defaults`, with a title bar of 25 pixels. -/
def configDefaults : Config where
  defaultColumnWidthFraction := 1 / 2
  minColumnWidthFraction := 1 / 5
  gapsInner := 0
  gapsOuter := ⟨0, 0, 0, 0⟩
  smartGaps := .off
  hideEdgeBorders := .none
  hideEdgeBordersSmart := .off
  hideLoneTab := false
  titlebarHeight := 25
  floatingMinimumWidth := 75
  floatingMinimumHeight := 50
  floatingMaximumWidth := 0
  floatingMaximumHeight := 0
  border := .normal
  borderThickness := 2
  floatingBorder := .normal
  floatingBorderThickness := 2
  popupDuringFullscreen := .smart
  reloading := false

/-- The links of a container name that is not in use. -/
def Links.blank : Links :=
  { view := none, parent := none, workspace := none, children := [], isSticky := false,
    scratchpad := false, destroying := false }

/-- The links of a workspace name that is not in use. -/
def WsLinks.blank : WsLinks :=
  { name := "", tiling := [], floating := [], output := none, destroying := false }

/-- The geometry of a container that was never arranged. -/
def Geometry.blank : Geometry :=
  { x := 0, y := 0, width := 0, height := 0, contentX := 0, contentY := 0, contentWidth := 0,
    contentHeight := 0, widthFraction := 0, heightFraction := 0, childTotalWidth := 0,
    childTotalHeight := 0, savedX := 0, savedY := 0, savedWidth := 0, savedHeight := 0,
    layout := .none, borderTop := false, borderBottom := false, borderLeft := false,
    borderRight := false, transform := ⟨0, 0, 0, 0⟩ }

/-- A fresh workspace over an area. -/
def WsGeometry.fresh (config : Config) (area : Box) : WsGeometry :=
  { x := area.x, y := area.y, width := area.width, height := area.height, layout := .horiz,
    gapsInner := config.gapsInner, gapsOuter := config.gapsOuter, currentGaps := ⟨0, 0, 0, 0⟩,
    focusedColumnIdx := -1, defaultFloat := false }

/-- A view without size hints. -/
def View.plain : View :=
  { minWidth := 0, maxWidth := 0, minHeight := 0, maxHeight := 0, naturalWidth := 640,
    naturalHeight := 480, usingCsd := false }

/-- The tree at the start: output `1` with workspace `0`; output `0` is the fallback. -/
def Tree.start : Tree where
  con _ := Links.blank
  ws w := if w = 0 then { WsLinks.blank with name := "1", output := some 1 } else WsLinks.blank
  workspaces o := if o = 1 then [0] else []
  outputs := [1]
  fallbackOutput := 0
  scratchpad := []
  nextCon := 0
  nextWs := 1

/-- The compositor at the start, on a screen with this area. -/
def State.start (config : Config) (area : Box) : State where
  tree := Tree.start
  pool := { minimized := fun _ => false, wasFloating := fun _ => false, pool := fun _ => [] }
  full := { mode := fun _ => .none, workspace := fun _ => none, global := none }
  max _ := { maximized := false, snapshot := none }
  deco _ := { border := .none, borderThickness := 0, savedBorder := .none }
  geo _ := Geometry.blank
  wsGeo _ := WsGeometry.fresh config area
  outGeo _ :=
    { lx := area.x, ly := area.y, width := area.width, height := area.height, usableArea := area,
      layoutBox := area, enabled := true }
  rootBox := area
  layoutBox := area
  seat _ :=
    { focusStack := [.workspace 0], hasFocus := true, workspace := some 0, focusedLayer := none,
      hasExclusiveLayer := false }
  seats := [0]
  currentSeat := 0
  defaultSeat := 0
  sessionLock := false
  isTransientFor _ _ := false
  closestPoint _ x y := (x, y)
  config
  faults := []

/-! ## Trees of examples -/

/-- What is on a workspace: the columns with their windows, and the floating windows. A column
without windows is a window that stands in the row itself. -/
structure Outline where
  columns : List (ConId × List ConId)
  floating : List ConId

/-- The number of containers. -/
def Outline.size (o : Outline) : Nat :=
  (o.columns.map fun k => k.2.length + 1).sum + o.floating.length

/-- The links of a container of a workspace. -/
def Outline.links (o : Outline) (w : WsId) (c : ConId) : Option Links :=
  match o.columns.find? fun k => k.1 = c with
  | some k =>
      some { Links.blank with
        workspace := some w, children := k.2, view := if k.2 = [] then some View.plain else none }
  | none =>
      match o.columns.find? fun k => c ∈ k.2 with
      | some k =>
          some { Links.blank with
            view := some View.plain, parent := some k.1, workspace := some w }
      | none =>
          if c ∈ o.floating then
            some { Links.blank with view := some View.plain, workspace := some w }
          else none

/-- The containers of all workspaces are named from `0` on. -/
def Tree.outlined (rows : List Outline) : Tree :=
  let n := (rows.map Outline.size).sum
  { Tree.start with
    con := fun c =>
      if c < n then (rows.zipIdx.findSome? fun o => o.1.links o.2 c).getD Links.blank
      else Links.blank
    ws := fun w =>
      match rows[w]? with
      | some o =>
          { WsLinks.blank with
            name := toString (w + 1), tiling := o.columns.map Prod.fst, floating := o.floating,
            output := some 1 }
      | none => WsLinks.blank
    workspaces := fun o => if o = 1 then List.range rows.length else []
    nextCon := n
    nextWs := rows.length }

/-- The compositor on a screen of 1000 by 800 pixels, with these workspaces. -/
def State.outlined (rows : List Outline) : State :=
  { State.start configDefaults ⟨0, 0, 1000, 800⟩ with tree := Tree.outlined rows }

/-- Two columns of one window each, the second one with a layout. -/
def twoColumns (l : Layout) : State :=
  { State.outlined [⟨[(0, [1]), (2, [3])], []⟩] with
    geo := fun c => { Geometry.blank with layout := if c = 2 then l else .vert } }

end Swirl
