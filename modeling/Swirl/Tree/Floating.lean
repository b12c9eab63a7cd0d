import Swirl.Tree.Arrange
import Swirl.Tree.ArrangeFrame

set_option autoImplicit false

/-! # Sizes and places of floating containers

The part of `container.c` that sizes and places a floating container. All of it writes geometry
only.
-/

namespace Swirl

/-- `INT_MAX` -/
def intMax : Int := 2147483647

/-- A configured bound: `-1` is no bound, `0` the automatic one. -/
def floatingBound (configured unbounded automatic : Int) : Int :=
  if configured = -1 then unbounded else if configured = 0 then automatic else configured

/-- What `floating_calculate_constraints` fills in. -/
structure FloatingConstraints where
  minWidth : Int
  maxWidth : Int
  minHeight : Int
  maxHeight : Int

/-- `floating_calculate_constraints` -/
def floatingCalculateConstraints (s : State) : FloatingConstraints where
  minWidth := floatingBound s.config.floatingMinimumWidth 0 75
  minHeight := floatingBound s.config.floatingMinimumHeight 0 50
  maxWidth := floatingBound s.config.floatingMaximumWidth intMax s.layoutBox.width
  maxHeight := floatingBound s.config.floatingMaximumHeight intMax s.layoutBox.height

/-- `container_set_geometry_from_content` -/
def containerSetGeometryFromContent (s : State) (c : ConId) : State :=
  if (s.tree.con c).view.isSome ∧ containerIsFloating s.tree c then
    let d := s.deco c
    let bare := d.border = .csd ∨ s.full.mode c ≠ .none
    let borderWidth : ℚ := if bare ∨ d.border = .none then 0 else d.borderThickness
    let top : ℚ :=
      if bare then 0
      else if d.border = .normal then s.config.titlebarHeight
      else borderWidth
    s.modGeo c fun g =>
      { g with
        x := g.contentX - borderWidth, y := g.contentY - top,
        width := g.contentWidth + borderWidth * 2,
        height := top + g.contentHeight + borderWidth }
  else s

/-- `floating_natural_resize` -/
def floatingNaturalResize (s : State) (c : ConId) : State :=
  let k := floatingCalculateConstraints s
  match (s.tree.con c).view with
  | none =>
      s.modGeo c fun g =>
        { g with
          width := max k.minWidth (min g.width k.maxWidth)
          height := max k.minHeight (min g.height k.maxHeight) }
  | some v =>
      let (width, height) := containerClampContentSize s c
        (max k.minWidth (min v.naturalWidth k.maxWidth) : Int)
        (max k.minHeight (min v.naturalHeight k.maxHeight) : Int)
      containerSetGeometryFromContent
        (s.modGeo c fun g => { g with contentWidth := width, contentHeight := height }) c

/-- `wlr_box_empty` -/
def boxEmpty (b : Box) : Bool := decide (b.width ≤ 0) || decide (b.height ≤ 0)

/-- The origin that centres a size in an area. -/
def centred (start extent size : ℚ) : ℚ := start + (extent - size) / 2

/-- The end of `container_floating_resize_and_center`: the container is centred on its workspace,
or on the output when it is larger. -/
def centerFloating (s : State) (c : ConId) (k : WsGeometry) (ob : Box) : State :=
  let g := s.geo c
  match (s.tree.con c).view with
  | none =>
      let large := k.width < g.width ∨ k.height < g.height
      s.modGeo c fun g =>
        { g with
          x := if large then centred ob.x ob.width g.width else centred k.x k.width g.width
          y := if large then centred ob.y ob.height g.height
               else centred k.y k.height g.height }
  | some _ =>
      let large := k.width < g.contentWidth ∨ k.height < g.contentHeight
      let s := s.modGeo c fun g =>
        { g with
          contentX := if large then centred ob.x ob.width g.contentWidth
                      else centred k.x k.width g.contentWidth
          contentY := if large then centred ob.y ob.height g.contentHeight
                      else centred k.y k.height g.contentHeight
          borderTop := true, borderBottom := true, borderLeft := true, borderRight := true }
      containerSetGeometryFromContent s c

/-- `container_floating_resize_and_center` -/
def containerFloatingResizeAndCenter (s : State) (c : ConId) : State :=
  match (s.tree.con c).workspace with
  | none => floatingNaturalResize s c
  | some w =>
      match (s.tree.ws w).output with
      | none => s
      | some o =>
          let ob := (s.outGeo o).layoutBox
          if boxEmpty ob then
            s.modGeo c fun g => { g with x := 0, y := 0, width := 0, height := 0 }
          else centerFloating (floatingNaturalResize s c) c (s.wsGeo w) ob

/-- `container_floating_set_default_size` -/
def containerFloatingSetDefaultSize (s : State) (c : ConId) : State :=
  match (s.tree.con c).workspace with
  | none => s
  | some w =>
      let k := floatingCalculateConstraints s
      let box := workspaceGetBox s w
      let width : ℚ := max k.minWidth (min (box.width / 2) k.maxWidth)
      let height : ℚ := max k.minHeight (min (box.height * 3 / 4) k.maxHeight)
      if (s.tree.con c).view.isSome then
        containerSetGeometryFromContent
          (s.modGeo c fun g => { g with contentWidth := width, contentHeight := height }) c
      else s.modGeo c fun g => { g with width, height }

/-- `container_floating_find_output`: the output with the centre of the container, else the
closest one. -/
def containerFloatingFindOutput (s : State) (c : ConId) : Option OutId :=
  let g := s.geo c
  let cx := g.x + g.width / 2
  let cy := g.y + g.height / 2
  let closest (o : OutId) := s.closestPoint (outputGetBox s o) cx cy
  let distance (o : OutId) := ((closest o).1 - cx) ^ 2 + ((closest o).2 - cy) ^ 2
  match s.tree.outputs.find? fun o => decide (closest o = (cx, cy)) with
  | some o => some o
  | none =>
      (s.tree.outputs.foldl
        (fun best o => if distance o < best.2 then (some o, distance o) else best)
        ((none : Option OutId), dblMax)).1

/-! ## Frames -/

theorem onlyGeometry_containerSetGeometryFromContent (s : State) (c : ConId) :
    OnlyGeometry s (containerSetGeometryFromContent s c) := by
  unfold containerSetGeometryFromContent
  split
  · exact OnlyGeometry.modGeo s c _
  · exact OnlyGeometry.refl s

theorem onlyGeometry_floatingNaturalResize (s : State) (c : ConId) :
    OnlyGeometry s (floatingNaturalResize s c) := by
  unfold floatingNaturalResize
  dsimp only
  split
  · exact OnlyGeometry.modGeo s c _
  · exact (OnlyGeometry.modGeo s c _).trans (onlyGeometry_containerSetGeometryFromContent _ c)

theorem onlyGeometry_centerFloating (s : State) (c : ConId) (k : WsGeometry) (ob : Box) :
    OnlyGeometry s (centerFloating s c k ob) := by
  unfold centerFloating
  dsimp only
  split
  · exact OnlyGeometry.modGeo s c _
  · exact (OnlyGeometry.modGeo s c _).trans (onlyGeometry_containerSetGeometryFromContent _ c)

theorem onlyGeometry_containerFloatingResizeAndCenter (s : State) (c : ConId) :
    OnlyGeometry s (containerFloatingResizeAndCenter s c) := by
  unfold containerFloatingResizeAndCenter
  split
  · exact onlyGeometry_floatingNaturalResize s c
  · split
    · exact OnlyGeometry.refl s
    · dsimp only
      split
      · exact OnlyGeometry.modGeo s c _
      · exact (onlyGeometry_floatingNaturalResize s c).trans
          (onlyGeometry_centerFloating _ c _ _)

theorem onlyGeometry_containerFloatingSetDefaultSize (s : State) (c : ConId) :
    OnlyGeometry s (containerFloatingSetDefaultSize s c) := by
  unfold containerFloatingSetDefaultSize
  split
  · exact OnlyGeometry.refl s
  · dsimp only
    split
    · exact (OnlyGeometry.modGeo s c _).trans (onlyGeometry_containerSetGeometryFromContent _ c)
    · exact OnlyGeometry.modGeo s c _

end Swirl
