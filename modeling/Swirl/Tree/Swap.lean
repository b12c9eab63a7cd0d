import Swirl.Tree.SetFloating

set_option autoImplicit false

/-! # Swapping two containers

`container_swap`: the two containers trade their sizes and their places in the tree, and the
focus follows.
-/

namespace Swirl

variable (fo : FocusOps)

/-- `would_nest_container` -/
def wouldNestContainer (t : Tree) (c : ConId) (parent : Option ConId) : Bool :=
  parent.isSome && (t.con c).view.isNone

/-- A container takes the box and the fractions of another. -/
def takeBox (g h : Geometry) : Geometry :=
  { g with
    x := h.x, y := h.y, width := h.width, height := h.height
    widthFraction := h.widthFraction, heightFraction := h.heightFraction }

/-- `swap_insert` -/
def swapInsert (s : State) (c : ConId) (parent : Option ConId) (isFloat : Bool) (index : Int) :
    State :=
  match parent, (s.tree.con c).workspace with
  | some p, _ => containerInsertChild fo s p c index
  | none, some w =>
      if isFloat then workspaceAddFloating fo s w c else workspaceInsertTiling fo s w c index
  | none, none => s

/-- The two containers trade their boxes. -/
def swapBoxes (s : State) (c d : ConId) : State :=
  let gc := s.geo c
  let gd := s.geo d
  (s.modGeo c fun g => takeBox g gd).modGeo d fun g => takeBox g gc

/-- `swap_places` -/
def swapPlaces (s : State) (c d : ConId) : State :=
  let parent := (s.tree.con c).parent
  let floating := containerIsFloating s.tree c
  let s := swapBoxes s c d
  let index := containerSiblingIndex s.tree c
  let s := swapInsert fo s c (s.tree.con d).parent (containerIsFloating s.tree d)
    (containerSiblingIndex s.tree d)
  swapInsert fo s d parent floating index

/-- The focus of `swap_focus` when it was in one of the two containers: `f` had the focus, `g` is
the other one. -/
def swapFocusTo (s : State) (f g : ConId) : State :=
  let k := s.currentSeat
  let wf := (s.tree.con f).workspace
  let wg := (s.tree.con g).workspace
  let set (s : State) (c : ConId) := fo.setFocus s k (some (.container c))
  if isTabbedOrStacked (containerParentLayout s g) then
    let visible :=
      match wg with
      | some w => workspaceIsVisible s w
      | none => false
    set (if visible then set s g else s) (if wf ≠ wg then g else f)
  else set s (if wf ≠ wg then g else f)

/-- `swap_focus` -/
def swapFocus (s : State) (c d : ConId) (focus : Option ConId) : State :=
  let k := s.currentSeat
  let s :=
    if focus = some c then swapFocusTo fo s c d
    else if focus = some d then swapFocusTo fo s d c
    else fo.setFocus s k (focus.map .container)
  match s.full.global with
  | some fs => fo.setFocus s k (seatGetFocusInactive s k (.container fs))
  | none => s

/-- A workspace that is no longer shown is shown again. -/
def showAgain (s : State) (w : WsId) : State :=
  if workspaceIsVisible s w then s
  else fo.setFocus s s.currentSeat (seatGetFocusInactive s s.currentSeat (.workspace w))

/-- A container leaves the scratchpad for a swap; a hidden one is shown first. -/
def unscratchForSwap (s : State) (c : ConId) (scratch hidden : Bool) : State :=
  if scratch then
    rootScratchpadRemoveContainer (if hidden then rootScratchpadShow fo s c else s) c
  else s

/-- The other container takes the place in the scratchpad. -/
def scratchAfterSwap (s : State) (c : ConId) (scratch hidden : Bool) : State :=
  if scratch then
    let s := rootScratchpadAddContainer fo s c none
    if hidden then s else rootScratchpadShow fo s c
  else s

/-- The other container takes the fullscreen mode. -/
def fullscreenAfterSwap (s : State) (c : ConId) (mode : FullscreenMode) : State :=
  if mode = .none then s else containerSetFullscreen fo s c mode

/-- `output_get_active_workspace(con->pending.workspace->output)` -/
def activeWorkspaceOf (s : State) (c : ConId) : Option WsId :=
  ((s.tree.con c).workspace.bind fun w => (s.tree.ws w).output).bind (outputGetActiveWorkspace s)

/-- `container_swap` -/
def containerSwap (s : State) (c d : ConId) : State :=
  if containerHasAncestor s.tree c d ∨ containerHasAncestor s.tree d c then s
  else if wouldNestContainer s.tree c (s.tree.con d).parent ∨
      wouldNestContainer s.tree d (s.tree.con c).parent then s
  else
    let scratchC := (s.tree.con c).scratchpad
    let hiddenC := containerIsScratchpadHidden s.tree c
    let scratchD := (s.tree.con d).scratchpad
    let hiddenD := containerIsScratchpadHidden s.tree d
    let s := unscratchForSwap fo (unscratchForSwap fo s c scratchC hiddenC) d scratchD hiddenD
    let modeC := s.full.mode c
    let s := disableFullscreen fo s c
    let modeD := s.full.mode d
    let s := disableFullscreen fo s d
    let focus := seatGetFocusedContainer s s.currentSeat
    match activeWorkspaceOf s c, activeWorkspaceOf s d with
    | some visC, some visD =>
        let s := showAgain fo (showAgain fo (swapPlaces fo s c d) visC) visD
        let s := swapFocus fo s c d focus
        let s := scratchAfterSwap fo (scratchAfterSwap fo s d scratchC hiddenC) c scratchD hiddenD
        fullscreenAfterSwap fo (fullscreenAfterSwap fo s d modeC) c modeD
    | _, _ => s

end Swirl
