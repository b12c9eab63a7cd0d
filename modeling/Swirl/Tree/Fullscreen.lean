import Swirl.Tree.Floating

set_option autoImplicit false

/-! # Fullscreen containers

The fullscreen part of `container.c`. Ending the fullscreen mode of a scratchpad container sets
the focus, and setting the focus can move sticky containers and destroy an empty workspace, which
comes back to the functions here. `FocusOps` stands for the two focus functions: everything they
are called from takes them as a parameter, and `focusOps` (`Swirl/Input/SeatFocus.lean`) ties the
knot.
-/

namespace Swirl

/-- `seat_set_focus` and `seat_set_focus_raw`, for the functions they call. -/
structure FocusOps where
  setFocus : State → SeatId → Option Node → State
  setFocusRaw : State → SeatId → Option Node → State

variable (fo : FocusOps)

/-- A floating container gets back the box it had before. -/
def restoreSavedBox (s : State) (c : ConId) : State :=
  s.modGeo c fun g =>
    { g with x := g.savedX, y := g.savedY, width := g.savedWidth, height := g.savedHeight }

/-- The box of a container is saved. -/
def saveBox (s : State) (c : ConId) : State :=
  s.modGeo c fun g =>
    { g with savedX := g.x, savedY := g.y, savedWidth := g.width, savedHeight := g.height }

/-- The middle of `container_fullscreen_disable`: the pointer to the container is cleared. -/
def clearFullscreenPointer (s : State) (c : ConId) : State :=
  if s.full.mode c = .workspace then
    match (s.tree.con c).workspace with
    | none => s
    | some w =>
        let s := s.setWsFullscreen w none
        if containerIsFloating s.tree c ∧ (s.tree.ws w).output ≠ containerFloatingFindOutput s c
        then containerFloatingMoveToCenter s c
        else s
  else s.setFullscreenGlobal none

/-- The end of `container_fullscreen_disable`: a seat that focuses the container focuses anew. -/
def refocusScratchpad (c : ConId) (s : State) (k : SeatId) : State :=
  match seatGetFocusedContainer s k with
  | some f =>
      if f = c ∨ containerHasAncestor s.tree f c then
        fo.setFocus s k (seatGetFocusInactive s k .root)
      else s
  | none => s

/-- The body of `container_fullscreen_disable`, before the seats are asked to focus. -/
def leaveFullscreen (s : State) (c : ConId) : State :=
  let s := if containerIsFloating s.tree c then restoreSavedBox s c else s
  let s := clearFullscreenPointer s c
  let s :=
    if containerIsFloating s.tree c ∧ ((s.geo c).width = 0 ∨ (s.geo c).height = 0) then
      containerFloatingResizeAndCenter s c
    else s
  s.setMode c .none

/-- `container_fullscreen_disable` -/
def containerFullscreenDisable (s : State) (c : ConId) : State :=
  if s.full.mode c = .none then s
  else
    let s := leaveFullscreen s c
    if (s.tree.con c).scratchpad then s.seats.foldl (refocusScratchpad fo c) s else s

/-- One seat of `container_fullscreen_workspace`. -/
def focusFullscreen (c : ConId) (s : State) (k : SeatId) : State :=
  if seatGetFocusedWorkspace s k = (s.tree.con c).workspace then
    fo.setFocus s k (some (.container c))
  else
    let focus := seatGetFocusInactive s k .root
    let s := seatSetRawFocus s k (.container c)
    match focus with
    | some node => seatSetRawFocus s k node
    | none => s

/-- `container_fullscreen_workspace` -/
def containerFullscreenWorkspace (s : State) (c : ConId) : State :=
  if s.full.mode c ≠ .none then s
  else
    let s := saveBox (s.setMode c .workspace) c
    match (s.tree.con c).workspace with
    | none => s
    | some w =>
        let s := s.setWsFullscreen w (some c)
        s.seats.foldl (focusFullscreen fo c) s

/-- One seat of `container_fullscreen_global`. -/
def focusGlobal (c : ConId) (s : State) (k : SeatId) : State :=
  match seatGetFocusedContainer s k with
  | some f => if f ≠ c then fo.setFocus s k (some (.container c)) else s
  | none => s

/-- `container_fullscreen_global` -/
def containerFullscreenGlobal (s : State) (c : ConId) : State :=
  if s.full.mode c ≠ .none then s
  else
    let s := saveBox (s.setFullscreenGlobal (some c)) c
    let s := s.seats.foldl (focusGlobal fo c) s
    s.setMode c .global

/-- The fullscreen container over all outputs leaves that mode. -/
def disableFullscreenGlobal (s : State) : State :=
  match s.full.global with
  | some fs => containerFullscreenDisable fo s fs
  | none => s

/-- The fullscreen container of a workspace leaves that mode. -/
def disableWsFullscreen (s : State) (w : WsId) : State :=
  match s.full.workspace w with
  | some fs => containerFullscreenDisable fo s fs
  | none => s

/-- `container_set_fullscreen` -/
def containerSetFullscreen (s : State) (c : ConId) (mode : FullscreenMode) : State :=
  if s.full.mode c = mode then s
  else
    match mode with
    | .none => containerFullscreenDisable fo s c
    | .workspace =>
        let s := disableFullscreenGlobal fo s
        let s :=
          match (s.tree.con c).workspace with
          | some w => disableWsFullscreen fo s w
          | none => s
        containerFullscreenWorkspace fo s c
    | .global =>
        let s := disableFullscreenGlobal fo s
        let s :=
          if s.full.mode c = .workspace then containerFullscreenDisable fo s c else s
        containerFullscreenGlobal fo s c

/-- A container or the first one below it that has a fullscreen mode. -/
def findFullscreen (s : State) (c : ConId) (mode : FullscreenMode) : Option ConId :=
  if s.full.mode c = mode then some c
  else containerFindChild s.tree c fun d => decide (s.full.mode d = mode)

/-- `container_handle_fullscreen_reparent`, for a container fullscreen over all outputs. -/
def reparentFullscreenGlobal (s : State) (fs : ConId) : State :=
  if s.full.global = some fs then s
  else arrangeRoot ((disableFullscreenGlobal fo s).setFullscreenGlobal (some fs))

/-- `container_handle_fullscreen_reparent`, for a container fullscreen on its workspace. -/
def reparentFullscreenWorkspace (s : State) (fs : ConId) : State :=
  match (s.tree.con fs).workspace with
  | none => s
  | some w =>
      if s.full.workspace w = some fs then s
      else
        let s := disableWsFullscreen fo s w
        match (s.tree.con fs).workspace with
        | none => s
        | some w => arrangeWorkspace (s.setWsFullscreen w (some fs)) w

/-- `container_handle_fullscreen_reparent` -/
def containerHandleFullscreenReparent (s : State) (c : ConId) : State :=
  match findFullscreen s c .global with
  | some fs => reparentFullscreenGlobal fo s fs
  | none =>
      match findFullscreen s c .workspace with
      | some fs => reparentFullscreenWorkspace fo s fs
      | none => s

end Swirl
