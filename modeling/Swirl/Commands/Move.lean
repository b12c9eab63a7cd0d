import Swirl.Commands.Columns

set_option autoImplicit false

/-! # Moving containers

The move commands that take a container to another workspace or shift it in its row or column,
the drop at the end of a tiling drag, and the pull of a column to another workspace.
-/

namespace Swirl

variable (fo : FocusOps)

/-- `workspace_focus_fullscreen` -/
def workspaceFocusFullscreen (s : State) (w : WsId) : State :=
  match s.full.workspace w with
  | none => s
  | some fs =>
      s.seats.foldl
        (fun s k =>
          if seatGetFocusedWorkspace s k = some w then
            match seatGetFocusInactive s k (.container fs) with
            | some node => seatSetRawFocus s k node
            | none => s
          else s) s

/-- `container_move_to_workspace`, for a floating container. -/
def moveFloatingToWorkspace (s : State) (c : ConId) (old w : WsId) : State :=
  let oldOutput := (s.tree.ws old).output
  let s := workspaceAddFloating fo (containerDetach s c) w c
  let s := containerHandleFullscreenReparent fo s c
  if oldOutput ≠ (s.tree.ws w).output ∧ s.full.mode c = .none then
    let box := workspaceGetBox s w
    let s := floatingFixCoordinates s c (workspaceGetBox s old) box
    if (s.tree.con c).scratchpad ∧ (s.tree.ws w).output.isSome then
      s.modGeo c fun g => { g with transform := box }
    else s
  else s

/-- `container_move_to_workspace`, for a tiled container. -/
def moveTiledToWorkspace (s : State) (c : ConId) (w : WsId) : State :=
  let s := containerDetach s c
  let s :=
    if (s.tree.con c).view.isSome then
      s.modGeo c fun g =>
        { g with width := 0, height := 0, widthFraction := 0, heightFraction := 0 }
    else
      s.modGeo c fun g =>
        let f := if g.widthFraction ≤ 0 then layoutGetDefaultWidth s else g.widthFraction
        { g with
          widthFraction := f, width := workspaceWidthFraction s w f
          height := workspaceHeightFraction s w 1 }
  workspaceAddTiling fo s w c

/-- `container_move_to_workspace` -/
def containerMoveToWorkspace (s : State) (c : ConId) (w : WsId) : State :=
  match (s.tree.con c).workspace with
  | some old =>
      if old = w then s
      else
        workspaceFocusFullscreen
          (if containerIsFloating s.tree c then moveFloatingToWorkspace fo s c old w
           else moveTiledToWorkspace fo s c w) w
  | none => s

/-- The focus `cmd_move_container` restores. -/
def restoredFocus (s : State) (c : ConId) (focus : Option Node) (parent : Option ConId)
    (old : WsId) : Option Node :=
  if focus = some (.container c) then
    ((parent.bind fun p => seatGetFocusInactive s s.currentSeat (.container p)).orElse fun _ =>
      seatGetFocusInactive s s.currentSeat (.workspace old))
  else focus

/-- The destination output keeps showing the workspace it showed. -/
def keepShown (s : State) (o : Option OutId) (last : Option WsId) : State :=
  match last, o.bind (outputGetActiveWorkspace s) with
  | some l, some n =>
      if l ≠ n then
        match seatGetFocusInactive s s.currentSeat (.workspace l) with
        | some node => seatSetRawFocus s s.currentSeat node
        | none => s
      else s
  | _, _ => s

/-- `cmd_move_container`, to a workspace. -/
def cmdMoveToWorkspace (s : State) (c : ConId) (w : WsId) : State :=
  match (s.tree.con c).workspace with
  | none => s
  | some old =>
      let parent := (s.tree.con c).parent
      let oldOutput := (s.tree.ws old).output
      let newOutput := (s.tree.ws w).output
      if s.full.mode c = .global then s
      else if containerIsSticky s.tree (containerToplevelAncestor s.tree c) ∧ oldOutput.isSome ∧
          oldOutput = newOutput then s
      else
        let last := if oldOutput ≠ newOutput then newOutput.bind (outputGetActiveWorkspace s) else none
        let focus := seatGetFocus s s.currentSeat
        let s := keepShown (containerMoveToWorkspace fo s c w) newOutput last
        let s := fo.setFocus s s.currentSeat (restoredFocus s c focus parent old)
        let s :=
          match parent with
          | some p => containerReapEmpty fo s p
          | none => workspaceConsiderDestroy fo s old
        if s.full.global.isSome then arrangeRoot s
        else
          let s := if (s.tree.ws old).destroying then s else arrangeWorkspace s old
          match newOutput with
          | some o => arrangeOutput s o
          | none => s

/-- `enum wlr_direction` -/
inductive Direction where
  | up | down | left | right
  deriving DecidableEq, Repr

/-- `offs` in `container_move_in_direction` -/
def Direction.offset : Direction → Int
  | .up | .left => -1
  | .down | .right => 1

/-- A member of a list trades places with the one beside it. -/
def swapBeside (s : State) (r : Tree.ListRef) (c : ConId) (offset : Int) : State :=
  let l := s.tree.items r
  let idx := listFind l c
  if 0 ≤ idx + offset ∧ idx + offset < l.length ∧ 0 ≤ idx then
    s.modTree fun t => t.modList r fun l => listSwap l idx (idx + offset)
  else s

/-- `container_move_in_direction`, for a container that is not fullscreen. -/
def containerMoveInDirection (s : State) (c : ConId) (dir : Direction) : State :=
  if s.full.mode c ≠ .none ∨ containerIsFloating s.tree c then s
  else
    match dir with
    | .up | .down =>
        match (s.tree.con c).parent with
        | some p => swapBeside s (.children p) c dir.offset
        | none => s
    | .left | .right =>
        let col := containerToplevelAncestor s.tree c
        match (s.tree.con col).workspace with
        | some w => swapBeside s (.tiling w) col dir.offset
        | none => s

end Swirl
