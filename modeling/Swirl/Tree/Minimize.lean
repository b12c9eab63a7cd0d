import Swirl.Tree.SetFloating

set_option autoImplicit false

/-! # The minimize pools

`workspace_minimized_hide` parks a container in the pool of its workspace,
`workspace_minimized_show` and `workspace_minimized_show_on` take it out and put it back into the
tree.
-/

namespace Swirl

variable (fo : FocusOps)

/-- A parent that may have become empty is reaped. -/
def reapParent (s : State) (p : Option ConId) : State :=
  match p with
  | some p => containerReapEmpty fo s p
  | none => s

/-- The end of `workspace_minimized_hide`: the container is parked in the pool of the workspace it
was on. -/
def park (s : State) (w : WsId) (c : ConId) : State :=
  setContainerTransform (s.modPool w fun l => listAdd l c) w c

/-- A workspace is arranged, and the seat focuses what it last focused there. -/
def refocusWorkspace (s : State) (w : WsId) : State :=
  if (s.tree.ws w).destroying then s
  else
    let s := arrangeWorkspace s w
    fo.setFocus s s.currentSeat (seatGetFocusInactive s s.currentSeat (.workspace w))

/-- `workspace_minimized_hide` -/
def workspaceMinimizedHide (s : State) (c : ConId) : State :=
  if s.pool.minimized c then s
  else
    let s := disableFullscreen fo s c
    let w := (s.tree.con c).workspace
    let parent := (s.tree.con c).parent
    let s := (s.setWasFloating c (containerIsFloating s.tree c)).setMinimized c true
    let s := reapParent fo (containerDetach s c) parent
    match w with
    | some w => refocusWorkspace fo (park s w c) w
    | none => s

/-- The container goes back into the tree in the mode it had. -/
def restoreMinimized (s : State) (w : WsId) (c : ConId) : State :=
  if s.pool.wasFloating c then
    containerRaiseFloating (fixShown (workspaceAddFloating fo s w c) w c) c
  else workspaceAddTiling fo s w c

/-- `workspace_minimized_show_on` -/
def workspaceMinimizedShowOn (s : State) (c : ConId) (w : WsId) : State :=
  if s.pool.minimized c then
    let old := workspaceMinimizedOwner s c
    let s := (workspaceMinimizedRemove s c).setMinimized c false
    let s := disableFullscreenGlobal fo (disableWsFullscreen fo s w)
    let s := arrangeWorkspace (restoreMinimized fo s w c) w
    let s := fo.setFocus s s.currentSeat (seatGetFocusInactive s s.currentSeat (.container c))
    match old with
    | some o =>
        if (s.tree.ws o).destroying = false ∧ o ≠ w then workspaceConsiderDestroy fo s o else s
    | none => s
  else s

/-- `workspace_minimized_show` -/
def workspaceMinimizedShow (s : State) (c : ConId) : State :=
  match seatGetFocusedWorkspace s s.currentSeat with
  | some w => workspaceMinimizedShowOn fo s c w
  | none => s

end Swirl
