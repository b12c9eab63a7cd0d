import Swirl.Tree.State

set_option autoImplicit false

/-! # Reading the focus stack

The queries of `seat.c` over a seat's focus stack, and what follows from it: the active workspace
of an output, the visible workspaces and the container a fullscreen one hides. Nothing here
changes the tree.
-/

namespace Swirl

/-! ## Ancestors in the node tree -/

/-- Whether a node stands for the root: it does when it is fullscreen over all outputs. -/
def nodeIsGlobal (s : State) : Node → Bool
  | .container c => decide (s.full.mode c = .global)
  | _ => false

/-- `node_has_ancestor` -/
def nodeHasAncestor (s : State) (node ancestor : Node) : Bool :=
  (decide (ancestor = .root) && nodeIsGlobal s node) ||
  (nodeAncestors s.tree node).any fun p =>
    decide (p = ancestor) || (decide (ancestor = .root) && nodeIsGlobal s p)

/-- `container_parent_layout` -/
def containerParentLayout (s : State) (c : ConId) : Layout :=
  match (s.tree.con c).parent, (s.tree.con c).workspace with
  | some p, _ => (s.geo p).layout
  | none, some w => (s.wsGeo w).layout
  | none, none => .none

/-! ## The focus of a seat -/

/-- `seat_get_focus` -/
def seatGetFocus (s : State) (k : SeatId) : Option Node :=
  if (s.seat k).hasFocus then (s.seat k).focusStack.head? else none

/-- `seat_get_focused_container` -/
def seatGetFocusedContainer (s : State) (k : SeatId) : Option ConId :=
  match seatGetFocus s k with
  | some (.container c) => some c
  | _ => none

/-- `seat_get_focus_inactive` -/
def seatGetFocusInactive (s : State) (k : SeatId) (node : Node) : Option Node :=
  if nodeIsView s.tree node then some node
  else
    match (s.seat k).focusStack.find? fun n => nodeHasAncestor s n node with
    | some n => some n
    | none =>
        match node with
        | .workspace w => some (.workspace w)
        | _ => none

/-- `seat_get_focus_inactive_view` -/
def seatGetFocusInactiveView (s : State) (k : SeatId) (ancestor : Node) : Option ConId :=
  let found :=
    if nodeIsView s.tree ancestor then some ancestor
    else (s.seat k).focusStack.find? fun n => nodeIsView s.tree n && nodeHasAncestor s n ancestor
  match found with
  | some (.container c) => some c
  | _ => none

/-- `seat_get_focus_inactive_tiling` -/
def seatGetFocusInactiveTiling (s : State) (k : SeatId) (w : WsId) : Option ConId :=
  if (s.tree.ws w).tiling = [] then none
  else
    (s.seat k).focusStack.findSome? fun
      | .container c =>
          if !containerIsFloatingOrChild s.tree c && decide ((s.tree.con c).workspace = some w) then
            some c
          else none
      | _ => none

/-- `seat_get_active_tiling_child` -/
def seatGetActiveTilingChild (s : State) (k : SeatId) (parent : Node) : Option Node :=
  if nodeIsView s.tree parent then some parent
  else
    (s.seat k).focusStack.find? fun n =>
      decide (nodeGetParent s.tree n = some parent) &&
      match parent, n with
      | .workspace w, .container c => decide (c ∈ (s.tree.ws w).tiling)
      | _, _ => true

/-- The workspace of a container or a workspace node. -/
def nodeWorkspace (s : State) : Node → Option WsId
  | .container c => (s.tree.con c).workspace
  | .workspace w => some w
  | _ => none

/-- `seat_get_focused_workspace` -/
def seatGetFocusedWorkspace (s : State) (k : SeatId) : Option WsId :=
  (seatGetFocusInactive s k .root).bind (nodeWorkspace s)

/-- `seat_get_last_known_workspace` -/
def seatGetLastKnownWorkspace (s : State) (k : SeatId) : Option WsId :=
  (s.seat k).focusStack.findSome? (nodeWorkspace s)

/-! ## The visible workspaces -/

/-- `output_get_active_workspace` -/
def outputGetActiveWorkspace (s : State) (o : OutId) : Option WsId :=
  match seatGetActiveTilingChild s s.currentSeat (.output o) with
  | some (.workspace w) => some w
  | _ => (s.tree.workspaces o).head?

/-- `workspace_is_visible` -/
def workspaceIsVisible (s : State) (w : WsId) : Bool :=
  !(s.tree.ws w).destroying &&
  match (s.tree.ws w).output with
  | some o => decide (outputGetActiveWorkspace s o = some w)
  | none => false

/-! ## Fullscreen -/

/-- `container_is_fullscreen_or_child` -/
def containerIsFullscreenOrChild (s : State) (c : ConId) : Bool :=
  (c :: s.tree.ancestors c).any fun d => decide (s.full.mode d ≠ .none)

/-- `container_is_transient_for` -/
def containerIsTransientFor (s : State) (child ancestor : ConId) : Bool :=
  decide (s.config.popupDuringFullscreen = .smart) && (s.tree.con child).view.isSome &&
  (s.tree.con ancestor).view.isSome && s.isTransientFor child ancestor

/-- `container_obstructing_fullscreen_container`, the part for one fullscreen container. -/
def obstructedBy (s : State) (c fs : ConId) : Option ConId :=
  if containerIsTransientFor s c fs then none else some fs

/-- `container_obstructing_fullscreen_container` -/
def containerObstructingFullscreenContainer (s : State) (c : ConId) : Option ConId :=
  match (s.tree.con c).workspace.bind s.full.workspace, containerIsFullscreenOrChild s c with
  | some fs, false => obstructedBy s c fs
  | _, _ =>
      match s.full.global with
      | some fs =>
          if c ≠ fs ∧ containerHasAncestor s.tree c fs = false then obstructedBy s c fs else none
      | none => none

/-! ## Changing the stack -/

/-- `seat_set_raw_focus` -/
def seatSetRawFocus (s : State) (k : SeatId) (node : Node) : State :=
  s.modSeat k fun e => { e with focusStack := node :: e.focusStack.erase node }

/-- `handle_new_node` of every seat: a node that is new goes to the end of the stack. -/
def emitNewNode (s : State) (node : Node) : State :=
  s.seats.foldl
    (fun s k => s.modSeat k fun e =>
      if node ∈ e.focusStack then e else { e with focusStack := e.focusStack ++ [node] }) s

/-- `workspace_update_focused_column_idx` -/
def workspaceUpdateFocusedColumnIdx (s : State) (w : WsId) : State :=
  let idx : Int :=
    match seatGetFocusedContainer s s.currentSeat with
    | some c =>
        if (s.tree.con c).workspace = some w then
          listFind (s.tree.ws w).tiling (containerToplevelAncestor s.tree c)
        else -1
    | none => -1
  s.modWsGeo w fun g => { g with focusedColumnIdx := idx }

end Swirl
