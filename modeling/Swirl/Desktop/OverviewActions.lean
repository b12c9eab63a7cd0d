import Swirl.Tree.Minimize

set_option autoImplicit false

/-! # What the overview does with a container

The actions of `overview_actions.c`: a picked container gets the focus, is pulled to the workspace
on display, changes places with the focused one, or is restored from a minimize pool. The commands
`pull` and `swap` use the same functions.
-/

namespace Swirl

/-- The position of the pointer. -/
structure Pointer where
  x : ℚ
  y : ℚ

/-- `wlr_output_layout_output_at`: the output of the layout at a position. -/
abbrev OutputAt := State → ℚ → ℚ → Option OutId

variable (fo : FocusOps) (outputAt : OutputAt)

/-- `overview_pick_output` -/
def overviewPickOutput (s : State) (k : SeatId) (p : Pointer) : Option OutId :=
  match (outputAt s p.x p.y).filter fun o => (s.outGeo o).enabled with
  | some o => some o
  | none =>
      match (seatGetFocusedWorkspace s k).bind fun w => (s.tree.ws w).output with
      | some o => some o
      | none => s.tree.outputs.head?

/-- `overview_action_current_ws` -/
def overviewActionCurrentWs (s : State) (k : SeatId) (p : Pointer) : Option WsId :=
  (overviewPickOutput outputAt s k p).bind (outputGetActiveWorkspace s)

/-! ## Pulling -/

/-- A floating container goes to another workspace. -/
def pullFloatingTo (s : State) (c : ConId) (dest : WsId) : State :=
  match (s.tree.con c).workspace with
  | none => s
  | some old =>
      if old = dest then s
      else
        let oldOutput := (s.tree.ws old).output
        let s := workspaceAddFloating fo (containerDetach s c) dest c
        let s :=
          if oldOutput ≠ (s.tree.ws dest).output then
            floatingFixCoordinates s c (workspaceGetBox s old) (workspaceGetBox s dest)
          else s
        let s := arrangeWorkspace (arrangeWorkspace s old) dest
        if (s.tree.ws old).destroying then s else workspaceConsiderDestroy fo s old

/-- Where a container centred on the pointer goes: it stays on the output. -/
def pointerPlace (s : State) (c : ConId) (p : Pointer) : ℚ × ℚ :=
  let g := s.geo c
  let lx := p.x - g.width / 2
  let ly := p.y - g.height / 2
  match outputAt s p.x p.y with
  | none => (lx, ly)
  | some o =>
      let box := (s.outGeo o).layoutBox
      let lx := max lx box.x
      let ly := max ly box.y
      (if box.x + box.width < lx + g.width then box.x + box.width - g.width else lx,
        if box.y + box.height < ly + g.height then box.y + box.height - g.height else ly)

/-- `overview_pull_container_to`, for a floating container that is not hidden. -/
def pullFloating (s : State) (k : SeatId) (p : Pointer) (c : ConId) (dest : WsId) : State :=
  let s := if s.full.mode c ≠ .none then containerSetFullscreen fo s c .none else s
  let s := pullFloatingTo fo s c dest
  let place := pointerPlace outputAt s c p
  let s := containerFloatingMoveTo fo s c place.1 place.2
  containerRaiseFloating (fo.setFocus s k (some (.container c))) c

/-- Where a pulled column goes: right of the focused column, else to the place of the column that
was focused there, else to the end. -/
def pullIndex (s : State) (k : SeatId) (col : ConId) (dest : WsId) : Int :=
  let cols := (s.tree.ws dest).tiling
  let fi : Int :=
    match seatGetFocusedContainer s k with
    | some focus =>
        let focusCol := containerToplevelAncestor s.tree focus
        if focusCol ≠ col then listFind cols focusCol else -1
    | none => -1
  let idx := (s.wsGeo dest).focusedColumnIdx
  if 0 ≤ fi then fi + 1 else if idx < 0 ∨ cols.length < idx then cols.length else idx

/-- `overview_pull_container_to` -/
def overviewPullContainerTo (s : State) (k : SeatId) (p : Pointer) (c : ConId) (dest : WsId) :
    State :=
  let target := containerToplevelAncestor s.tree c
  if containerIsFloating s.tree target then
    if containerIsScratchpadHidden s.tree target then rootScratchpadShow fo s target
    else pullFloating fo outputAt s k p target dest
  else
    let s := workspacePullColumn fo s dest target (pullIndex s k target dest)
    fo.setFocus s k (some (.container target))

/-- `overview_pull_container` -/
def overviewPullContainer (s : State) (k : SeatId) (p : Pointer) (c : ConId) : State :=
  match overviewActionCurrentWs outputAt s k p with
  | some dest => overviewPullContainerTo fo outputAt s k p c dest
  | none => s

/-! ## Swapping -/

/-- The workspaces of two containers are arranged. -/
def arrangeBoth (s : State) (a b : ConId) : State :=
  let wa := (s.tree.con a).workspace
  let wb := (s.tree.con b).workspace
  let s := match wa with
    | some w => arrangeWorkspace s w
    | none => s
  match wb with
  | some w => if wb = wa then s else arrangeWorkspace s w
  | none => s

/-- `overview_swap_container`; the containers must be on workspaces. -/
def overviewSwapContainer (s : State) (focusTop target : ConId) (k : SeatId) : State :=
  if focusTop = target then s
  else if containerIsFloating s.tree focusTop ≠ containerIsFloating s.tree target then s
  else
    let s :=
      if containerIsFloating s.tree focusTop then
        containerRaiseFloating (workspaceSwapFloating fo s focusTop target) target
      else workspaceSwapColumns fo s focusTop target
    arrangeBoth (fo.setFocusRaw s k (some (.container target))) focusTop target

/-! ## The actions -/

/-- `enum overview_action` -/
inductive OverviewAction where
  | focus | pull | swap | restore
  deriving DecidableEq, Repr

/-- `overview_action_focus`, on a thumbnail's container and workspace. -/
def overviewActionFocus (s : State) (k : SeatId) (c : ConId) (w : WsId) : State :=
  let s := if seatGetFocusedWorkspace s k ≠ some w then workspaceSwitch fo s w else s
  let target := containerToplevelAncestor s.tree c
  let s := fo.setFocus s k (some (.container target))
  if containerIsFloating s.tree target then containerRaiseFloating s target else s

/-- `overview_action_swap` -/
def overviewActionSwap (s : State) (k : SeatId) (focusCon : Option ConId) (c : ConId) : State :=
  let target := containerToplevelAncestor s.tree c
  match focusCon with
  | none => fo.setFocus s k (some (.container target))
  | some focus => overviewSwapContainer fo s (containerToplevelAncestor s.tree focus) target k

/-- `overview_action_restore` -/
def overviewActionRestore (s : State) (k : SeatId) (p : Pointer) (c : ConId) : State :=
  match overviewActionCurrentWs outputAt s k p with
  | some dest => workspaceMinimizedShowOn fo s c dest
  | none => workspaceMinimizedShow fo s c

/-- `overview_dispatch_action`, for a thumbnail with this action, container and workspace. -/
def overviewDispatchAction (s : State) (k : SeatId) (p : Pointer) (focusCon : Option ConId)
    (action : OverviewAction) (c : ConId) (w : WsId) : State :=
  match action with
  | .focus => overviewActionFocus fo s k c w
  | .pull => overviewPullContainer fo outputAt s k p c
  | .swap => overviewActionSwap fo s k focusCon c
  | .restore => overviewActionRestore fo outputAt s k p c

end Swirl
