import Swirl.Tree.Workspace

set_option autoImplicit false

/-! # Floating, maximizing, flattening

`container_set_floating`, `container_toggle_maximize`, `container_replace` and
`container_flatten`, with the scratchpad functions of `root.c` they use.
-/

namespace Swirl

variable (fo : FocusOps)

/-! ## Floating and back -/

/-- The border of a client that decorates itself, when it becomes floating. -/
def decorateFloating (s : State) (c : ConId) : State :=
  match (s.tree.con c).view with
  | some v =>
      if v.usingCsd then
        s.modDeco c fun d => { d with savedBorder := d.border, border := .csd }
      else s
  | none => s

/-- The border of a client that decorates itself, when it is tiled again. -/
def decorateTiled (s : State) (c : ConId) : State :=
  match (s.tree.con c).view with
  | some v =>
      if v.usingCsd then s.modDeco c fun d => { d with border := d.savedBorder } else s
  | none => s

/-- The index of the column a container leaves, and the width it frees when it was alone. -/
def freedColumn (s : State) (c : ConId) : Int × ℚ :=
  match (s.tree.con c).workspace, (s.tree.con c).parent with
  | some w, some p =>
      let idx := listFind (s.tree.ws w).tiling p
      (idx, if 0 ≤ idx ∧ (s.tree.con p).children.length = 1 then (s.geo p).width else 0)
  | _, _ => (-1, 0)

/-- The old parent of a container that floats: it keeps the focus behind the container, or goes
when it is empty. -/
def leaveFloatingParent (s : State) (c p : ConId) (setFocus : Bool) : State :=
  let s :=
    if setFocus then
      seatSetRawFocus (seatSetRawFocus s s.currentSeat (.container p)) s.currentSeat (.container c)
    else s
  containerReapEmpty fo s p

/-- `container_set_floating(container, true)` -/
def floatContainer (s : State) (w : WsId) (c : ConId) : State :=
  let setFocus := decide (seatGetFocusedContainer s s.currentSeat = some c)
  let freed := freedColumn s c
  let oldParent := (s.tree.con c).parent
  let s := workspaceAddFloating fo (containerDetach s c) w c
  let s := containerFloatingSetDefaultSize (decorateFloating s c) c
  let s := containerFloatingResizeAndCenter s c
  let s :=
    match oldParent with
    | some p => leaveFloatingParent fo s c p setFocus
    | none => s
  if 0 < freed.2 ∧ 0 ≤ freed.1 then workspaceEvenFreed s w freed.1 freed.2 else s

/-- The index in the row for a container that was floating: left of the first column that is
right of it. -/
def unfloatIndex (s : State) (w : WsId) (c : ConId) : Int :=
  let cols := (s.tree.ws w).tiling
  let k := s.wsGeo w
  cols.findIdx fun d => decide ((s.geo c).x - k.x < (s.geo d).x - k.x)

/-- `container_set_floating(container, false)`: the container gets a column of its own. -/
def unfloatContainer (s : State) (w : WsId) (c : ConId) : State :=
  let s := leaveScratchpad s c
  let idx := unfloatIndex s w c
  let s := containerDetach s c
  let col := s.tree.nextCon
  let s := containerAddChild fo (createColumn s (some w)) col c
  let s := s.modGeo col fun g =>
    { g with
      widthFraction := layoutGetDefaultWidth s, heightFraction := 1, height := (s.wsGeo w).height }
  let s := if (s.tree.ws w).tiling ≠ [] then workspaceFitNewColumn s w col idx else s
  workspaceInsertTilingDirect fo (decorateTiled s c) w col idx

/-- `container_set_floating`; without a workspace the C code has nothing to work on. -/
def containerSetFloating (s : State) (c : ConId) (enable : Bool) : State :=
  if containerIsFloating s.tree c = enable then s
  else
    match (s.tree.con c).workspace with
    | none => s
    | some w => if enable then floatContainer fo s w c else unfloatContainer fo s w c

/-! ## Maximizing -/

/-- `container_toggle_maximize`, for a floating container. -/
def toggleFloatingMaximize (s : State) (c : ConId) : State :=
  if (s.max c).maximized then
    arrangeContainer ((restoreSavedBox s c).modMax c fun m => { m with maximized := false }) c
  else
    let s := saveBox s c
    let s :=
      match (s.tree.con c).workspace with
      | some w =>
          let k := s.wsGeo w
          s.modGeo c fun g => { g with x := k.x, y := k.y, width := k.width, height := k.height }
      | none => s
    arrangeContainer (s.modMax c fun m => { m with maximized := true }) c

/-- One entry of a snapshot. -/
def snapshotOf (s : State) (c : ConId) : MaximizeSnapshot :=
  let g := s.geo c
  { con := c, wf := g.widthFraction, hf := g.heightFraction, pxW := g.width }

/-- The columns pin to their floors, and the column of the container takes the rest. -/
def maximizeColumn (s : State) (w : WsId) (col : ConId) : State :=
  let k := s.wsGeo w
  let cols := (s.tree.ws w).tiling
  if (k.width : ℚ) - k.gapsInner ≤ 0 then s
  else
    let total : ℚ := max 0 (k.width - k.gapsInner * (cols.length - 1))
    let others := cols.filter fun c => decide (c ≠ col)
    let width := total - (others.map (containerClampTiledWidthMin s)).sum
    let s := others.foldl (fun s c => columnSetWidthPx s c (containerClampTiledWidthMin s c)) s
    columnSetWidthPx s col width

/-- The windows of the column pin to their floors, and the container takes the rest. -/
def maximizeInColumn (s : State) (w : WsId) (col c : ConId) : State :=
  let k := s.wsGeo w
  let children := (s.tree.con col).children
  let basis : ℚ := k.height - k.gapsInner
  if children.length ≤ 1 ∨ basis ≤ 0 then s
  else
    let usable := max 0 ((s.geo col).height - k.gapsInner * (children.length - 1))
    let others := children.filter fun d => decide (d ≠ c)
    let floor (d : ConId) := containerClampTiledHeightResize s d 0 usable
    let height := usable - (others.map floor).sum
    let s := others.foldl
      (fun t d => t.modGeo d fun g => { g with heightFraction := floor d / basis }) s
    s.modGeo c fun g => { g with heightFraction := height / basis }

/-- One entry of a snapshot is restored. -/
def restoreSnapshot (s : State) (m : MaximizeSnapshot) : State :=
  let s :=
    if (s.tree.con m.con).workspace.isSome then columnSetWidthPx s m.con m.pxW
    else s.modGeo m.con fun g => { g with widthFraction := m.wf }
  s.modGeo m.con fun g => { g with heightFraction := m.hf }

/-- `container_toggle_maximize`, for a tiled container of a column. A snapshot that is missing
when it is read is a `NULL` list. -/
def toggleTiledMaximize (s : State) (w : WsId) (col c : ConId) : State :=
  if (s.max c).maximized then
    let s := ((s.max c).snapshot.getD []).foldl restoreSnapshot s
    arrangeWorkspace (s.modMax c fun _ => { maximized := false, snapshot := none }) w
  else
    let snapshot := ((s.tree.ws w).tiling ++ (s.tree.con col).children).map (snapshotOf s)
    let s := s.modMax c fun m => { m with snapshot := some snapshot }
    let s := maximizeInColumn (maximizeColumn s w col) w col c
    arrangeWorkspace (s.modMax c fun m => { m with maximized := true }) w

/-- `container_toggle_maximize` -/
def containerToggleMaximize (s : State) (c : ConId) : State :=
  if containerIsFloating s.tree c then toggleFloatingMaximize s c
  else
    let col := containerToplevelAncestor s.tree c
    match (s.tree.con col).workspace with
    | none => s
    | some w => toggleTiledMaximize s w col c

/-! ## The scratchpad -/

/-- `set_container_transform` -/
def setContainerTransform (s : State) (w : WsId) (c : ConId) : State :=
  let box :=
    match (s.tree.ws w).output with
    | some o => outputGetBox s o
    | none => ⟨0, 0, 0, 0⟩
  s.modGeo c fun g => { g with transform := box }

/-- A container leaves the fullscreen mode it may have. -/
def disableFullscreen (s : State) (c : ConId) : State :=
  if s.full.mode c ≠ .none then containerFullscreenDisable fo s c else s

/-- The focus of `root_scratchpad_add_container` after the container is gone from sight. -/
def focusAfterScratchpad (s : State) (w : WsId) (parent : Option ConId) : State :=
  let (s, focus) :=
    match parent with
    | some p =>
        let s := arrangeContainer s p
        (s, seatGetFocusInactive s s.currentSeat (.container p))
    | none => (s, none)
  match focus with
  | some node => fo.setFocus s s.currentSeat (some node)
  | none =>
      let s := arrangeWorkspace s w
      fo.setFocus s s.currentSeat (seatGetFocusInactive s s.currentSeat (.workspace w))

/-- `root_scratchpad_add_container`; the container must be on a workspace. -/
def rootScratchpadAddContainer (s : State) (c : ConId) (w : Option WsId) : State :=
  match (s.tree.con c).scratchpad, (s.tree.con c).workspace with
  | false, some old =>
      let parent := (s.tree.con c).parent
      let s := disableFullscreen fo (setContainerTransform s old c) c
      let s :=
        if containerIsFloating s.tree c then s
        else
          containerFloatingMoveToCenter
            (containerFloatingSetDefaultSize (containerSetFloating fo s c true) c) c
      let s := (containerDetach s c).modTree fun t =>
        { t.modCon c fun k => { k with scratchpad := true } with
          scratchpad := listAdd t.scratchpad c }
      match w with
      | some w => workspaceAddFloating fo s w c
      | none => focusAfterScratchpad fo s old parent
  | _, _ => s

/-- The container that `root_scratchpad_show` shows: a hidden one stands for its ancestor. -/
def shownContainer (s : State) (c : ConId) : ConId :=
  if (s.tree.con c).workspace.isSome then c else containerToplevelAncestor s.tree c

/-- A container that is shown elsewhere leaves its workspace; the last inactive container there
stays above the workspace in the focus stack. -/
def leaveShown (s : State) (c : ConId) : State :=
  match (s.tree.con c).workspace with
  | some w =>
      let s := containerDetach s c
      match seatGetFocusInactive s s.currentSeat (.workspace w) with
      | some node => seatSetRawFocus s s.currentSeat node
      | none => s
  | none => s

/-- A container that is put on a workspace is moved from the output it was on. -/
def fixShown (s : State) (w : WsId) (c : ConId) : State :=
  let s :=
    match (s.tree.ws w).output with
    | some o => floatingFixCoordinates s c (s.geo c).transform (outputGetBox s o)
    | none => s
  setContainerTransform s w c

/-- `root_scratchpad_show` -/
def rootScratchpadShow (s : State) (c : ConId) : State :=
  match seatGetFocusedWorkspace s s.currentSeat with
  | none => s
  | some w =>
      let oldWs := (s.tree.con c).workspace
      let s := disableFullscreenGlobal fo (disableWsFullscreen fo s w)
      let d := shownContainer s c
      let s := fixShown (workspaceAddFloating fo (leaveShown s c) w d) w d
      let s := arrangeWorkspace s w
      let s := fo.setFocus s s.currentSeat (seatGetFocusInactive s s.currentSeat (.container d))
      containerRaiseFloating (considerDestroy fo s oldWs) d

/-! ## Replacing and flattening -/

/-- The replacement takes the size of the container. -/
def copySize (old new : Geometry) : Geometry :=
  { new with
    widthFraction := old.widthFraction, heightFraction := old.heightFraction,
    width := old.width, height := old.height }

/-- `container_replace`, the exchange of the two containers in the tree. -/
def replaceLinks (s : State) (c d : ConId) : State :=
  if (s.tree.con c).parent.isSome ∨ (s.tree.con c).workspace.isSome then
    let g := s.geo c
    let s := containerDetach (containerAddSibling fo s c d true) c
    s.modGeo d fun e =>
      copySize { s.geo c with widthFraction := g.widthFraction, heightFraction := g.heightFraction } e
  else s

/-- The fullscreen mode of a replaced container goes to the replacement. -/
def takeFullscreen (s : State) (d : ConId) : FullscreenMode → State
  | .none => s
  | .workspace => containerFullscreenWorkspace fo s d
  | .global => containerFullscreenGlobal fo s d

/-- `container_replace` -/
def containerReplace (s : State) (c d : ConId) : State :=
  let mode := s.full.mode c
  let scratchpad := (s.tree.con c).scratchpad
  let s := disableFullscreen fo s c
  let w := (s.tree.con c).workspace
  let s := if scratchpad then rootScratchpadRemoveContainer (rootScratchpadShow fo s c) c else s
  let s := replaceLinks fo s c d
  let s := if scratchpad then rootScratchpadAddContainer fo s d w else s
  takeFullscreen fo s d mode

/-- The loop of `container_flatten`, cut after a number of steps. -/
def flattenLoop : Nat → State → Option ConId → State
  | 0, s, _ => s
  | _, s, none => s
  | n + 1, s, some c =>
      match (s.tree.con c).children with
      | [child] =>
          let parent := (s.tree.con c).parent
          flattenLoop n (containerBeginDestroy fo (containerReplace fo s c child) c) parent
      | _ => s

/-- `container_flatten` -/
def containerFlatten (s : State) (c : ConId) : State :=
  if (s.tree.con c).view.isSome then s else flattenLoop fo (s.tree.nextCon + 1) s (some c)

end Swirl
