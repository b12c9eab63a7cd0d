import Swirl.Tree.Column

set_option autoImplicit false

/-! # Columns and windows on a workspace

The functions of `workspace.c` that put containers into a workspace: a new window beside the
focused column, a dropped window or column, an exchange of two columns, and the merging of columns
that do not fit.
-/

namespace Swirl

variable (fo : FocusOps)

/-! ## Columns that do not fit -/

/-- What `workspace_fix_overflow` reads once: the configured minimum width and the gap. -/
structure OverflowLimits where
  cfgMin : ℚ
  gaps : Int

/-- The limits at the call. -/
def overflowLimits (s : State) (w : WsId) : OverflowLimits where
  cfgMin := workspaceWidthFraction s w s.config.minColumnWidthFraction
  gaps := (s.wsGeo w).gapsInner

/-- The minimum width a column counts with. -/
def columnMin (k : OverflowLimits) (s : State) (c : ConId) : ℚ :=
  max (containerGetSizeConstraints s c).minWidth k.cfgMin

/-- `total_min`: the minimum widths of the columns and the gaps between them. -/
def totalMin (k : OverflowLimits) (s : State) (w : WsId) : ℚ :=
  let cols := (s.tree.ws w).tiling
  (cols.map (columnMin k s)).sum + k.gaps * (cols.length - 1)

/-- The exit test of `workspace_fix_overflow`. -/
def fitsWorkspace (k : OverflowLimits) (s : State) (w : WsId) : Prop :=
  (s.tree.ws w).tiling.length ≤ 1 ∨ totalMin k s w ≤ (s.wsGeo w).width + 1 / 2

instance (k : OverflowLimits) (s : State) (w : WsId) : Decidable (fitsWorkspace k s w) :=
  inferInstanceAs (Decidable (_ ∨ _))

/-- The column that the last of `n` columns is merged into: the one left of its neighbour, else
its neighbour. -/
def mergeTarget (n : Nat) : Nat := if 3 ≤ n then n - 3 else n - 2

/-- A stack that can no longer fit its children is switched to tabs. -/
def stackToTabs (gaps : Int) (w : WsId) (s : State) (dst : ConId) : State :=
  let children := (s.tree.con dst).children
  let g := s.geo dst
  if g.layout = .vert ∧ children ≠ [] then
    let colH : ℚ := if 0 < g.height then g.height else (s.wsGeo w).height
    let minH (c : ConId) : ℚ :=
      let k := containerGetSizeConstraints s c
      if k.minHeight ≠ dblMin then k.minHeight else 0
    if colH + 1 / 2 < (children.map minH).sum + gaps * (children.length - 1) then
      s.modGeo dst fun g => { g with layout := .tabbed }
    else s
  else s

/-- The views of a column that is merged away; a bare view is its own. -/
def mergedViews (t : Tree) (src : ConId) : List ConId :=
  if (t.con src).view.isSome then [src] else (t.con src).children

/-- One merge of `workspace_fix_overflow`. -/
def mergeColumn (gaps : Int) (w : WsId) (s : State) (src dst : ConId) : State :=
  let s := (mergedViews s.tree src).foldl (fun s c => containerAddChild fo s dst c) s
  containerBeginDestroy fo (stackToTabs gaps w s dst) src

/-- The loop of `workspace_fix_overflow`, for a number of rounds. -/
def fixOverflowLoop (k : OverflowLimits) (w : WsId) : Nat → State → State
  | 0, s => s
  | n + 1, s =>
      if fitsWorkspace k s w then s
      else
        let cols := (s.tree.ws w).tiling
        match cols[cols.length - 1]?, cols[mergeTarget cols.length]? with
        | some src, some dst => fixOverflowLoop k w n (mergeColumn fo k.gaps w s src dst)
        | _, _ => s

/-- `workspace_fix_overflow`: every round takes a column out of the row, so there are at most as
many rounds as columns. -/
def workspaceFixOverflow (s : State) (w : WsId) : State :=
  if (s.wsGeo w).width ≤ 0 then s
  else
    arrangeWorkspace
      (fixOverflowLoop fo (overflowLimits s w) w (s.tree.ws w).tiling.length s) w

theorem onlyGeometry_stackToTabs (gaps : Int) (w : WsId) (s : State) (dst : ConId) :
    OnlyGeometry s (stackToTabs gaps w s dst) := by
  unfold stackToTabs
  exact .ite (.ite (.modGeo s dst _) (.refl s)) (.refl s)

/-! ## Into the row -/

/-- The index in `workspace_add_tiling` of the column the focus is in, or the end of the row. -/
def focusedColumnIndex (s : State) (w : WsId) : Int :=
  let cols := (s.tree.ws w).tiling
  match seatGetFocusInactive s s.currentSeat (.workspace w) with
  | some (.container c) =>
      let found := listFind cols (containerToplevelAncestor s.tree c)
      if containerIsFloatingOrChild s.tree c = false ∧ 0 ≤ found then found else cols.length
  | _ => cols.length

/-- The index after the focused column. -/
def addTilingIndex (s : State) (w : WsId) (focusIdx : Int) : Int :=
  let n : Int := (s.tree.ws w).tiling.length
  if focusIdx < n then focusIdx + 1 else n

/-- A container that is moved leaves its old place, and the parents this leaves empty go. -/
def leaveOldPlace (s : State) (c : ConId) : State :=
  if (s.tree.con c).workspace.isSome then
    let s' := containerDetach s c
    match (s.tree.con c).parent with
    | some p => containerReapEmpty fo s' p
    | none => s'
  else s

/-- `con->pending.parent = NULL` -/
def clearParent (s : State) (c : ConId) : State :=
  s.modTree fun t => t.modCon c fun k => { k with parent := none }

/-- `workspace_insert_tiling_direct` -/
def workspaceInsertTilingDirect (s : State) (w : WsId) (c : ConId) (index : Int) : State :=
  containerHandleFullscreenReparent fo (s.attach (.tiling w) index c) c

/-- `workspace_add_tiling`, once the container is out of its old place: a view gets a column. -/
def addColumn (s : State) (w : WsId) (c : ConId) : State :=
  let focusIdx := focusedColumnIndex s w
  if (s.tree.con c).view.isSome then
    let col := s.tree.nextCon
    let s := workspaceCreateNewColumnAt fo s w c (-1)
    let idx := addTilingIndex s w focusIdx
    let s := workspaceInsertTilingDirect fo s w col idx
    workspaceFitNewColumn s w col idx
  else
    let s := clearParent s c
    workspaceInsertTilingDirect fo s w c (addTilingIndex s w focusIdx)

/-- `workspace_add_tiling` -/
def workspaceAddTiling (s : State) (w : WsId) (c : ConId) : State :=
  workspaceFixOverflow fo (addColumn fo (leaveOldPlace fo (unpark s c) c) w c) w

/-- What `workspace_add_tiling` returns: a view itself, a column that is still there, or the first
column. -/
def addTilingResult (s : State) (w : WsId) (c : ConId) : Option ConId :=
  if (s.tree.con c).view.isSome ∨ c ∈ (s.tree.ws w).tiling then some c
  else (s.tree.ws w).tiling.head?

/-- A view is wrapped into a new column by `workspace_insert_tiling`. -/
def wrapView (s : State) (w : WsId) (c : ConId) : State :=
  let col := s.tree.nextCon
  let s := containerAddChild fo (createColumn s none) col c
  let s := s.modGeo col fun g => { g with widthFraction := layoutGetDefaultWidth s }
  s.modGeo c fun g => { g with heightFraction := 1, height := workspaceHeightFraction s w 1 }

/-- `workspace_insert_tiling` -/
def workspaceInsertTiling (s : State) (w : WsId) (c : ConId) (index : Int) : State :=
  let s := detachIfPlaced s c
  let wrap := (s.tree.con c).view.isSome
  let col := if wrap then s.tree.nextCon else c
  let s := if wrap then wrapView fo s w c else s
  workspaceFitNewColumn (workspaceInsertTilingDirect fo s w col index) w col index

/-- An index is moved into the range of `list_insert`. -/
def clampIndex (index : Int) (n : Nat) : Int := min (max index 0) n

/-- The end of `workspace_insert_column`: the column moves within the row, or comes into it. -/
def placeInRow (s : State) (w : WsId) (c : ConId) (index : Int) : State :=
  let index := clampIndex index (s.tree.ws w).tiling.length
  let cur := listFind (s.tree.ws w).tiling c
  if 0 ≤ cur ∧ cur = index then s
  else
    let index := if 0 ≤ cur ∧ cur < index then index - 1 else index
    let s := s.modTree fun t => t.modList (.tiling w) fun l => listDel l cur
    let s := s.attach (.tiling w) index c
    containerHandleFullscreenReparent fo (clearParent s c) c

/-- The part of `workspace_insert_column` that takes a child out of its parent. -/
def leaveParent (s : State) (c : ConId) : State :=
  match (s.tree.con c).parent with
  | none => s
  | some p =>
      let s := containerDetach s c
      if (s.tree.con p).children = [] then containerReapEmpty fo s p else s

/-- `workspace_insert_column` -/
def workspaceInsertColumn (s : State) (w : WsId) (c : ConId) (index : Int) : State :=
  let s := leaveParent fo (unpark s c) c
  let wrap := (s.tree.con c).view.isSome
  let col := if wrap then s.tree.nextCon else c
  let s := if wrap then workspaceCreateNewColumnAt fo s w c index else s
  let s :=
    match (s.tree.con col).workspace with
    | some w' => if w' ≠ w then containerDetach s col else s
    | none => s
  placeInRow fo s w col index

/-! ## Dropping a window -/

/-- `enum wlr_edges`, as far as a drop uses it. -/
inductive Edge where
  | none | top | bottom | left | right
  deriving DecidableEq, Repr

/-- Where a drop at the side of a column puts the window. -/
def dropIndex (s : State) (w : WsId) (targetCol : ConId) (after : Bool) : Int :=
  let cols := (s.tree.ws w).tiling
  let ti := listFind cols targetCol
  if 0 ≤ ti then ti + (if after then 1 else 0) else if after then cols.length else 0

/-- The reorder path of `workspace_insert_window`: both windows are in one column. -/
def reorderWindow (s : State) (col view target : ConId) (edge : Edge) (after : Bool) : State :=
  let children := (s.tree.con col).children
  let vi := listFind children view
  let ti := listFind children target
  if vi < 0 ∨ ti < 0 then s
  else if edge = .none then
    s.modTree fun t => t.modList (.children col) fun l => listSwap l vi ti
  else
    let s := s.modTree fun t => t.modList (.children col) fun l => listDel l vi
    let ti := listFind (s.tree.con col).children target
    if 0 ≤ ti then s.listInsertAt (.children col) (ti + if after then 1 else 0) view else s

/-- The path of `workspace_insert_window` into the column of the target. -/
def insertIntoColumn (s : State) (col view target : ConId) (after : Bool) : State :=
  let children := (s.tree.con col).children
  let ti := listFind children target
  let ti : Int := if ti < 0 then (if after then children.length else 0) else ti
  let s := s.attach (.children col) (ti + if after then 1 else 0) view
  containerFitVerticalChildren s (some col) view

/-- The end of `workspace_insert_window`: a column that has become empty goes. -/
def reapOldParent (s : State) (p : Option ConId) : State :=
  match p with
  | some p => if (s.tree.con p).children = [] then containerReapEmpty fo s p else s
  | none => s

/-- Whether a drop goes into the column of the target. -/
def Edge.intoColumn : Edge → Bool
  | .top | .bottom | .none => true
  | .left | .right => false

/-- `workspace_insert_window` -/
def workspaceInsertWindow (s : State) (w : WsId) (view target : ConId) (edge : Edge)
    (after : Bool) : State :=
  if view = target then s
  else
    let viewCol := containerToplevelAncestor s.tree view
    let targetCol := containerToplevelAncestor s.tree target
    if viewCol = targetCol ∧ target ≠ viewCol then reorderWindow s viewCol view target edge after
    else if viewCol ≠ targetCol ∧ edge.intoColumn = false ∧
        (s.tree.con viewCol).children = [view] then
      workspaceInsertColumn fo s w viewCol (dropIndex s w targetCol after)
    else
      let oldParent := (s.tree.con view).parent
      let s := containerDetach s view
      let s :=
        if edge.intoColumn then insertIntoColumn s targetCol view target after
        else workspaceInsertColumn fo s w view (dropIndex s w targetCol after)
      reapOldParent fo s oldParent

/-! ## Exchanging columns -/

/-- Two containers exchange their widths. -/
def swapWidths (s : State) (a b : ConId) : State :=
  let ga := s.geo a
  let gb := s.geo b
  let s := s.modGeo a fun g => { g with width := gb.width, widthFraction := gb.widthFraction }
  s.modGeo b fun g => { g with width := ga.width, widthFraction := ga.widthFraction }

/-- `workspace_swap_columns`, on one workspace. -/
def swapColumnsSame (s : State) (w : WsId) (a b : ConId) (idxA idxB : Int) : State :=
  let s := s.modTree fun t => t.modList (.tiling w) fun l => listDel l idxA
  let s := s.listInsertAt (.tiling w) (if idxA < idxB then idxB - 1 else idxB) a
  let nb := listFind (s.tree.ws w).tiling b
  let s :=
    if 0 ≤ nb then
      (s.modTree fun t => t.modList (.tiling w) fun l => listDel l nb).listInsertAt (.tiling w)
        idxA b
    else s
  swapWidths s a b

/-- `workspace_swap_columns`, across workspaces. -/
def swapColumnsAcross (s : State) (wa wb : WsId) (a b : ConId) (idxA idxB : Int) : State :=
  let s := containerDetach (containerDetach s a) b
  let idxA := min idxA (s.tree.ws wb).tiling.length
  let idxB := min idxB (s.tree.ws wa).tiling.length
  let s := s.attach (.tiling wb) idxA a
  let s := s.attach (.tiling wa) idxB b
  let s := swapWidths s a b
  containerHandleFullscreenReparent fo (containerHandleFullscreenReparent fo s a) b

/-- `workspace_swap_columns` -/
def workspaceSwapColumns (s : State) (a b : ConId) : State :=
  if a = b then s
  else
    match (s.tree.con a).workspace, (s.tree.con b).workspace with
    | some wa, some wb =>
        let idxA := listFind (s.tree.ws wa).tiling a
        let idxB := listFind (s.tree.ws wb).tiling b
        if idxA < 0 ∨ idxB < 0 then s
        else if wa = wb then swapColumnsSame s wa a b idxA idxB
        else swapColumnsAcross fo s wa wb a b idxA idxB
    | _, _ => s

/-! ## Moving and exchanging floating containers -/

/-- `container_floating_move_to` -/
def containerFloatingMoveTo (s : State) (c : ConId) (lx ly : ℚ) : State :=
  if containerIsFloating s.tree c then
    let s := containerFloatingTranslate s c (lx - (s.geo c).x) (ly - (s.geo c).y)
    match (s.tree.con c).workspace, containerFloatingFindOutput s c with
    | some old, some o =>
        match outputGetActiveWorkspace s o with
        | some new =>
            if old = new then s
            else
              let s := workspaceAddFloating fo (containerDetach s c) new c
              let s := arrangeWorkspace (arrangeWorkspace s old) new
              if (s.tree.con c).scratchpad then
                s.modGeo c fun g => { g with transform := outputGetBox s o }
              else s
        | none => s
    | _, _ => s
  else s

/-- Two containers exchange their places on the screen. -/
def swapPositions (s : State) (a b : ConId) : State :=
  let ga := s.geo a
  let gb := s.geo b
  let s := s.modGeo a fun g => { g with x := gb.x, y := gb.y }
  s.modGeo b fun g => { g with x := ga.x, y := ga.y }

/-- `workspace_swap_floating`; the containers must be on workspaces. -/
def workspaceSwapFloating (s : State) (a b : ConId) : State :=
  if a = b then s
  else
    match (s.tree.con a).workspace, (s.tree.con b).workspace with
    | some wa, some wb =>
        if wa = wb then swapPositions s a b
        else
          let s := containerDetach (containerDetach s a) b
          let s := (s.attachLast (.floating wb) a).attachLast (.floating wa) b
          let s := swapPositions s a b
          containerHandleFullscreenReparent fo (containerHandleFullscreenReparent fo s a) b
    | _, _ => s

/-! ## Pulling a column, switching -/

/-- The container of a column that has a fullscreen mode. -/
def columnFullscreen (s : State) (col : ConId) : Option ConId :=
  if s.full.mode col ≠ .none then some col
  else (s.tree.con col).children.find? fun d => decide (s.full.mode d ≠ .none)

/-- `workspace_pull_column` -/
def workspacePullColumn (s : State) (w : WsId) (col : ConId) (insertIdx : Int) : State :=
  let s :=
    match columnFullscreen s col with
    | some fs => containerSetFullscreen fo s fs .none
    | none => s
  let s :=
    match s.full.workspace w with
    | some fs => containerSetFullscreen fo s fs .none
    | none => s
  let oldWs := (s.tree.con col).workspace
  let s := workspaceInsertColumn fo (workspaceFitNewColumn s w col insertIdx) w col insertIdx
  let s := arrangeWorkspace s w
  match oldWs with
  | some o =>
      if o = w then s
      else
        let s := arrangeWorkspace s o
        if (s.tree.ws o).destroying then s else workspaceConsiderDestroy fo s o
  | none => s

/-- `workspace_switch` -/
def workspaceSwitch (s : State) (w : WsId) : State :=
  let next := (seatGetFocusInactive s s.currentSeat (.workspace w)).getD (.workspace w)
  arrangeWorkspace (fo.setFocus s s.currentSeat (some next)) w

end Swirl
