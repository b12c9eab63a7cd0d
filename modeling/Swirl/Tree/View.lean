import Swirl.Tree.Minimize

set_option autoImplicit false

/-! # Windows open and close

`view_map` and `view_unmap`. The workspace a window opens on is the one `select_workspace` found,
by the rules of the configuration or by the focus; commands that `for_window` rules run are
operations of their own.
-/

namespace Swirl

variable (fo : FocusOps)

/-- A window that opens: the client's view, the workspace that was selected for it, and what the
client and the rules ask for. -/
structure MapRequest where
  view : View
  workspace : WsId
  wantsFloating : Bool
  fullscreen : Bool
  decoration : Bool
  noFocus : Bool
  takesInput : Bool

/-- `view_update_csd_from_client`, for a client that decorates itself. -/
def viewUpdateCsdFromClient (s : State) (c : ConId) : State :=
  let s :=
    if (s.deco c).border ≠ .csd then
      let floating := containerIsFloating s.tree c
      s.modDeco c fun d =>
        { d with savedBorder := d.border, border := if floating then .csd else d.border }
    else s
  s.modTree fun t => t.modCon c fun k =>
    { k with view := k.view.map fun v => { v with usingCsd := true } }

/-- The container of a window gets its place. -/
def placeView (s : State) (c w : Nat) (wantsFloating : Bool) : State :=
  let k := s.config
  if (s.wsGeo w).defaultFloat ∨ wantsFloating then
    let s := s.modTree fun t => t.modCon c fun l => { l with workspace := some w }
    let s := s.modDeco c fun d =>
      { d with border := k.floatingBorder, borderThickness := k.floatingBorderThickness }
    containerSetFloating fo s c true
  else
    let s := s.modDeco c fun d =>
      { d with border := k.border, borderThickness := k.borderThickness }
    workspaceAddTiling fo s w c

/-- `popup_during_fullscreen leave_fullscreen` -/
def leaveForPopup (s : State) (c : ConId) : State :=
  match (s.tree.con c).workspace.bind s.full.workspace with
  | some fs =>
      if s.config.popupDuringFullscreen = .leave ∧ (s.tree.con fs).view.isSome ∧
          s.isTransientFor c fs then
        containerSetFullscreen fo s fs .none
      else s
  | none => s

/-- The parent of a container is arranged, or its workspace. -/
def arrangeAround (s : State) (c : ConId) : State :=
  match (s.tree.con c).parent, (s.tree.con c).workspace with
  | some p, _ => arrangeContainer s p
  | none, some w => arrangeWorkspace s w
  | none, none => s

/-- A window that opens fullscreen. -/
def openFullscreen (s : State) (c : ConId) : State :=
  let s := containerSetFullscreen fo s c .workspace
  match (s.tree.con c).workspace with
  | some w => arrangeWorkspace s w
  | none => s

/-- `should_focus` -/
def shouldFocus (s : State) (c : ConId) (noFocus : Bool) : Bool :=
  if s.full.mode c = .global then true
  else
    match (s.tree.con c).workspace with
    | none => false
    | some w =>
        if s.full.global.isSome ∨ (s.full.workspace w).isSome then false
        else if seatGetFocusedWorkspace s s.currentSeat ≠ some w then false
        else
          ((s.tree.con c).parent.isNone && (seatGetFocusedContainer s s.currentSeat).isNone &&
            decide ((s.tree.ws w).tiling.length + (s.tree.ws w).floating.length = 1)) ||
          !noFocus

/-- `view_map`; the name of the new container is `s.tree.nextCon`. -/
def viewMap (s : State) (r : MapRequest) : State :=
  let c := s.tree.nextCon
  let s := placeView fo (containerCreate s (some r.view)) c r.workspace r.wantsFloating
  let s := if r.decoration then viewUpdateCsdFromClient s c else s
  let s := leaveForPopup fo s c
  let s := if r.fullscreen then openFullscreen fo s c else arrangeAround s c
  if shouldFocus s c r.noFocus ∧ r.takesInput then inputManagerSetFocus fo s (.container c) else s

/-- The sibling of a window that gets the focus: the one above, else the one below. -/
def siblingFocus (s : State) (p c : ConId) : Option ConId :=
  let children := (s.tree.con p).children
  let idx := listFind children c
  if 0 < idx then children[(idx - 1).toNat]? else children[(idx + 1).toNat]?

/-- The last focused view of the first column that has one. -/
def columnFocus (s : State) (cols : List ConId) : Option ConId :=
  cols.findSome? fun col => seatGetFocusInactiveView s s.currentSeat (.container col)

/-- The focus `view_unmap` computes before the window is gone: a sibling, a view of a column to
the right, a view of a column to the left. -/
def nextFocus (s : State) (c : ConId) : Option ConId :=
  match (s.tree.con c).parent with
  | none => none
  | some p =>
      if (s.tree.con p).view.isSome then none
      else
        let sibling := if 1 < (s.tree.con p).children.length then siblingFocus s p c else none
        match sibling, (s.tree.con c).workspace with
        | some d, _ => some d
        | none, none => none
        | none, some w =>
            let cols := (s.tree.ws w).tiling
            let idx := listFind cols p
            match columnFocus s (cols.drop (idx + 1).toNat) with
            | some d => some d
            | none => columnFocus s (cols.take idx.toNat).reverse

/-- A column goes with its last window; its neighbours grow, and may get the focus. -/
def closeColumn (s : State) (w : Option WsId) (p : ConId) (next : Option ConId) :
    State × Option ConId :=
  let (s, idx) := columnRemove fo s p true
  match w with
  | none => (s, next)
  | some w =>
      match (if 0 ≤ idx then (s.tree.ws w).tiling[idx.toNat]? else none) with
      | none => (s, next)
      | some col =>
          match seatGetFocusInactiveView s s.currentSeat (.container col) with
          | some d => (s, if (s.tree.con d).destroying then next else some d)
          | none => (s, next)

/-- What closing a window leaves behind is cleaned up. -/
def cleanUp (s : State) (w : Option WsId) (p : Option ConId) (lone : Bool) (next : Option ConId) :
    State × Option ConId :=
  match p with
  | some p => if lone then closeColumn fo s w p next else (containerReapEmpty fo s p, next)
  | none => (considerDestroy fo s w, next)

/-- The end of `view_unmap`: the whole layout or the workspace is arranged. -/
def arrangeAfterClose (s : State) (w : Option WsId) : State :=
  if s.full.global.isSome then arrangeRoot s
  else
    match w with
    | some w => if (s.tree.ws w).destroying then s else arrangeWorkspace s w
    | none => s

/-- Whether a window is the last one of its column. -/
def aloneInColumn (s : State) (c : ConId) : Bool :=
  match (s.tree.con c).parent with
  | some p => (s.tree.con p).view.isNone && decide ((s.tree.con p).children.length = 1)
  | none => false

/-- `view_unmap`, on the container of the view. -/
def viewUnmap (s : State) (c : ConId) : State :=
  let parent := (s.tree.con c).parent
  let w := (s.tree.con c).workspace
  let next := nextFocus s c
  let lone := aloneInColumn s c
  let (s, next) := cleanUp fo (containerBeginDestroy fo s c) w parent lone next
  let s :=
    match next with
    | some d =>
        if (s.tree.con d).destroying then s
        else fo.setFocusRaw s s.currentSeat (some (.container d))
    | none => s
  arrangeAfterClose s w

end Swirl
