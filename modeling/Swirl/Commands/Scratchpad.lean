import Swirl.Commands.Move

set_option autoImplicit false

/-! # The scratchpad commands

`root_scratchpad_hide`, and the two commands of the scratchpad: `scratchpad show`, with and without
criteria, and `move scratchpad`.
-/

namespace Swirl

variable (fo : FocusOps)

/-- `root_scratchpad_hide` -/
def rootScratchpadHide (s : State) (c : ConId) : State :=
  match (s.tree.con c).workspace with
  | none => s
  | some w =>
      let restoreFocus : Bool :=
        match seatGetFocusInactive s s.currentSeat .root with
        | some focus => decide (focus = .container c) || nodeHasAncestor s focus (.container c)
        | none => true
      let s := disableFullscreen fo (setContainerTransform s w c) c
      let s := (s.tree.descendants c).foldl (disableFullscreen fo) s
      let s := arrangeWorkspace (containerDetach s c) w
      let s :=
        if restoreFocus then
          fo.setFocus s s.currentSeat (seatGetFocusInactive s s.currentSeat (.workspace w))
        else s
      s.modTree fun t => { t with scratchpad := listMoveToEnd t.scratchpad c }

/-- A command on a container in a floating split container is about the split container. -/
def floatingOperand (t : Tree) (c : ConId) : ConId :=
  if containerIsFloatingOrChild t c then containerToplevelAncestor t c else c

/-- The window `scratchpad_toggle_auto` shows when the focus is on none of the scratchpad: one on
the workspace, one below another container, the first one. -/
def nextScratchpad (s : State) (w : WsId) (focus : Option ConId) : Option ConId :=
  let here := (s.tree.ws w).floating.find? fun d =>
    (s.tree.con d).scratchpad && decide (focus ≠ some d)
  let elsewhere := s.tree.scratchpad.find? fun d => (s.tree.con d).parent.isSome
  (here.orElse fun _ => elsewhere).orElse fun _ => s.tree.scratchpad.head?

/-- `scratchpad_toggle_auto` -/
def scratchpadToggleAuto (s : State) : State :=
  match seatGetFocusedWorkspace s s.currentSeat with
  | none => s
  | some w =>
      let focus := (seatGetFocusedContainer s s.currentSeat).map (floatingOperand s.tree)
      match focus.filter fun c => (s.tree.con c).scratchpad with
      | some c => rootScratchpadHide fo s c
      | none =>
          match nextScratchpad s w focus with
          | some c => rootScratchpadShow fo s c
          | none => s

/-- `scratchpad_toggle_container` -/
def scratchpadToggleContainer (s : State) (c : ConId) : State :=
  if (s.tree.con c).scratchpad then
    if (s.tree.con c).workspace.isSome ∧
        seatGetFocusedWorkspace s s.currentSeat = (s.tree.con c).workspace then
      rootScratchpadHide fo s c
    else rootScratchpadShow fo s c
  else s

/-- `cmd_scratchpad`; with criteria it gets a container. -/
def cmdScratchpadShow (s : State) (criteria : Option ConId) : State :=
  if s.tree.outputs = [] ∨ s.tree.scratchpad = [] then s
  else
    match criteria with
    | some c => scratchpadToggleContainer fo s (floatingOperand s.tree c)
    | none => scratchpadToggleAuto fo s

end Swirl
