import Swirl.Tree.Container

set_option autoImplicit false

/-! # Setting the focus

`seat_set_focus`, `seat_set_focus_raw` and what hangs on them: a change of focus moves sticky
containers to the new workspace and destroys the workspace it leaves empty, and a node that is
destroyed makes every seat look for a new focus. The functions call each other; each takes the
focus functions it may call as `fo`, and `focusOps n` lets such calls nest `n` deep.
-/

namespace Swirl

variable (fo : FocusOps)

/-! ## A node is destroyed -/

/-- `seat_node_destroy` -/
def seatNodeDestroy (s : State) (k : SeatId) (node : Node) : State :=
  s.modSeat k fun e => { e with focusStack := e.focusStack.erase node }

/-- `handle_seat_node_destroy`, for a workspace. -/
def handleSeatWorkspaceDestroy (s : State) (k : SeatId) (w : WsId) : State :=
  let s := seatNodeDestroy s k (.workspace w)
  if (s.seat k).workspace = some w then
    let node := seatGetFocusInactive s k .root
    let s := fo.setFocusRaw s k none
    match node with
    | some node => fo.setFocusRaw s k (some node)
    | none => s.modSeat k fun e => { e with workspace := none }
  else s

/-- The first place to look for a new focus: a view below the nearest parent that has one, or the
workspace. -/
def nextFocusFrom (s : State) (k : SeatId) : List Node → Option Node
  | [] => none
  | p :: ps =>
      match seatGetFocusInactiveView s k p, p with
      | some c, _ => some (.container c)
      | none, .workspace w => some (.workspace w)
      | none, _ => nextFocusFrom s k ps

/-- The last place to look for a new focus. -/
def lastKnownFocus (s : State) (k : SeatId) : Option Node :=
  (seatGetLastKnownWorkspace s k).map fun w =>
    match seatGetFocusInactiveView s k (.workspace w) with
    | some c => .container c
    | none => .workspace w

/-- The new focus is set as the inactive one, below the focus the seat has. -/
def setFocusInactive (s : State) (k : SeatId) (next : Node) : State :=
  let focus := seatGetFocusInactive s k .root
  let s := seatSetRawFocus s k next
  match focus with
  | none => s
  | some focus =>
      let s :=
        match focus with
        | .container c =>
            match (s.tree.con c).workspace with
            | some w => seatSetRawFocus s k (.workspace w)
            | none => s
        | _ => s
      seatSetRawFocus s k focus

/-- The new focus takes over from a container that is destroyed. -/
def takeFocus (s : State) (k : SeatId) (c : ConId) (next : Node) : State :=
  let s := if (s.tree.con c).scratchpad then fo.setFocus s k none else s
  if seatGetFocus s k = some next then s else fo.setFocusRaw s k (some next)

/-- Whether a node is a workspace that no output shows. -/
def isHiddenWorkspace (s : State) : Node → Bool
  | .workspace w => !workspaceIsVisible s w
  | _ => false

/-- Whether a seat loses its focus when a node goes. -/
def needsNewFocus (s : State) (k : SeatId) (node : Node) : Bool :=
  match seatGetFocus s k with
  | some focus => decide (focus = node) || nodeHasAncestor s focus node
  | none => false

/-- A seat looks for a new focus, after a container below these parents is gone. -/
def findNewFocus (s : State) (k : SeatId) (c : ConId) (parents : List Node) (needsNew : Bool) :
    State :=
  match (nextFocusFrom s k parents).orElse fun _ => lastKnownFocus s k with
  | none => s
  | some next =>
      if isHiddenWorkspace s next then s
      else if needsNew then takeFocus fo s k c next
      else setFocusInactive s k next

/-- `handle_seat_node_destroy`, for a container. -/
def handleSeatContainerDestroy (s : State) (k : SeatId) (c : ConId) : State :=
  let node := Node.container c
  let parents := nodeAncestors s.tree node
  let needsNew := needsNewFocus s k node
  let s := seatNodeDestroy s k node
  if parents = [] ∧ needsNew = false then s else findNewFocus fo s k c parents needsNew

/-- `handle_seat_node_destroy`; a seat that has no entry for the node does not listen. -/
def handleSeatNodeDestroy (node : Node) (s : State) (k : SeatId) : State :=
  if node ∈ (s.seat k).focusStack then
    match node with
    | .workspace w => handleSeatWorkspaceDestroy fo s k w
    | .container c => handleSeatContainerDestroy fo s k c
    | _ => s
  else s

/-- The destroy signal of a node. -/
def emitNodeDestroy (s : State) (node : Node) : State :=
  s.seats.foldl (handleSeatNodeDestroy fo node) s

/-! ## A workspace is destroyed -/

/-- `workspace_detach` -/
def workspaceDetach (s : State) (w : WsId) : State :=
  s.modTree fun t =>
    match (t.ws w).output with
    | some o => (t.modWorkspaces o fun l => l.erase w).modWs w fun k => { k with output := none }
    | none => t

/-- `workspace_begin_destroy` -/
def workspaceBeginDestroy (s : State) (w : WsId) : State :=
  (workspaceDetach (emitNodeDestroy fo s (.workspace w)) w).modTree fun t =>
    t.modWs w fun k => { k with destroying := true }

/-- What keeps `workspace_consider_destroy` from destroying a workspace: content, being the active
one of its output, being where a seat would focus. -/
def workspaceKept (s : State) (w : WsId) : Bool :=
  !(s.tree.ws w).tiling.isEmpty || !(s.tree.ws w).floating.isEmpty ||
  !(s.pool.pool w).isEmpty ||
  (match (s.tree.ws w).output with
   | some o => decide (outputGetActiveWorkspace s o = some w)
   | none => false) ||
  s.seats.any fun k => decide (seatGetFocusInactive s k .root = some (.workspace w))

/-- `workspace_consider_destroy` -/
def workspaceConsiderDestroy (s : State) (w : WsId) : State :=
  if workspaceKept s w then s else workspaceBeginDestroy fo s w

/-- `workspace_consider_destroy` of a workspace that may be missing. -/
def considerDestroy (s : State) (w : Option WsId) : State :=
  match w with
  | some w => workspaceConsiderDestroy fo s w
  | none => s

/-! ## The focus -/

/-- The loop of `seat_set_workspace_focus` over the floating containers of the last workspace. -/
def moveSticky (last new : WsId) : Nat → Nat → State → State
  | 0, _, s => s
  | n + 1, i, s =>
      match (s.tree.ws last).floating[i]? with
      | none => s
      | some c =>
          if containerIsSticky s.tree c then
            moveSticky last new n i (workspaceAddFloating fo (containerDetach s c) new c)
          else moveSticky last new n (i + 1) s

/-- The node that is focused for a node: for a container without a view, the last focused view
below it. -/
def focusTarget (s : State) (k : SeatId) (node : Node) : Option Node :=
  match node with
  | .container c =>
      if (s.tree.con c).view.isSome then some node
      else (seatGetFocusInactiveView s k node).map .container
  | _ => some node

/-- Whether a fullscreen container keeps a node from being focused. -/
def focusDenied (s : State) (node : Node) : Bool :=
  match node with
  | .container c => (containerObstructingFullscreenContainer s c).isSome
  | _ => s.full.global.isSome && (nodeWorkspace s node).isSome

/-- The container parents go on the focus stack, then the workspace, then the container. -/
def pushFocus (s : State) (k : SeatId) (node : Node) : State :=
  let w := nodeWorkspace s node
  let s :=
    match node with
    | .container c => (s.tree.ancestors c).foldl (fun s p => seatSetRawFocus s k (.container p)) s
    | _ => s
  let s :=
    match w with
    | some w => seatSetRawFocus s k (.workspace w)
    | none => s
  match node with
  | .container _ => seatSetRawFocus s k node
  | _ => s

/-- The workspace a focus leaves: sticky containers follow the focus, and the workspace goes when
it is empty. -/
def leaveWorkspace (s : State) (last new : Option WsId) : State :=
  let s :=
    match last, new with
    | some l, some n =>
        if l ≠ n then moveSticky fo l n (s.tree.ws l).floating.length 0 s else s
    | _, _ => s
  considerDestroy fo s last

/-- The end of `seat_set_workspace_focus`: gaps and the focused column. -/
def settleFocus (s : State) (last new : Option WsId) : State :=
  let s :=
    match new with
    | some n => if s.config.smartGaps ≠ .off then arrangeWorkspace s n else s
    | none => s
  let s :=
    match last with
    | some l => if last ≠ new then s.modWsGeo l fun g => { g with focusedColumnIdx := -1 } else s
    | none => s
  match new with
  | some n => workspaceUpdateFocusedColumnIdx s n
  | none => s

/-- What each part of the settling keeps, the whole of it keeps. -/
theorem settleFocus_keeps {R : State → State → Prop} (hrefl : ∀ t, R t t)
    (htrans : ∀ {t u v}, R t u → R u v → R t v)
    (harrange : ∀ t n, R t (arrangeWorkspace t n))
    (hunfocus : ∀ t l, R t (t.modWsGeo l fun g => { g with focusedColumnIdx := -1 }))
    (hindex : ∀ t n, R t (workspaceUpdateFocusedColumnIdx t n))
    (s : State) (last new : Option WsId) : R s (settleFocus s last new) := by
  have harranged : ∀ n, R s (if s.config.smartGaps ≠ .off then arrangeWorkspace s n else s) := by
    intro n
    split
    · exact harrange s n
    · exact hrefl s
  have hunfocused : ∀ t l, R t (if last ≠ new then
      t.modWsGeo l fun g => { g with focusedColumnIdx := -1 } else t) := by
    intro t l
    split
    · exact hunfocus t l
    · exact hrefl t
  unfold settleFocus
  cases new with
  | none =>
      cases last with
      | none => exact hrefl s
      | some l => exact hunfocused s l
  | some n =>
      cases last with
      | none => exact htrans (harranged n) (hindex _ n)
      | some l => exact htrans (harranged n) (htrans (hunfocused _ l) (hindex _ n))

/-- `seat_set_workspace_focus`, once it is known that the focus changes. -/
def changeFocus (s : State) (k : SeatId) (node : Node) : State :=
  let new := nodeWorkspace s node
  let last := (new.bind fun w => (s.tree.ws w).output).bind (outputGetActiveWorkspace s)
  let s := pushFocus s k node
  let s := s.modSeat k fun e => { e with workspace := new }
  let s := leaveWorkspace fo s last new
  let s := s.modSeat k fun e => { e with hasFocus := true }
  settleFocus s last new

/-- `seat_set_workspace_focus` -/
def seatSetWorkspaceFocus (s : State) (k : SeatId) (node : Option Node) : State :=
  match node with
  | none => s.modSeat k fun e => { e with hasFocus := false }
  | some node =>
      match focusTarget s k node with
      | none => s
      | some node =>
          if seatGetFocus s k = some node ∨ focusDenied s node then s else changeFocus fo s k node

/-- `seat_set_focus_layer`, for a layer. -/
def focusLayer (s : State) (k : SeatId) (layer : Layer) : State :=
  if s.sessionLock then s
  else
    let s := if layer.exclusive then s.modSeat k fun e => { e with hasExclusiveLayer := true } else s
    if (s.seat k).focusedLayer = some layer then s
    else s.modSeat k fun e => { e with hasFocus := false, focusedLayer := some layer }

/-- `seat_set_focus_layer`, for `NULL`: the seat focuses again what it focused before. -/
def unfocusLayer (s : State) (k : SeatId) : State :=
  if (s.seat k).focusedLayer.isSome then
    let s := s.modSeat k fun e => { e with focusedLayer := none }
    match seatGetFocusInactive s k .root with
    | some previous => fo.setFocus (fo.setFocus s k none) k (some previous)
    | none => s
  else s

/-- The common part of `seat_set_focus` and `seat_set_focus_raw`: a layer with keyboard
exclusivity gets the focus back. -/
def setFocusUnderLayer (s : State) (k : SeatId) (node : Option Node) : State :=
  if (s.seat k).hasExclusiveLayer then
    let layer := (s.seat k).focusedLayer
    let s := seatSetWorkspaceFocus fo (unfocusLayer fo s k) k node
    match layer with
    | some layer => focusLayer s k layer
    | none => unfocusLayer fo s k
  else seatSetWorkspaceFocus fo (unfocusLayer fo s k) k node

/-- `seat_set_focus` -/
def seatSetFocus (s : State) (k : SeatId) (node : Option Node) : State :=
  setFocusUnderLayer fo s k node

/-- `seat_set_focus_raw` -/
def seatSetFocusRaw (s : State) (k : SeatId) (node : Option Node) : State :=
  let s := setFocusUnderLayer fo s k node
  match node with
  | some (.container c) =>
      match (s.tree.con c).workspace with
      | some w => workspaceUpdateFocusedColumnIdx s w
      | none => s
  | _ => s

/-- The focus functions, with calls that nest at most so deep. -/
def focusOps : Nat → FocusOps
  | 0 => { setFocus := fun s _ _ => s, setFocusRaw := fun s _ _ => s }
  | n + 1 => { setFocus := seatSetFocus (focusOps n), setFocusRaw := seatSetFocusRaw (focusOps n) }

/-- `input_manager_set_focus` -/
def inputManagerSetFocus (s : State) (node : Node) : State :=
  s.seats.foldl (fun s k => fo.setFocus s k (some node)) s

end Swirl
