import Swirl.Commands.Move

set_option autoImplicit false

/-! # Focusing in a direction

The part of the `focus` command that takes a direction. A tiled container is left along the
containers above it: each is asked for a sibling in the direction, and what is found is entered at
the view that was focused last. Where there is no sibling, the search wraps, goes to another output,
or ends.
-/

namespace Swirl

/-- `enum focus_wrapping_mode` -/
inductive FocusWrapping where
  | no | yes | force | workspace
  deriving DecidableEq, Repr

/-- What the search depends on beside the state: `focus_wrapping`, and `output_get_in_direction`,
which asks the library for the adjacent output. -/
structure FocusSetup where
  wrapping : FocusWrapping
  outputGetInDirection : OutId → Direction → Option OutId

/-- `opposite_direction` -/
def Direction.opposite : Direction → Direction
  | .up => .down
  | .down => .up
  | .left => .right
  | .right => .left

variable (x : FocusSetup) (s : State) (k : SeatId) (dir : Direction)

/-! ## Another output -/

/-- `seat_get_focus_inactive_view`, as a node. -/
def focusInactiveViewNode (c : ConId) : Option Node :=
  (seatGetFocusInactiveView s k (.container c)).map .container

/-- The child of a workspace that is entered in a direction from another output. -/
def enteredChild (w : WsId) : Option ConId :=
  let layout := (s.wsGeo w).layout
  let tiling := (s.tree.ws w).tiling
  if tiling = [] then none
  else
    match dir with
    | .left =>
        if layout = .horiz ∨ layout = .tabbed then tiling.getLast?
        else seatGetFocusInactiveTiling s k w
    | .right =>
        if layout = .horiz ∨ layout = .tabbed then tiling.head?
        else seatGetFocusInactiveTiling s k w
    | .up =>
        if layout = .vert ∨ layout = .stacked then tiling.getLast?
        else seatGetFocusInactiveTiling s k w
    | .down =>
        if layout = .vert ∨ layout = .stacked then tiling.head?
        else seatGetFocusInactiveTiling s k w

/-- `get_node_in_output_direction` -/
def getNodeInOutputDirection (o : OutId) : Option Node :=
  match outputGetActiveWorkspace s o with
  | none => none
  | some w =>
      match s.full.workspace w with
      | some fs => seatGetFocusInactive s k (.container fs)
      | none =>
          match enteredChild s k dir w with
          | some c => focusInactiveViewNode s k c
          | none => seatGetFocusInactive s k (.workspace w)

/-- The output in a direction from the one a container is on. -/
def outputBeside (c : ConId) : Option OutId :=
  (((s.tree.con c).workspace.bind fun w => (s.tree.ws w).output).bind fun o =>
    x.outputGetInDirection o dir)

/-! ## Tiled containers -/

/-- The layouts whose children are left upwards and downwards. -/
def Layout.isColumn : Layout → Bool
  | .vert | .stacked | .tabbed => true
  | .none | .horiz => false

/-- The siblings of a container and the index beside it, if the direction is one to move in:
`can_move`, `siblings` and `desired`. -/
def desiredSibling (c : ConId) : Option (List ConId × Int) :=
  let layout := containerParentLayout s c
  let along : Bool :=
    match dir with
    | .left | .right => decide (layout = .horiz)
    | .up | .down => layout.isColumn
  if along then
    some (containerSiblings s.tree c, containerSiblingIndex s.tree c + dir.offset)
  else
    -- a column can be left in any direction
    match (s.tree.con c).parent, (s.tree.con c).workspace with
    | none, some w =>
        let idx := listFind (s.tree.ws w).tiling c
        if 0 ≤ idx then some ((s.tree.ws w).tiling, idx + dir.offset) else none
    | _, _ => none

/-- What one container of the chain brings: the search is done, or goes on with a container to wrap
to. -/
inductive DirectionStep where
  | done (node : Option Node)
  | next (wrapCandidate : Option ConId)

/-- The end of the list that is wrapped to. -/
def wrapEnd (siblings : List ConId) (desired : Int) : Option ConId :=
  if desired < 0 then siblings.getLast? else siblings.head?

/-- There is no sibling in the direction. -/
def pastSiblings (c : ConId) (siblings : List ConId) (desired : Int)
    (wrapCandidate : Option ConId) : DirectionStep :=
  if (containerParentLayout s c).isColumn then
    if x.wrapping ≠ .no ∧ 1 < siblings.length then
      .done ((wrapEnd siblings desired).bind (focusInactiveViewNode s k))
    else .done none
  else if x.wrapping ≠ .no ∧ wrapCandidate = none ∧ 1 < siblings.length then
    if x.wrapping = .force then
      .done ((wrapEnd siblings desired).bind (focusInactiveViewNode s k))
    else .next (wrapEnd siblings desired)
  else .next wrapCandidate

/-- The body of the loop of `node_get_in_direction_tiling`. -/
def directionStep (descend : Bool) (wrapCandidate : Option ConId) (c : ConId) : DirectionStep :=
  match s.full.mode c with
  | .workspace =>
      .done ((outputBeside x s dir c).bind fun o => getNodeInOutputDirection s k dir o)
  | .global => .done none
  | .none =>
      match desiredSibling s dir c with
      | none => .next wrapCandidate
      | some (siblings, desired) =>
          if desired < 0 ∨ siblings.length ≤ desired then
            pastSiblings x s k c siblings desired wrapCandidate
          else
            .done (siblings[desired.toNat]?.bind fun d =>
              if descend then focusInactiveViewNode s k d else some (.container d))

/-- The loop of `node_get_in_direction_tiling`, over a container and those above it. -/
def directionLoop (descend : Bool) : List ConId → Option ConId → DirectionStep
  | [], wrapCandidate => .next wrapCandidate
  | c :: cs, wrapCandidate =>
      match directionStep x s k dir descend wrapCandidate c with
      | .done node => .done node
      | .next wrapCandidate => directionLoop descend cs wrapCandidate

/-- `node_get_in_direction_tiling` -/
def nodeGetInDirectionTiling (c : ConId) (descend : Bool) : Option Node :=
  match directionLoop x s k dir descend (c :: s.tree.ancestors c) none with
  | .done node => node
  | .next wrapCandidate =>
      match outputBeside x s dir c, decide (x.wrapping = .workspace) with
      | some o, false => getNodeInOutputDirection s k dir o
      | _, _ => wrapCandidate.bind (focusInactiveViewNode s k)

/-! ## Floating containers -/

/-- How far the middle of a container is from that of another one, in a direction. -/
def directedDistance (c floater : ConId) : ℚ :=
  let g := s.geo floater
  let h := s.geo c
  match dir with
  | .left => -(g.x + g.width / 2 - (h.x + h.width / 2))
  | .right => g.x + g.width / 2 - (h.x + h.width / 2)
  | .up => -(g.y + g.height / 2 - (h.y + h.height / 2))
  | .down => g.y + g.height / 2 - (h.y + h.height / 2)

/-- The closest container in the direction, and the furthest against it. -/
structure FloatingSearch where
  closestDistance : ℚ
  closest : Option ConId
  furthestDistance : ℚ
  furthest : Option ConId

/-- The body of the loop of `node_get_in_direction_floating`. -/
def FloatingSearch.visit (c : ConId) (r : FloatingSearch) (floater : ConId) : FloatingSearch :=
  let distance := directedDistance s dir c floater
  if floater = c then r
  else if distance ≤ 0 then
    if distance < r.furthestDistance then
      { r with furthestDistance := distance, furthest := some floater }
    else r
  else if distance < r.closestDistance then
    { r with closestDistance := distance, closest := some floater }
  else r

/-- `node_get_in_direction_floating` -/
def nodeGetInDirectionFloating (c : ConId) : Option Node :=
  match (s.tree.con c).workspace with
  | none => none
  | some w =>
      let r := (s.tree.ws w).floating.foldl (FloatingSearch.visit s dir c) ⟨dblMax, none, 1, none⟩
      (if x.wrapping ≠ .no then r.closest.or r.furthest else r.closest).map .container

/-! ## The command -/

/-- The node `focus` goes to from a container. -/
def nodeInDirection (c : ConId) : Option Node :=
  if containerIsFloating s.tree c ∧ s.full.mode c = .none then
    nodeGetInDirectionFloating x s dir c
  else nodeGetInDirectionTiling x s k dir c true

variable (fo : FocusOps)

/-- What `cmd_focus` does with the node it found. -/
def focusFound (next : Option Node) : State :=
  match next with
  | none => s
  | some next =>
      let s := fo.setFocus s k (some next)
      match next with
      | .container c => containerRaiseFloating s c
      | _ => s

/-- `cmd_focus`, for `left`, `right`, `up` and `down`. The command runs for the current seat, and
for the node this seat has focused. -/
def cmdFocusDirection : State :=
  let k := s.currentSeat
  if s.tree.outputs = [] then s
  else
    match seatGetFocusInactive s k .root with
    | some (.container c) => focusFound s k fo (nodeInDirection x s k dir c)
    | some (.workspace w) =>
        match (s.tree.ws w).output.bind fun o => x.outputGetInDirection o dir with
        | some o => fo.setFocus s k (getNodeInOutputDirection s k dir o)
        | none => s
    | _ => s

end Swirl
