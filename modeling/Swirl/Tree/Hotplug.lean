import Swirl.Tree.WorkspaceNames

set_option autoImplicit false

/-! # Outputs come and go

`output_enable` and `output_disable`, which take the workspaces of an output to the others and
bring them back, and `workspace_move_to_output`.
-/

namespace Swirl

namespace SwayRoot

variable (s : SwayRoot)

/-- `output_get_active_workspace`; `child` is the first node of the focus stack on the output. -/
def outputGetActiveWorkspace (o : OutId) (child : Option WsId) : Option WsId :=
  (child.filter fun w => decide (w ∈ s.workspaces o)).or (s.workspaces o).head?

/-! ## Disabling -/

/-- `evacuate_sticky` -/
def evacuateSticky (oldWs newWs : WsId) : SwayRoot :=
  (s.modWs newWs fun k => { k with floating := k.floating ++ (s.ws oldWs).floating }).modWs oldWs
    fun k => { k with floating := [] }

/-- What the seats make of a workspace that is evacuated: the workspace they have first on the new
output, whether they keep that one, and what they do when a workspace is destroyed. -/
structure Evacuation where
  child : Option WsId
  seen : Bool
  calls : List FocusCall

/-- A workspace that is evacuated is added to its new output. -/
def evacuateTo (w : WsId) (newOutput : OutId) (newOutputWs : Option WsId) (e : Evacuation) :
    SwayRoot :=
  let s := ((s.workspaceOutputAddPriority w newOutput).outputAddWorkspace newOutput
    w).outputSortWorkspaces newOutput
  match newOutputWs with
  | some a => s.workspaceConsiderDestroy a e.seen e.calls
  | none => s

/-- The output a workspace is evacuated to, once it is detached. -/
def evacuationOutput (w : WsId) (fallbackOutput : Option OutId) : OutId :=
  (s.workspaceOutputGetHighestAvailable w).getD (fallbackOutput.getD s.fallbackOutput)

/-- The body of the loop of `output_evacuate`. -/
def evacuateWorkspace (w : WsId) (fallbackOutput : Option OutId) (e : Evacuation) : SwayRoot :=
  let s := s.workspaceDetach w
  let newOutput := s.evacuationOutput w fallbackOutput
  let newOutputWs := s.outputGetActiveWorkspace newOutput e.child
  if s.workspaceIsEmpty w then
    let s :=
      match newOutputWs with
      | some a => if 0 < s.workspaceNumStickyContainers w then s.evacuateSticky w a else s
      | none => s
    if s.workspaceNumStickyContainers w = 0 then s.workspaceBeginDestroy w e.calls
    else s.evacuateTo w newOutput newOutputWs e
  else s.evacuateTo w newOutput newOutputWs e

/-- The loop of `output_evacuate`; every round takes a workspace from the output. -/
def evacuateLoop (o : OutId) (fallbackOutput : Option OutId) (e : WsId → Evacuation) :
    Nat → SwayRoot → SwayRoot
  | 0, s => s
  | n + 1, s =>
      match s.workspaces o with
      | [] => s
      | w :: _ => evacuateLoop o fallbackOutput e n (s.evacuateWorkspace w fallbackOutput (e w))

/-- `output_evacuate` -/
def outputEvacuate (o : OutId) (e : WsId → Evacuation) : SwayRoot :=
  evacuateLoop o s.outputs.head? e (s.workspaces o).length s

/-- `output_disable` -/
def outputDisable (o : OutId) (e : WsId → Evacuation) : SwayRoot :=
  { s with outputs := s.outputs.erase o }.outputEvacuate o e

/-! ## Enabling -/

/-- A workspace that ranks an output first goes to it. -/
def restoreWorkspace (o : OutId) (s : SwayRoot) (w : WsId) : SwayRoot :=
  if s.workspaceOutputGetHighestAvailable w = some o then
    (s.workspaceDetach w).outputAddWorkspace o w
  else s

/-- An output that has lost all workspaces gets one. -/
def refillOutput (o : OutId) : SwayRoot :=
  if s.workspaces o = [] then
    match s.workspaceNextName (s.label o).name with
    | some next => s.workspaceCreate (some o) next
    | none => s
  else s

/-- The loop of `restore_workspaces` over the other outputs. -/
def restoreFrom (o : OutId) (s : SwayRoot) (other : OutId) : SwayRoot :=
  if other = o then s
  else ((s.workspaces other).foldl (restoreWorkspace o) s).refillOutput other

/-- A saved workspace goes to the output. -/
def restoreSaved (o : OutId) (s : SwayRoot) (w : WsId) : SwayRoot :=
  (s.workspaceDetach w).outputAddWorkspace o w

/-- `restore_workspaces` -/
def restoreWorkspaces (o : OutId) : SwayRoot :=
  let s := s.outputs.foldl (restoreFrom o) s
  ((s.workspaces s.fallbackOutput).foldl (restoreSaved o) s).outputSortWorkspaces o

/-- `output_enable`; seats without a focus may focus a workspace that is made for the output. -/
def outputEnable (o : OutId) (calls : List FocusCall) : SwayRoot :=
  ({ s with outputs := listAdd s.outputs o }.restoreWorkspaces o |>.refillOutput o).focusCalls calls

/-! ## Moving -/

/-- `workspace_move_to_output` -/
def workspaceMoveToOutput (w : WsId) (o : OutId) (child : Option WsId) (seen : Bool)
    (calls : List FocusCall) : SwayRoot :=
  match (s.ws w).output with
  | some oldOutput =>
      if oldOutput = o then s
      else
        let s := s.workspaceDetach w
        match s.outputGetActiveWorkspace o child with
        | some newOutputOldWs =>
            ((((s.outputAddWorkspace o w).refillOutput oldOutput).workspaceConsiderDestroy
              newOutputOldWs seen calls).outputSortWorkspaces o).workspaceOutputRaisePriority w
              oldOutput o
        | none => s
  | none => s

end SwayRoot

end Swirl
