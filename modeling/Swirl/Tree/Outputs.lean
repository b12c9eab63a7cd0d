import Swirl.Common.List
import Swirl.Common.Stringop
import Swirl.Tree.Types
import Mathlib.Data.List.Sort

set_option autoImplicit false

/-! # Outputs, workspaces and their names

The outputs with their lists of workspaces, from `output.c` and `workspace.c`: how an output and a
workspace are found by name, the priority list that ties a workspace to outputs, and how a
workspace leaves a list, enters one and ends. A `SwayRoot` holds what these functions read. The windows
of a workspace are the containers in its three lists.

What the seats do on the way is not part of a `SwayRoot`: a change of focus can do to the workspaces
what `FocusCall` lists, and each function takes the calls it leads to as an argument.
-/

namespace Swirl

abbrev CtxId := Nat

/-- What an output is known by: `wlr_output->name` and `output_get_identifier`. -/
structure OutputLabel where
  name : String
  identifier : String
  deriving DecidableEq, Repr

/-- `struct sway_workspace`, as far as outputs and names go. -/
structure SwayWorkspace where
  name : String
  output : Option OutId
  priority : List String
  tiling : List ConId
  floating : List ConId
  minimized : List ConId
  deriving DecidableEq, Repr

/-- `struct workspace_config` -/
structure WorkspaceConfig where
  workspace : String
  outputs : List String
  deriving DecidableEq, Repr

/-- A binding with a `workspace` command: its order, and the target after variables and quotes. -/
structure NameBinding where
  order : Int
  target : String
  deriving DecidableEq, Repr

/-- The settings that decide on names and outputs. -/
structure NameConfig where
  workspaceConfigs : List WorkspaceConfig
  keysymBindings : List NameBinding
  keycodeBindings : List NameBinding
  autoBackAndForth : Bool

/-- What a launcher context follows: a workspace, then its output, then nothing. -/
inductive CtxNode where
  | workspace (w : WsId)
  | output (o : OutId)
  | root
  deriving DecidableEq, Repr

/-- `struct launcher_ctx` -/
structure LauncherCtx where
  node : CtxNode
  fallbackName : String
  deriving DecidableEq, Repr

/-- The outputs and workspaces. `outputs` are the enabled ones; `focus` and `prevWorkspaceName` are
the focused workspace and the name the current seat remembers. -/
structure SwayRoot where
  outputs : List OutId
  fallbackOutput : OutId
  label : OutId → OutputLabel
  workspaces : OutId → List WsId
  ws : WsId → SwayWorkspace
  nextWs : WsId
  isSticky : ConId → Bool
  focus : Option WsId
  prevWorkspaceName : Option String
  fullscreenGlobal : Bool
  contexts : CtxId → Option LauncherCtx
  config : NameConfig

namespace SwayRoot

variable (s : SwayRoot)

def modWs (w : WsId) (f : SwayWorkspace → SwayWorkspace) : SwayRoot :=
  { s with ws := Function.update s.ws w (f (s.ws w)) }

def modWorkspaces (o : OutId) (f : List WsId → List WsId) : SwayRoot :=
  { s with workspaces := Function.update s.workspaces o (f (s.workspaces o)) }

/-! ## Outputs -/

/-- `output_match_name_or_id` -/
def outputMatchNameOrId (o : OutId) (nameOrId : String) : Bool :=
  decide (nameOrId = "*") || sameIgnoringCase (s.label o).identifier nameOrId ||
    sameIgnoringCase (s.label o).name nameOrId

/-- `output_by_name_or_id` -/
def outputByNameOrId (nameOrId : String) : Option OutId :=
  s.outputs.find? fun o => s.outputMatchNameOrId o nameOrId

/-- `workspace_output_get_priority` -/
def workspaceOutputGetPriority (w : WsId) (o : OutId) : Int :=
  let indexId := listFind (s.ws w).priority (s.label o).identifier
  let indexName := listFind (s.ws w).priority (s.label o).name
  if indexName < 0 ∨ indexId < indexName then indexId else indexName

/-- `workspace_output_raise_priority` -/
def workspaceOutputRaisePriority (w : WsId) (oldOutput output : OutId) : SwayRoot :=
  let oldIndex := s.workspaceOutputGetPriority w oldOutput
  let newIndex := s.workspaceOutputGetPriority w output
  if oldIndex < 0 then s
  else if newIndex < 0 then
    s.modWs w fun k =>
      { k with priority := listInsert k.priority oldIndex (s.label output).identifier }
  else if oldIndex < newIndex then
    s.modWs w fun k =>
      match k.priority[newIndex.toNat]? with
      | some name => { k with priority := listInsert (listDel k.priority newIndex) oldIndex name }
      | none => k
  else s

/-- `workspace_output_add_priority` -/
def workspaceOutputAddPriority (w : WsId) (o : OutId) : SwayRoot :=
  if s.workspaceOutputGetPriority w o < 0 then
    s.modWs w fun k => { k with priority := listAdd k.priority (s.label o).identifier }
  else s

/-- `workspace_output_get_highest_available` -/
def workspaceOutputGetHighestAvailable (w : WsId) : Option OutId :=
  (s.ws w).priority.findSome? s.outputByNameOrId

/-! ## The workspaces of an output -/

/-- `sort_workspace_cmp_qsort` puts the first no later than the second. -/
def sortWorkspaceLe (a b : WsId) : Bool :=
  let digit (w : WsId) : Bool := (s.ws w).name.toList.head?.any Char.isDigit
  let num (w : WsId) : Int := toInt (strtol (s.ws w).name.toList).value
  if digit a && digit b then decide (num a ≤ num b)
  else digit a || !digit b

/-- `output_sort_workspaces`; the sort is stable. -/
def outputSortWorkspaces (o : OutId) : SwayRoot :=
  s.modWorkspaces o fun l => l.insertionSort fun a b => s.sortWorkspaceLe a b = true

/-- `workspace_detach` -/
def workspaceDetach (w : WsId) : SwayRoot :=
  match (s.ws w).output with
  | some o => (s.modWorkspaces o fun l => l.erase w).modWs w fun k => { k with output := none }
  | none => s

/-- `output_add_workspace` -/
def outputAddWorkspace (o : OutId) (w : WsId) : SwayRoot :=
  ((s.workspaceDetach w).modWorkspaces o fun l => listAdd l w).modWs w fun k =>
    { k with output := some o }

/-- `workspace_is_empty` -/
def workspaceIsEmpty (w : WsId) : Bool :=
  (s.ws w).tiling.isEmpty && (s.ws w).floating.all s.isSticky && (s.ws w).minimized.isEmpty

/-- `workspace_num_sticky_containers`; only floating containers are sticky. -/
def workspaceNumStickyContainers (w : WsId) : Nat := ((s.ws w).floating.filter s.isSticky).length

/-! ## A workspace ends -/

/-- `ctx_handle_node_destroy`, for a workspace: the context remembers the name and follows the
output, if there is one. -/
def ctxHandleWorkspaceDestroy (w : WsId) (c : LauncherCtx) : LauncherCtx :=
  if c.node = .workspace w then
    { node := match (s.ws w).output with
        | some o => .output o
        | none => .root
      fallbackName := (s.ws w).name }
  else c

/-- What a change of focus does to the workspaces: the focused workspace and the remembered name
change, sticky containers follow the focus from one workspace to another, and a workspace that is
empty and not visible is destroyed. -/
inductive FocusCall where
  | focus (w : Option WsId) (prevWorkspaceName : Option String)
  | follow (last new : WsId)
  | vanish (w : WsId)

/-- A workspace is destroyed: the contexts hear of it, and it leaves its output. -/
def endWorkspace (w : WsId) : SwayRoot :=
  { s with contexts := fun k => (s.contexts k).map (s.ctxHandleWorkspaceDestroy w) }.workspaceDetach w

/-- No window is left in a workspace. -/
def workspaceBare (w : WsId) : Bool :=
  (s.ws w).tiling.isEmpty && (s.ws w).floating.isEmpty && (s.ws w).minimized.isEmpty

/-- A workspace that is alone on its output is the one the output shows. -/
def workspaceAlone (w : WsId) : Bool :=
  match (s.ws w).output with
  | some o => decide (s.workspaces o = [w])
  | none => false

/-- One such call. -/
def focusCall (s : SwayRoot) : FocusCall → SwayRoot
  | .focus w prevWorkspaceName => { s with focus := w, prevWorkspaceName }
  | .follow last new =>
      if last = new ∨ (s.ws new).output = none then s
      else
        (s.modWs last fun k =>
          { k with floating := k.floating.filter fun c => !s.isSticky c }).modWs new fun k =>
          { k with floating := k.floating ++ (s.ws last).floating.filter s.isSticky }
  | .vanish w => if s.workspaceBare w && !s.workspaceAlone w then s.endWorkspace w else s

def focusCalls (calls : List FocusCall) : SwayRoot := calls.foldl focusCall s

/-- `workspace_begin_destroy`; the seats look for a new focus when they hear of it. -/
def workspaceBeginDestroy (w : WsId) (calls : List FocusCall) : SwayRoot :=
  (s.endWorkspace w).focusCalls calls

/-- `workspace_consider_destroy`; `seen` tells whether a seat would focus the workspace, or the
output shows it among others. -/
def workspaceConsiderDestroy (w : WsId) (seen : Bool) (calls : List FocusCall) : SwayRoot :=
  if !s.workspaceBare w || s.workspaceAlone w || seen then s else s.workspaceBeginDestroy w calls

end SwayRoot

end Swirl
