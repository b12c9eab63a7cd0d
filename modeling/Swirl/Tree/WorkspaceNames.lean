import Swirl.Tree.Outputs

set_option autoImplicit false

/-! # Finding, creating and naming workspaces

The lookups of `workspace.c` by name and number, with the names that stand for another workspace
(`prev`, `next`, `current`, `back_and_forth`), the output a new workspace goes to, and the name
`workspace_next_name` makes up for one.
-/

namespace Swirl

namespace SwayRoot

variable (s : SwayRoot)

/-- `seat_get_focused_workspace` -/
def seatGetFocusedWorkspace : Option WsId := s.focus.filter fun w => (s.ws w).output.isSome

/-- `root_find_workspace` -/
def rootFindWorkspace (test : WsId → Bool) : Option WsId :=
  s.outputs.findSome? fun o => (s.workspaces o).find? test

/-! ## By number -/

/-- `_workspace_by_number`, on the characters of the two names. -/
def matchesNumber : List Char → List Char → Bool
  | c :: cs, ws =>
      if c.isDigit then
        match ws with
        | d :: ds => if c = d then matchesNumber cs ds else false
        | [] => false
      else !ws.head?.any Char.isDigit
  | [], ws => !ws.head?.any Char.isDigit

/-- `workspace_by_number` -/
def workspaceByNumber (name : String) : Option WsId :=
  s.rootFindWorkspace fun w => matchesNumber name.toList (s.ws w).name.toList

/-- `workspace_get_number` -/
def workspaceGetNumber (w : WsId) : Int :=
  let name := (s.ws w).name.toList
  let r := strtol name
  if r.range ∨ r.value > 2 ^ 31 - 1 ∨ r.value < 0 ∨ r.rest = name then -1 else r.value

/-! ## The previous and the next workspace -/

/-- The walk of `workspace_prev` and `workspace_next` from a workspace without a number: the next
one without a number, or else the best of the numbered ones. -/
def scanNamed (beats : Int → Int → Bool) (w : WsId) :
    List WsId → Option WsId → Option (WsId × Int) → Bool → Option WsId
  | [], first, other, _ => (other.map Prod.fst).or first
  | v :: vs, first, other, found =>
      let n := s.workspaceGetNumber v
      let first := first.or (some v)
      let other :=
        match other with
        | none => some (v, n)
        | some (o, m) => if 0 ≤ n && beats n m then some (v, n) else some (o, m)
      if v = w then scanNamed beats w vs first other true
      else if n < 0 ∧ found then some v
      else scanNamed beats w vs first other found

/-- The walk of both from a workspace with the number `n`: the closest number in the direction, or
else a workspace without a number, or else the best number. -/
def scanNumbered (beats : Int → Int → Bool) (n : Int) :
    List WsId → Option (WsId × Int) → Option WsId → Option (WsId × Int) → Option WsId
  | [], first, other, near => (near.map Prod.fst).or (other.or (first.map Prod.fst))
  | v :: vs, first, other, near =>
      let m := s.workspaceGetNumber v
      let first :=
        match first with
        | none => some (v, m)
        | some (f, k) => if 0 ≤ m && beats m k then some (v, m) else some (f, k)
      let other := if m < 0 then other.or (some v) else other
      let near :=
        if 0 ≤ m ∧ beats n m then
          match near with
          | none => some (v, m)
          | some (p, k) => if beats m k then some (v, m) else some (p, k)
        else near
      scanNumbered beats n vs first other near

/-- The workspaces of the enabled outputs, in order. -/
def enabledWorkspaces : List WsId := s.outputs.flatMap s.workspaces

/-- `workspace_prev` -/
def workspacePrev (w : WsId) : Option WsId :=
  let n := s.workspaceGetNumber w
  let all := s.enabledWorkspaces.reverse
  if n < 0 then s.scanNamed (fun n m => decide (m < n)) w all none none false
  else s.scanNumbered (fun n m => decide (m < n)) n all none none none

/-- The workspaces `workspace_next` looks at on an output: it leaves the output at the first one
without a number. -/
def upToNamed : List WsId → List WsId
  | [] => []
  | v :: vs => if s.workspaceGetNumber v < 0 then [v] else v :: upToNamed vs

/-- `workspace_next` -/
def workspaceNext (w : WsId) : Option WsId :=
  let n := s.workspaceGetNumber w
  if n < 0 then s.scanNamed (fun n m => decide (n < m)) w s.enabledWorkspaces none none false
  else
    s.scanNumbered (fun n m => decide (n < m)) n
      (s.outputs.flatMap fun o => s.upToNamed (s.workspaces o)) none none none

/-- `workspace_output_prev_next_impl`, for the output of a workspace. -/
def workspaceOutputPrevNext (current : WsId) (dir : Int) : Option WsId :=
  match (s.ws current).output, s.seatGetFocusedWorkspace with
  | some o, some w =>
      let l := s.workspaces o
      l[((listFind l w + dir) % l.length).toNat]?
  | _, _ => none

/-! ## By name -/

/-- A name on an enabled output that `strcasecmp` cannot tell from this one. -/
def findWorkspaceName (name : String) : Option WsId :=
  s.rootFindWorkspace fun w => sameIgnoringCase (s.ws w).name name

/-- `workspace_by_name` -/
def workspaceByName (name : String) : Option WsId :=
  match s.seatGetFocusedWorkspace with
  | some current =>
      if name = "prev" then s.workspacePrev current
      else if name = "prev_on_output" then s.workspaceOutputPrevNext current (-1)
      else if name = "next" then s.workspaceNext current
      else if name = "next_on_output" then s.workspaceOutputPrevNext current 1
      else if name = "current" then some current
      else if sameIgnoringCase name "back_and_forth" then
        s.prevWorkspaceName.bind s.findWorkspaceName
      else s.findWorkspaceName name
  | none =>
      if name = "current" then none
      else if sameIgnoringCase name "back_and_forth" then
        s.prevWorkspaceName.bind s.findWorkspaceName
      else s.findWorkspaceName name

/-! ## Creating -/

/-- `workspace_find_config` -/
def workspaceFindConfig (name : String) : Option WorkspaceConfig :=
  s.config.workspaceConfigs.find? fun wsc => decide (wsc.workspace = name)

/-- The output a configuration asks for: the first of its outputs that is there. -/
def configuredOutput (wsc : WorkspaceConfig) : Option OutId :=
  wsc.outputs.findSome? s.outputByNameOrId

/-- `workspace_get_initial_output` -/
def workspaceGetInitialOutput (name : String) : OutId :=
  match (s.workspaceFindConfig name).bind s.configuredOutput with
  | some o => o
  | none =>
      match s.seatGetFocusedWorkspace.bind fun w => (s.ws w).output with
      | some o => o
      | none => s.outputs.head?.getD s.fallbackOutput

/-- `workspace_create`, on a given output or on the one its name asks for. -/
def workspaceCreate (output : Option OutId) (name : String) : SwayRoot :=
  let o := output.getD (s.workspaceGetInitialOutput name)
  let w := s.nextWs
  let priority :=
    match s.workspaceFindConfig name with
    | some wsc => wsc.outputs.filter fun n => decide (n ≠ "*")
    | none => []
  let s :=
    { s.modWs w fun _ =>
        { name, output := none, priority, tiling := [], floating := [], minimized := [] } with
      nextWs := w + 1 }
  ((s.workspaceOutputAddPriority w o).outputAddWorkspace o w).outputSortWorkspaces o

/-! ## A name for a new workspace -/

/-- `workspace_valid_on_output` -/
def workspaceValidOnOutput (outputName wsName : String) : Bool :=
  match s.outputByNameOrId outputName with
  | none => false
  | some o =>
      match s.workspaceFindConfig wsName with
      | none => true
      | some wsc => decide (s.configuredOutput wsc = some o)

/-- The words after `workspace` that are no name. -/
def workspaceWords : List String :=
  ["next", "prev", "next_on_output", "prev_on_output", "number", "back_and_forth", "current"]

/-- The name in the target of a binding, without the word `number`. -/
def bindingName (target : String) : String :=
  if hasPrefix target "number " then String.ofList (target.toList.drop 7) else target

/-- `workspace_name_from_binding`: the name of a binding, if it is free. -/
def workspaceNameFromBinding (outputName : String) (b : NameBinding) : Option String :=
  let name := bindingName b.target
  if b.target ∈ workspaceWords then none
  else if hasPrefix b.target "number " ∧ name.toList.head?.any Char.isDigit ∧
      (s.workspaceByNumber name).isSome then none
  else if (s.workspaceByName name).isSome then none
  else if s.workspaceValidOnOutput outputName name then some name
  else none

/-- The free name of the earliest binding so far, with its order. -/
def earlierName (outputName : String) (best : Int × Option String) (b : NameBinding) :
    Int × Option String :=
  match s.workspaceNameFromBinding outputName b with
  | some name => if b.order < best.1 then (b.order, some name) else best
  | none => best

/-- The free name of the first configuration for an output. -/
def nameFromConfig (o : OutId) : Option String :=
  (s.config.workspaceConfigs.find? fun wsc =>
    (s.workspaceByName wsc.workspace).isNone &&
      decide (s.configuredOutput wsc = some o)).map WorkspaceConfig.workspace

/-- The first number that no workspace has, among the first `n` after `i`. -/
def freeNumber : Nat → Nat → String
  | 0, i => toString i
  | n + 1, i => if (s.workspaceByNumber (toString i)).isSome then freeNumber n (i + 1) else toString i

/-- `workspace_next_name`; the search for a number ends, since each workspace has one at most. -/
def workspaceNextName (outputName : String) : Option String :=
  match s.outputByNameOrId outputName with
  | none => none
  | some o =>
      let target :=
        ((s.config.keysymBindings ++ s.config.keycodeBindings).foldl (s.earlierName outputName)
          (2 ^ 31 - 1, none)).2
      some <|
        match (s.nameFromConfig o).or target with
        | some name => name
        | none => s.freeNumber s.enabledWorkspaces.length 1

end SwayRoot

end Swirl
