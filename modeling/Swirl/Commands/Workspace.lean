import Swirl.Commands.Bind
import Swirl.Tree.Hotplug

set_option autoImplicit false

/-! # Commands that name workspaces

`cmd_workspace`, `cmd_rename`, the part of `cmd_move_container` that finds the workspace to move
to, and the contexts of `launcher.c`, which bring a window to the workspace it was launched from.
Together with the outputs that come and go they are the events of a `SwayRoot`.
-/

namespace Swirl

namespace SwayRoot

variable (s : SwayRoot)

/-- A workspace that is found, or a new one with the name. -/
def foundOrCreated (found : Option WsId) (name : String) : SwayRoot × WsId :=
  match found with
  | some w => (s, w)
  | none => (s.workspaceCreate none name, s.nextWs)

/-- Whether a word begins with a digit. -/
def startsWithDigit (word : String) : Bool := word.toList.head?.any Char.isDigit

/-! ## workspace -/

/-- `workspace_config_find_or_create` -/
def workspaceConfigFindOrCreate (wsName : String) : SwayRoot :=
  match s.workspaceFindConfig wsName with
  | some _ => s
  | none => { s with
      config := { s.config with
        workspaceConfigs := listAdd s.config.workspaceConfigs ⟨wsName, []⟩ } }

/-- `workspace <name> output <outputs>`, from the place of the word on. -/
def workspaceOutputs (argv : List String) (outputLocation : Nat) : SwayRoot :=
  let wsName := joinArgs (argv.take outputLocation)
  let s := s.workspaceConfigFindOrCreate wsName
  let add (wsc : WorkspaceConfig) : WorkspaceConfig :=
    if s.workspaceFindConfig wsName = some wsc then
      { wsc with outputs := wsc.outputs ++ argv.drop (outputLocation + 1) }
    else wsc
  { s with config := { s.config with workspaceConfigs := s.config.workspaceConfigs.map add } }

/-- `workspace_auto_back_and_forth` -/
def workspaceAutoBackAndForth (w : WsId) : SwayRoot × WsId :=
  match s.prevWorkspaceName with
  | some name =>
      if s.config.autoBackAndForth ∧ s.seatGetFocusedWorkspace = some w then
        s.foundOrCreated (s.workspaceByName name) name
      else (s, w)
  | none => (s, w)

/-- The loop of `cmd_workspace` over `--no-auto-back-and-forth`: whether to go back and forth, and
the words that are left. -/
def dropNoAuto : List String → Bool → Except CmdResult (Bool × List String)
  | [], auto => .ok (auto, [])
  | word :: argv, auto =>
      if sameIgnoringCase word "--no-auto-back-and-forth" then
        match checkargAtLeast argv.length "workspace" 1 with
        | some error => .error error
        | none => dropNoAuto argv false
      else .ok (auto, word :: argv)

/-- The words that stand for a workspace next to the focused one, or for that one. -/
def isNeighbour (word : String) : Bool :=
  ["next", "prev", "next_on_output", "prev_on_output", "current"].any (sameIgnoringCase word)

/-- A workspace to switch to, going back and forth if it is the focused one. -/
def switchTarget (auto : Bool) (found : SwayRoot × WsId) : SwayRoot × Option WsId :=
  if auto then
    let (s, w) := found.1.workspaceAutoBackAndForth found.2
    (s, some w)
  else (found.1, some found.2)

/-- The workspace `cmd_workspace` switches to. -/
def workspaceToSwitchTo (auto : Bool) : List String → Except CmdResult (SwayRoot × Option WsId)
  | [] => .ok (s, none)
  | word :: argv =>
      if sameIgnoringCase word "number" then
        match argv with
        | [] => .error (.invalid "Expected workspace number")
        | number :: _ =>
            if startsWithDigit number then
              .ok (switchTarget auto
                (s.foundOrCreated (s.workspaceByNumber number) (joinArgs argv)))
            else .error (.invalid ("Invalid workspace number '" ++ number ++ "'"))
      else if isNeighbour word then .ok (s, s.workspaceByName word)
      else if sameIgnoringCase word "back_and_forth" then
        match s.prevWorkspaceName with
        | none => .error (.invalid "There is no previous workspace")
        | some name =>
            let (s, w) := s.foundOrCreated (s.workspaceByName word) name
            .ok (s, some w)
      else
        let name := joinArgs (word :: argv)
        .ok (switchTarget auto (s.foundOrCreated (s.workspaceByName name) name))

/-- The last part of `cmd_workspace`; `calls` is what the switch does. -/
def switchWorkspace (argv : List String) (calls : List FocusCall) : SwayRoot × CmdResult :=
  if s.outputs = [] then
    (s, .invalid "Can't run this command while there's no outputs connected.")
  else if s.fullscreenGlobal then
    (s, .failure "Can't switch workspaces while fullscreen global")
  else
    match dropNoAuto argv true with
    | .error error => (s, error)
    | .ok (auto, argv) =>
        match s.workspaceToSwitchTo auto argv with
        | .error error => (s, error)
        | .ok (s, some _) => (s.focusCalls calls, .success)
        | .ok (s, none) => (s, .failure "No workspace to switch to")

/-- The types of gaps `cmd_workspace_gaps` knows. -/
def isGapsType (type : String) : Bool :=
  ["inner", "outer", "horizontal", "vertical", "top", "right", "bottom", "left"].any
    (sameIgnoringCase type)

/-- `cmd_workspace_gaps`, which makes sure that the workspace has a configuration. -/
def cmdWorkspaceGaps (argv : List String) (gapsLocation : Nat) : SwayRoot × CmdResult :=
  let expected := "Expected 'workspace <name> gaps " ++
    "inner|outer|horizontal|vertical|top|right|bottom|left <px>'"
  if gapsLocation = 0 then (s, .invalid expected)
  else if argv.length ≠ gapsLocation + 3 then
    (s, .invalid ("Invalid workspace command (expected " ++ toString (gapsLocation + 3) ++
      " arguments, got " ++ toString argv.length ++ ")"))
  else
    let s := s.workspaceConfigFindOrCreate (joinArgs (argv.take gapsLocation))
    match argv.drop (gapsLocation + 1) with
    | type :: amount :: _ =>
        if (strtol amount.toList).rest ≠ [] then (s, .failure expected)
        else if isGapsType type then (s, .success)
        else (s, .invalid expected)
    | _ => (s, .invalid expected)

/-- `cmd_workspace` -/
def cmdWorkspace (argv : List String) (calls : List FocusCall) : SwayRoot × CmdResult :=
  match checkargAtLeast argv.length "workspace" 1 with
  | some error => (s, error)
  | none =>
      match argv.findIdx? (sameIgnoringCase · "output"), argv.findIdx? (sameIgnoringCase · "gaps") with
      | some 0, _ => (s, .invalid "Expected 'workspace <name> output <output>'")
      | some location, _ =>
          match checkargAtLeast argv.length "workspace" (location + 2) with
          | some error => (s, error)
          | none => (s.workspaceOutputs argv location, .success)
      | none, some location => s.cmdWorkspaceGaps argv location
      | none, none => s.switchWorkspace argv calls

/-! ## move container to workspace -/

/-- The workspace `move container to workspace` names, and the name for a new one. -/
def moveTarget (noAutoBackAndForth : Bool) (oldWs : Option WsId) (word : String)
    (argv : List String) : Except CmdResult (Option WsId × Option String) :=
  let back (found : Option WsId) (name : String) : Option WsId × Option String :=
    match s.prevWorkspaceName with
    | some prev =>
        if !noAutoBackAndForth ∧ s.config.autoBackAndForth ∧
            (oldWs.map fun w => (s.ws w).name) = some name then
          (s.workspaceByName prev, some prev)
        else (found, some name)
    | none => (found, some name)
  if isNeighbour word then .ok (s.workspaceByName word, none)
  else if sameIgnoringCase word "back_and_forth" then
    match s.workspaceByName word, s.prevWorkspaceName with
    | some w, _ => .ok (some w, none)
    | none, some prev => .ok (none, some prev)
    | none, none => .error (.failure "No workspace was previously active.")
  else if sameIgnoringCase word "number" then
    match argv with
    | [] =>
        .error (.invalid ("Expected 'move <left|right|up|down> <[px] px>' or " ++
          "'move [--no-auto-back-and-forth] <container|window> [to] workspace <name>' or " ++
          "'move <container|window|workspace> [to] output <name|direction>' or " ++
          "'move <container|window> [to] mark <mark>'"))
    | number :: _ =>
        if startsWithDigit number then
          .ok (back (s.workspaceByNumber (joinArgs argv)) (joinArgs argv))
        else .error (.invalid ("Invalid workspace number '" ++ number ++ "'"))
  else
    let name := joinArgs (word :: argv)
    .ok (back (s.workspaceByName name) name)

/-- The part of `cmd_move_container` that finds the workspace: `sticky` tells whether the container
or an ancestor is sticky, `oldWs` is its workspace. -/
def cmdMoveToWorkspace (noAutoBackAndForth : Bool) (oldWs : Option WsId) (sticky : Bool)
    (word : String) (argv : List String) : SwayRoot × CmdResult :=
  if s.outputs = [] then
    (s, .invalid "Can't run this command while there's no outputs connected.")
  else
    match s.moveTarget noAutoBackAndForth oldWs word argv with
    | .error error => (s, error)
    | .ok (some _, _) => (s, .success)
    | .ok (none, some name) =>
        if sticky ∧ (oldWs.bind fun w => (s.ws w).output) = some (s.workspaceGetInitialOutput name)
        then
          (s, .failure "Can't move sticky container to another workspace on the same output")
        else (s.workspaceCreate none name, .success)
    -- a workspace without a name: the C code does not survive it
    | .ok (none, none) => (s, .failure "")

/-! ## rename workspace -/

/-- `expected_syntax` of `rename.c` -/
def renameSyntax : String :=
  "Expected 'rename workspace <old_name> to <new_name>' or 'rename workspace to <new_name>'"

/-- The names a workspace cannot be renamed to. -/
def isSpecialName (name : String) : Bool :=
  ["next", "prev", "next_on_output", "prev_on_output", "back_and_forth", "current", "number"].any
    (sameIgnoringCase name)

/-- The workspace `cmd_rename` renames, with the place of the word `to`. -/
def renamedWorkspace (workspace : Option WsId) (argv : List String) : Except CmdResult (Option WsId) :=
  let argn := (argv.drop 1).findIdx (sameIgnoringCase · "to")
  match argv.drop 1 with
  | word :: rest =>
      if sameIgnoringCase word "to" then .ok workspace
      else if sameIgnoringCase word "number" then
        let number := rest.head?.getD ""
        if startsWithDigit number then .ok (s.workspaceByNumber number)
        else .error (.invalid ("Invalid workspace number '" ++ number ++ "'"))
      else .ok (s.workspaceByName (joinArgs ((argv.drop 1).take argn)))
  | [] => .ok none

/-- `cmd_rename`, with the workspace of the handler context. -/
def cmdRename (workspace : Option WsId) (argv : List String) : SwayRoot × CmdResult :=
  match checkargAtLeast argv.length "rename" 3 with
  | some error => (s, error)
  | none =>
      if s.outputs = [] then
        (s, .invalid "Can't run this command while there's no outputs connected.")
      else if !sameIgnoringCase (argv.head?.getD "") "workspace" then (s, .invalid renameSyntax)
      else
        match s.renamedWorkspace workspace argv with
        | .error error => (s, error)
        | .ok none => (s, .invalid "There is no workspace with that name")
        | .ok (some w) =>
            -- the words after `to`
            match argv.drop ((argv.drop 1).findIdx (sameIgnoringCase · "to") + 2) with
            | [] => (s, .invalid renameSyntax)
            | word :: rest =>
                let newName := joinArgs (word :: rest)
                if isSpecialName newName then
                  (s, .invalid ("Cannot use special workspace name '" ++ word ++ "'"))
                else
                  match s.workspaceByName newName with
                  | some tmp => (s, if tmp = w then .success else .invalid "Workspace already exists")
                  | none =>
                      let s := s.modWs w fun k => { k with name := newName }
                      match (s.ws w).output with
                      | some o => (s.outputSortWorkspaces o, .success)
                      | none => (s, .success)

/-! ## Launcher contexts -/

/-- `launcher_ctx_create`, for the context `k`. -/
def launcherCtxCreate (k : CtxId) (node : CtxNode) (child : Option WsId) : SwayRoot :=
  let name : Option String :=
    match node with
    | .workspace w => some (s.ws w).name
    | .output o => (s.outputGetActiveWorkspace o child).map fun w => (s.ws w).name
    | .root => none
  match name with
  | some fallbackName => { s with contexts := Function.update s.contexts k (some ⟨node, fallbackName⟩) }
  | none => s

/-- `launcher_ctx_get_workspace`: the outputs and workspaces afterwards. -/
def launcherCtxGetWorkspace (c : LauncherCtx) : SwayRoot :=
  match c.node with
  | .workspace _ => s
  | .output o =>
      match s.workspaceByName c.fallbackName with
      | some _ => s
      | none => s.workspaceCreate (if o ∈ s.outputs then some o else none) c.fallbackName
  | .root => s.workspaceCreate none c.fallbackName

/-- A window is mapped that was launched in the context `k`, which is used up. -/
def mapThroughContext (k : CtxId) : SwayRoot :=
  match s.contexts k with
  | some c =>
      let s := s.launcherCtxGetWorkspace c
      { s with contexts := Function.update s.contexts k none }
  | none => s

/-- `ctx_handle_node_destroy`, for an output that is destroyed. -/
def ctxHandleOutputDestroy (o : OutId) (c : LauncherCtx) : LauncherCtx :=
  if c.node = .output o then { c with node := .root } else c

/-! ## Events -/

/-- What happens to the outputs and workspaces: commands, outputs that come, go and are destroyed,
workspaces that move between them, programs that are launched and whose windows are mapped,
changes of focus, of the windows on a workspace, and of the settings. -/
inductive Event where
  | workspace (argv : List String) (calls : List FocusCall)
  | moveContainer (noAutoBackAndForth : Bool) (oldWs : Option WsId) (sticky : Bool) (word : String)
      (argv : List String)
  | rename (workspace : Option WsId) (argv : List String)
  | enable (o : OutId) (calls : List FocusCall)
  | disable (o : OutId) (e : WsId → Evacuation)
  | moveToOutput (w : WsId) (o : OutId) (child : Option WsId) (seen : Bool) (calls : List FocusCall)
  | destroyOutput (o : OutId)
  | launch (k : CtxId) (node : CtxNode) (child : Option WsId)
  | map (k : CtxId)
  | focus (calls : List FocusCall)
  | windows (w : WsId) (tiling floating minimized : List ConId) (isSticky : ConId → Bool)
  | fullscreen (global : Bool)
  | configure (config : NameConfig)

/-- One event. Only a disabled output is enabled, only an enabled one is disabled, and workspaces
move to enabled outputs. -/
def step (s : SwayRoot) : Event → SwayRoot
  | .workspace argv calls => (s.cmdWorkspace argv calls).1
  | .moveContainer noAuto oldWs sticky word argv =>
      (s.cmdMoveToWorkspace noAuto oldWs sticky word argv).1
  | .rename workspace argv => (s.cmdRename workspace argv).1
  | .enable o calls => if o ∉ s.outputs ∧ o ≠ s.fallbackOutput then s.outputEnable o calls else s
  | .disable o e => if o ∈ s.outputs then s.outputDisable o e else s
  | .moveToOutput w o child seen calls =>
      if o ∈ s.outputs then s.workspaceMoveToOutput w o child seen calls else s
  | .destroyOutput o =>
      { s with contexts := fun k => (s.contexts k).map (ctxHandleOutputDestroy o) }
  | .launch k node child => s.launcherCtxCreate k node child
  | .map k => s.mapThroughContext k
  | .focus calls => s.focusCalls calls
  | .windows w tiling floating minimized isSticky =>
      if (s.ws w).output.isSome then
        { s.modWs w fun k => { k with tiling, floating, minimized } with isSticky }
      else s
  | .fullscreen global => { s with fullscreenGlobal := global }
  | .configure config => { s with config }

/-- No output is enabled yet, and there are no workspaces. -/
def start (fallbackOutput : OutId) (label : OutId → OutputLabel) (config : NameConfig) : SwayRoot where
  outputs := []
  fallbackOutput
  label
  workspaces _ := []
  ws _ := ⟨"", none, [], [], [], []⟩
  nextWs := 0
  isSticky _ := false
  focus := none
  prevWorkspaceName := none
  fullscreenGlobal := false
  contexts _ := none
  config

end SwayRoot

end Swirl
