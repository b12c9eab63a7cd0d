import Swirl.Commands.Scratchpad
import Swirl.Tree.OperationRuns
import Swirl.Desktop.OverviewActions
import Swirl.Tree.Root

set_option autoImplicit false

/-! # Commands on containers without a workspace

Commands with criteria run on every container `root_for_each_container` visits, and a minimized one
or one below a hidden scratchpad container has no workspace. Here the paths of `swap`, `pull`, `move
container to workspace`, `move scratchpad` and `floating` are written with the workspace pointers
they follow: a result `none` means that the C code dereferences `NULL`. Where a helper tests the
pointer first it cannot fail, and is the one of the other modules. `pull` never fails; for each of
the others `SafeOn` says exactly when it does not.
-/

namespace Swirl

open Lib

variable (fo : FocusOps) (outputAt : OutputAt)

/-! ## Following workspace pointers -/

/-- `arrange_workspace`, of a pointer. -/
def arrangeWorkspaceChecked (s : State) (w : Option WsId) : Option State :=
  if s.config.reloading then some s else w.map (arrangeWorkspace s)

/-- The workspaces of two containers are arranged. -/
def arrangeBothChecked (s : State) (a b : ConId) : Option State := do
  let wa := (s.tree.con a).workspace
  let wb := (s.tree.con b).workspace
  let s ← arrangeWorkspaceChecked s wa
  if wb = wa then some s else arrangeWorkspaceChecked s wb

/-- `workspace_swap_floating`: both representations are updated in every case. -/
def workspaceSwapFloatingChecked (s : State) (a b : ConId) : Option State :=
  if a = b then some s
  else do
    let _ ← (s.tree.con a).workspace
    let _ ← (s.tree.con b).workspace
    some (workspaceSwapFloating fo s a b)

/-- `overview_swap_container` -/
def overviewSwapContainerChecked (s : State) (focusTop target : ConId) (k : SeatId) :
    Option State :=
  if focusTop = target then some s
  else if containerIsFloating s.tree focusTop ≠ containerIsFloating s.tree target then some s
  else do
    let s ←
      if containerIsFloating s.tree focusTop then
        (workspaceSwapFloatingChecked fo s focusTop target).map fun s =>
          containerRaiseFloating s target
      else some (workspaceSwapColumns fo s focusTop target)
    arrangeBothChecked (fo.setFocusRaw s k (some (.container target))) focusTop target

/-- `container_floating_move_to`: a container that changes its workspace must be on one. -/
def containerFloatingMoveToChecked (s : State) (c : ConId) (lx ly : ℚ) : Option State :=
  if containerIsFloating s.tree c then
    let s := containerFloatingTranslate s c (lx - (s.geo c).x) (ly - (s.geo c).y)
    if containerIsScratchpadHidden s.tree c then some s
    else
      let old := (s.tree.con c).workspace
      match (containerFloatingFindOutput s c).bind fun o =>
        (outputGetActiveWorkspace s o).map fun new => (o, new) with
      | none => some s
      | some (o, new) =>
          if old = some new then some s
          else do
            let s := workspaceAddFloating fo (containerDetach s c) new c
            let s ← arrangeWorkspaceChecked s old
            let s := arrangeWorkspace s new
            let s :=
              if (s.tree.con c).scratchpad then
                s.modGeo c fun g => { g with transform := outputGetBox s o }
              else s
            -- `workspace_detect_urgent(old_workspace)`
            let _ ← old
            some s
  else some s

/-- `overview_pull_container_to`, for a floating container that is not hidden. -/
def pullFloatingChecked (s : State) (k : SeatId) (p : Pointer) (c : ConId) (dest : WsId) :
    Option State := do
  let s := if s.full.mode c ≠ .none then containerSetFullscreen fo s c .none else s
  let s := pullFloatingTo fo s c dest
  let place := pointerPlace outputAt s c p
  let s ← containerFloatingMoveToChecked fo s c place.1 place.2
  some (containerRaiseFloating (fo.setFocus s k (some (.container c))) c)

/-- `overview_pull_container` -/
def overviewPullContainerChecked (s : State) (k : SeatId) (p : Pointer) (c : ConId) :
    Option State :=
  match overviewActionCurrentWs outputAt s k p with
  | none => some s
  | some dest =>
      let target := containerToplevelAncestor s.tree c
      if containerIsFloating s.tree target ∧ containerIsScratchpadHidden s.tree target = false then
        pullFloatingChecked fo outputAt s k p target dest
      else some (overviewPullContainerTo fo outputAt s k p c dest)

/-- `container_move_to_workspace`: the output of the old workspace is read of a floating container,
and urgency is looked for on the old workspace at the end. -/
def containerMoveToWorkspaceChecked (s : State) (c : ConId) (w : WsId) : Option State :=
  if (s.tree.con c).workspace = some w then some s
  else if containerIsFloating s.tree c then do
    let old ← (s.tree.con c).workspace
    some (workspaceFocusFullscreen (moveFloatingToWorkspace fo s c old w) w)
  else do
    let old := (s.tree.con c).workspace
    let s := moveTiledToWorkspace fo s c w
    let _ ← old
    some (workspaceFocusFullscreen s w)

/-- The end of `cmd_move_container`, which tests the old workspace wherever it reads it. -/
def finishMove (s : State) (c : ConId) (focus : Option Node) (parent : Option ConId)
    (old : Option WsId) (newOutput : Option OutId) (last : Option WsId) : State :=
  let s := keepShown s newOutput last
  let focus :=
    if focus = some (.container c) then
      (parent.bind fun p => seatGetFocusInactive s s.currentSeat (.container p)).orElse fun _ =>
        old.bind fun w => seatGetFocusInactive s s.currentSeat (.workspace w)
    else focus
  let s := fo.setFocus s s.currentSeat focus
  let s :=
    match parent with
    | some p => containerReapEmpty fo s p
    | none => considerDestroy fo s old
  if s.full.global.isSome then arrangeRoot s
  else
    let s :=
      match old with
      | some w => if (s.tree.ws w).destroying then s else arrangeWorkspace s w
      | none => s
    match newOutput with
    | some o => arrangeOutput s o
    | none => s

/-- The exits of `cmd_move_container` before anything moves. -/
def moveExits (s : State) (c : ConId) (w : WsId) : Prop :=
  let oldOutput := (s.tree.con c).workspace.bind fun v => (s.tree.ws v).output
  s.tree.outputs = [] ∨ s.full.mode c = .global ∨
    (containerIsSticky s.tree (containerToplevelAncestor s.tree c) = true ∧ oldOutput.isSome ∧
      oldOutput = (s.tree.ws w).output)

instance (s : State) (c : ConId) (w : WsId) : Decidable (moveExits s c w) := by
  unfold moveExits
  infer_instance

/-- `container_is_scratchpad_hidden_or_child` -/
def containerIsScratchpadHiddenOrChild (t : Tree) (c : ConId) : Bool :=
  containerIsScratchpadHidden t (containerToplevelAncestor t c)

/-- `cmd_move_container`, to a workspace. -/
def cmdMoveContainerChecked (s : State) (c : ConId) (w : WsId) : Option State :=
  if moveExits s c w then some s
  else do
    let parent := (s.tree.con c).parent
    let old := (s.tree.con c).workspace
    let oldOutput := old.bind fun v => (s.tree.ws v).output
    let newOutput := (s.tree.ws w).output
    let last := if oldOutput ≠ newOutput then newOutput.bind (outputGetActiveWorkspace s) else none
    let focus := seatGetFocus s s.currentSeat
    let s :=
      if containerIsScratchpadHiddenOrChild s.tree c then
        rootScratchpadShow fo (containerDetach s c) c
      else s
    let s ← containerMoveToWorkspaceChecked fo s c w
    some (finishMove fo s c focus parent old newOutput last)

/-- `container_set_floating`: the tiled container goes to the floating list of its workspace, the
floating one to the row. -/
def containerSetFloatingChecked (s : State) (c : ConId) (enable : Bool) : Option State :=
  if containerIsFloating s.tree c = enable then some s
  else do
    let _ ← (s.tree.con c).workspace
    some (containerSetFloating fo s c enable)

/-- `container_floating_move_to_center` -/
def containerFloatingMoveToCenterChecked (s : State) (c : ConId) : Option State :=
  if containerIsFloating s.tree c then do
    let _ ← (s.tree.con c).workspace
    some (containerFloatingMoveToCenter s c)
  else some s

/-- `root_scratchpad_add_container`, with no workspace to show the container on. -/
def rootScratchpadAddContainerChecked (s : State) (c : ConId) : Option State :=
  if (s.tree.con c).scratchpad then some s
  else do
    let parent := (s.tree.con c).parent
    -- `set_container_transform(workspace, con)`
    let w ← (s.tree.con c).workspace
    let s := disableFullscreen fo (setContainerTransform s w c) c
    let s ←
      if containerIsFloating s.tree c then some s
      else do
        let s ← containerSetFloatingChecked fo s c true
        containerFloatingMoveToCenterChecked (containerFloatingSetDefaultSize s c) c
    let s := (containerDetach s c).modTree fun t =>
      { t.modCon c fun k => { k with scratchpad := true } with
        scratchpad := listAdd t.scratchpad c }
    some (focusAfterScratchpad fo s w parent)

/-! ## The commands -/

/-- The argument of `floating`. -/
inductive FloatingArg where
  | enable | disable | toggle
  deriving DecidableEq, Repr

/-- `parse_boolean`, of the argument and the current value. -/
def FloatingArg.parse (current : Bool) : FloatingArg → Bool
  | .enable => true
  | .disable => false
  | .toggle => !current

/-- `cmd_swap`, without arguments. -/
def cmdSwapChecked (s : State) (c : ConId) : Option State :=
  match seatGetFocusedContainer s s.currentSeat with
  | none => some s
  | some focus =>
      overviewSwapContainerChecked fo s (containerToplevelAncestor s.tree focus)
        (containerToplevelAncestor s.tree c) s.currentSeat

/-- `cmd_move_to_scratchpad` -/
def cmdMoveToScratchpadChecked (s : State) (c : ConId) : Option State :=
  let d := floatingOperand s.tree c
  if s.tree.outputs = [] then some s
  else if (s.tree.con d).scratchpad = false then rootScratchpadAddContainerChecked fo s d
  else if (s.tree.con d).workspace.isSome then some (rootScratchpadHide fo s d)
  else some s

/-- `cmd_floating` -/
def cmdFloatingChecked (s : State) (c : ConId) (arg : FloatingArg) : Option State :=
  if s.tree.outputs = [] ∨ containerIsScratchpadHidden s.tree c then some s
  else do
    let d := floatingOperand s.tree c
    let s ← containerSetFloatingChecked fo s d (arg.parse (containerIsFloating s.tree d))
    match (s.tree.con d).workspace with
    | some w => some (arrangeWorkspace s w)
    | none => some s

/-- A command that criteria can address to a container. -/
inductive AddressedCommand where
  | swap
  | pull
  | moveToWorkspace (w : WsId)
  | moveToScratchpad
  | floating (arg : FloatingArg)
  deriving DecidableEq, Repr

/-- What a command does with a container; `p` is where the pointer is. -/
def AddressedCommand.run (p : Pointer) (s : State) (c : ConId) : AddressedCommand → Option State
  | .swap => cmdSwapChecked fo s c
  | .pull => overviewPullContainerChecked fo outputAt s s.currentSeat p c
  | .moveToWorkspace w => cmdMoveContainerChecked fo s c w
  | .moveToScratchpad => cmdMoveToScratchpadChecked fo s c
  | .floating arg => cmdFloatingChecked fo s c arg

/-- Two top-level containers can be exchanged: nothing is done, both are on workspaces, or they
are tiled and nothing is arranged. -/
def SwapSafe (s : State) (a b : ConId) : Prop :=
  a = b ∨ containerIsFloating s.tree a ≠ containerIsFloating s.tree b ∨
    ((s.tree.con a).workspace.isSome ∧ (s.tree.con b).workspace.isSome) ∨
    (containerIsFloating s.tree a = false ∧ s.config.reloading = true)

/-- When a command follows no `NULL` workspace. -/
def AddressedCommand.SafeOn (s : State) (c : ConId) : AddressedCommand → Prop
  | .swap =>
      match seatGetFocusedContainer s s.currentSeat with
      | none => True
      | some focus =>
          SwapSafe s (containerToplevelAncestor s.tree focus) (containerToplevelAncestor s.tree c)
  | .pull => True
  | .moveToWorkspace w =>
      moveExits s c w ∨
        if containerIsScratchpadHiddenOrChild s.tree c then
          (seatGetFocusedWorkspace (containerDetach s c) s.currentSeat).isSome
        else (s.tree.con c).workspace.isSome
  | .moveToScratchpad =>
      s.tree.outputs = [] ∨ (s.tree.con (floatingOperand s.tree c)).scratchpad = true ∨
        (s.tree.con (floatingOperand s.tree c)).workspace.isSome
  | .floating arg =>
      s.tree.outputs = [] ∨ containerIsScratchpadHidden s.tree c = true ∨
        containerIsFloating s.tree (floatingOperand s.tree c) =
          arg.parse (containerIsFloating s.tree (floatingOperand s.tree c)) ∨
        (s.tree.con (floatingOperand s.tree c)).workspace.isSome

/-! ## Exchanging -/

section Paths

variable {fo} {outputAt} (h : FocusThins fo) {s : State} {a b c : ConId} {w : WsId}

theorem arrangeWorkspaceChecked_isSome (s : State) (w : Option WsId) :
    (arrangeWorkspaceChecked s w).isSome ↔ s.config.reloading = true ∨ w.isSome := by
  unfold arrangeWorkspaceChecked
  split
  next hr => simp [hr]
  next hr => simp [hr]

theorem config_arrangeWorkspace (s : State) (w : WsId) : (arrangeWorkspace s w).config = s.config :=
  (thins_arrangeWorkspace (K := Nobody) (D := Nobody) s w).frame.config

theorem arrangeBothChecked_isSome (s : State) (a b : ConId) :
    (arrangeBothChecked s a b).isSome ↔ s.config.reloading = true ∨ BothPlaced a b s.tree := by
  unfold arrangeBothChecked BothPlaced
  dsimp only
  by_cases hr : s.config.reloading = true
  · -- while the configuration is reloaded nothing is arranged
    have hsame : ∀ w, arrangeWorkspaceChecked s w = some s := fun w => if_pos hr
    rw [hsame]
    simp [hr, hsame]
  · cases hwa : (s.tree.con a).workspace with
    | none =>
        have hnone : arrangeWorkspaceChecked s none = none := if_neg hr
        rw [hnone]
        simp [hr]
    | some w =>
        have hfirst : arrangeWorkspaceChecked s (some w) = some (arrangeWorkspace s w) := if_neg hr
        rw [hfirst]
        have hr' : ¬ (arrangeWorkspace s w).config.reloading = true := by
          rwa [config_arrangeWorkspace]
        by_cases hwb : (s.tree.con b).workspace = some w
        · simp [hwb]
        · have hsecond := arrangeWorkspaceChecked_isSome (arrangeWorkspace s w)
            (s.tree.con b).workspace
          simp only [hr', Bool.false_eq_true, false_or] at hsecond
          simp [hr, hwb, hsecond]

theorem workspaceSwapColumns_of_unplaced (hp : ¬ BothPlaced a b s.tree) :
    workspaceSwapColumns fo s a b = s := by
  unfold workspaceSwapColumns
  split
  · rfl
  · split
    next wa wb ha hb => exact absurd ⟨ha ▸ rfl, hb ▸ rfl⟩ hp
    next => rfl

theorem workspaceSwapFloatingChecked_eq (hab : a ≠ b) :
    workspaceSwapFloatingChecked fo s a b =
      if BothPlaced a b s.tree then some (workspaceSwapFloating fo s a b) else none := by
  unfold workspaceSwapFloatingChecked
  rw [if_neg hab]
  cases ha : (s.tree.con a).workspace with
  | none =>
      have hp : ¬ BothPlaced a b s.tree := fun hp => by simpa [ha] using hp.1
      rw [if_neg hp]
      rfl
  | some w =>
      cases hb : (s.tree.con b).workspace with
      | none =>
          have hp : ¬ BothPlaced a b s.tree := fun hp => by simpa [hb] using hp.2
          rw [if_neg hp]
          rfl
      | some v =>
          have hp : BothPlaced a b s.tree := ⟨ha ▸ rfl, hb ▸ rfl⟩
          rw [if_pos hp]
          rfl

include h

/-- What remains of an exchange once the containers have changed places. -/
theorem settleSwap_isSome (hs : s.tree.WellFormed) (k : SeatId) (node : Option Node) :
    (arrangeBothChecked (fo.setFocusRaw s k node) a b).isSome ↔
      s.config.reloading = true ∨ BothPlaced a b s.tree := by
  have hthins := h.setFocusRaw s k node
  have hconfig : (fo.setFocusRaw s k node).config = s.config := hthins.frame.config
  rw [arrangeBothChecked_isSome, hconfig, Thins.bothPlaced_iff hthins hs]

theorem overviewSwapContainerChecked_isSome (hs : s.tree.WellFormed) (k : SeatId) :
    (overviewSwapContainerChecked fo s a b k).isSome ↔ SwapSafe s a b := by
  unfold overviewSwapContainerChecked SwapSafe
  by_cases hab : a = b
  · simp [hab]
  · by_cases hfloat : containerIsFloating s.tree a = containerIsFloating s.tree b
    · rw [if_neg hab, if_neg fun hne => hne hfloat]
      rw [or_iff_right hab, or_iff_right fun hne => hne hfloat]
      cases hf : containerIsFloating s.tree a with
      | true =>
          rw [if_pos rfl, workspaceSwapFloatingChecked_eq hab]
          by_cases hp : BothPlaced a b s.tree
          · rw [if_pos hp]
            refine iff_of_true ?_ (Or.inl hp)
            obtain ⟨hwf, hplaced⟩ := wellFormed_workspaceSwapFloating h hs a b
            obtain ⟨hwf', hws⟩ := wellFormed_containerRaiseFloating hwf b
            refine (settleSwap_isSome h hwf' k _).mpr (Or.inr ?_)
            unfold BothPlaced
            rw [hws, hws]
            exact hplaced hp
          · rw [if_neg hp]
            refine iff_of_false (by simp) ?_
            rintro (hboth | ⟨hfalse, -⟩)
            · exact hp hboth
            · cases hfalse
      | false =>
          rw [if_neg Bool.false_ne_true]
          obtain ⟨hwf, hplaced⟩ := wellFormed_workspaceSwapColumns h hs a b
          have hiff := settleSwap_isSome h (s := workspaceSwapColumns fo s a b) (a := a) (b := b)
            hwf k (some (.container b))
          refine hiff.trans ?_
          by_cases hp : BothPlaced a b s.tree
          · exact iff_of_true (Or.inr (hplaced hp)) (Or.inl hp)
          · rw [workspaceSwapColumns_of_unplaced hp, or_iff_left hp]
            refine ⟨fun hr => Or.inr ⟨rfl, hr⟩, ?_⟩
            rintro (hboth | ⟨-, hr⟩)
            · exact absurd hboth hp
            · exact hr
    · rw [if_neg hab, if_pos hfloat]
      exact iff_of_true rfl (Or.inr (Or.inl hfloat))

/-! ## Pulling -/

omit h in
theorem arrangeWorkspaceChecked_some (s : State) (w : WsId) :
    arrangeWorkspaceChecked s (some w) = some (arrangeWorkspace s w) := by
  unfold arrangeWorkspaceChecked arrangeWorkspace
  split
  · rfl
  · rfl

omit h in
/-- A container on a workspace can be moved to a place. -/
theorem containerFloatingMoveToChecked_isSome (hc : (s.tree.con c).workspace.isSome) (lx ly : ℚ) :
    (containerFloatingMoveToChecked fo s c lx ly).isSome := by
  obtain ⟨w, hw⟩ := Option.isSome_iff_exists.mp hc
  unfold containerFloatingMoveToChecked
  split
  · have htree : (containerFloatingTranslate s c (lx - (s.geo c).x) (ly - (s.geo c).y)).tree = s.tree :=
      (onlyGeometry_translateWithin _ s c _ _).tree
    dsimp only
    rw [htree, hw]
    split
    · rfl
    · split
      · rfl
      · split
        · rfl
        · rw [arrangeWorkspaceChecked_some]
          rfl
  · rfl

/-- The container is on a workspace after it was pulled to one. -/
theorem pullFloatingTo_placed (hs : s.tree.WellFormed) (hlt : c < s.tree.nextCon)
    (hc : (s.tree.con c).workspace.isSome) (dest : WsId) :
    ((pullFloatingTo fo s c dest).tree.con c).workspace.isSome := by
  have hout : Tree.TakenOut Nobody c s.tree (containerDetach s c).tree := by
    rw [tree_containerDetach]
    exact Tree.takenOut_detach hs c
  have hadd := floated_workspaceAddFloating h hout hlt dest
  have harrange : ∀ (u : State) (v : WsId), Tree.Floated c s.tree u.tree →
      Tree.Floated c s.tree (arrangeWorkspace (arrangeWorkspace u v) dest).tree := fun u v hu =>
    (hu.thins (thins_arrangeWorkspace (K := Nobody) (D := Nobody) u v)).thins
      (thins_arrangeWorkspace (K := Nobody) (D := Nobody) _ dest)
  unfold pullFloatingTo
  split
  next hnone =>
    rw [hnone] at hc
    cases hc
  next old _ =>
    split
    · exact hc
    · dsimp only
      -- fixing the coordinates for another output changes no place
      generalize hfixed : (if (s.tree.ws old).output ≠
          ((workspaceAddFloating fo (containerDetach s c) dest c).tree.ws dest).output then
            floatingFixCoordinates (workspaceAddFloating fo (containerDetach s c) dest c) c
              (workspaceGetBox (workspaceAddFloating fo (containerDetach s c) dest c) old)
              (workspaceGetBox (workspaceAddFloating fo (containerDetach s c) dest c) dest)
          else workspaceAddFloating fo (containerDetach s c) dest c) = u
      have hu : Tree.Floated c s.tree u.tree := by
        rw [← hfixed]
        split
        · rw [(onlyGeometry_floatingFixCoordinates _ c _ _).tree]
          exact hadd
        · exact hadd
      split
      · exact (harrange u old hu).placed c (Or.inl rfl)
      · exact ((harrange u old hu).thins
          (thins_workspaceConsiderDestroy h _ old)).placed c (Or.inl rfl)

omit h in
theorem workspace_of_floating (hf : containerIsFloating s.tree c = true)
    (hh : containerIsScratchpadHidden s.tree c = false) : (s.tree.con c).workspace.isSome := by
  unfold containerIsFloating at hf
  unfold containerIsScratchpadHidden at hh
  cases hw : (s.tree.con c).workspace with
  | some w => rfl
  | none =>
      rw [hw] at hf hh
      simp_all

/-- **`pull` follows no `NULL` workspace.** -/
theorem overviewPullContainerChecked_isSome (hs : s.tree.WellFormed) (hlt : c < s.tree.nextCon)
    (k : SeatId) (p : Pointer) : (overviewPullContainerChecked fo outputAt s k p c).isSome := by
  unfold overviewPullContainerChecked
  split
  next => rfl
  next dest _ =>
    dsimp only
    split
    next hf =>
      have hlt' := toplevel_lt hs hlt
      have hws := workspace_of_floating hf.1 hf.2
      generalize containerToplevelAncestor s.tree c = d at hlt' hws
      have hfull : ∀ u : State, Thins Nobody Nobody s.core u.core →
          ((pullFloatingTo fo u d dest).tree.con d).workspace.isSome := by
        intro u hu
        have hwf : u.tree.WellFormed := Tree.Thins.wellFormedBut hu hs
        refine pullFloatingTo_placed h hwf (hlt'.trans_le hu.frame.nextCon.ge) ?_ dest
        exact (Tree.Thins.workspace_isSome hu hs d).trans hws
      unfold pullFloatingChecked
      dsimp only
      generalize hu : (if s.full.mode d ≠ .none then containerSetFullscreen fo s d .none else s) = u
      have hthins : Thins Nobody Nobody s.core u.core := by
        rw [← hu]
        split
        · exact thins_containerSetFullscreen h s d .none
        · exact Thins.refl _
      have hmove : ∀ x y : ℚ, (containerFloatingMoveToChecked fo (pullFloatingTo fo u d dest) d
          x y).isSome := containerFloatingMoveToChecked_isSome (hfull u hthins)
      obtain ⟨v, hv⟩ := Option.isSome_iff_exists.mp (hmove
        (pointerPlace outputAt (pullFloatingTo fo u d dest) d p).1
        (pointerPlace outputAt (pullFloatingTo fo u d dest) d p).2)
      rw [hv]
      rfl
    next => rfl

/-! ## Moving to a workspace -/

omit h in
theorem containerMoveToWorkspaceChecked_isSome (s : State) (c : ConId) (w : WsId) :
    (containerMoveToWorkspaceChecked fo s c w).isSome ↔ (s.tree.con c).workspace.isSome := by
  unfold containerMoveToWorkspaceChecked
  cases hws : (s.tree.con c).workspace with
  | none =>
      rw [if_neg (by simp)]
      split <;> simp
  | some old =>
      split
      · simp
      · split <;> simp

omit h in
theorem currentSeat_containerDetach (s : State) (c : ConId) :
    (containerDetach s c).currentSeat = s.currentSeat := by
  show (clearFullscreen s c).currentSeat = s.currentSeat
  have hglobal : ∀ u : State, (if holdsFullscreen u.tree c u.full.global then
      u.setFullscreenGlobal none else u).currentSeat = u.currentSeat := by
    intro u
    split <;> rfl
  unfold clearFullscreen
  dsimp only
  rw [hglobal]
  split
  · split <;> rfl
  · rfl

/-- A hidden window is shown before it is moved, which needs a workspace that has the focus. -/
theorem rootScratchpadShow_detached_placed (hs : s.tree.WellFormed) (hlt : c < s.tree.nextCon) :
    ((rootScratchpadShow fo (containerDetach s c) c).tree.con c).workspace.isSome ↔
      (seatGetFocusedWorkspace (containerDetach s c) s.currentSeat).isSome := by
  have hout : Tree.TakenOut Nobody c s.tree (containerDetach s c).tree := by
    rw [tree_containerDetach]
    exact Tree.takenOut_detach hs c
  have hseat := currentSeat_containerDetach s c
  -- once detached it stands for itself
  have hself : shownContainer (containerDetach s c) c = c := by
    unfold shownContainer
    split
    · rfl
    · exact Tree.toplevel_of_top hout.free.parent
  cases hw : seatGetFocusedWorkspace (containerDetach s c) s.currentSeat with
  | none =>
      unfold rootScratchpadShow
      rw [hseat, hw, tree_containerDetach, Tree.detach_workspace_self]
  | some w =>
      have hshown := floated_rootScratchpadShow h (s := containerDetach s c) (w := w)
        hout.wellFormed (hlt.trans_le hout.nextCon) (hseat.symm ▸ hw)
      rw [hself] at hshown
      exact iff_of_true (hshown.placed c (Or.inl rfl)) rfl

theorem cmdMoveContainerChecked_isSome (hs : s.tree.WellFormed) (hlt : c < s.tree.nextCon)
    (w : WsId) : (cmdMoveContainerChecked fo s c w).isSome ↔
      AddressedCommand.SafeOn s c (.moveToWorkspace w) := by
  show _ ↔ moveExits s c w ∨ _
  unfold cmdMoveContainerChecked
  by_cases hexit : moveExits s c w
  · simp [hexit]
  · rw [if_neg hexit, or_iff_right hexit]
    dsimp only
    -- what follows the move tests every pointer it reads
    have hrest : ∀ (o : Option State) (g : State → State),
        (o.bind fun u => some (g u)).isSome ↔ o.isSome := by
      intro o g
      cases o <;> exact Iff.rfl
    refine (hrest _ _).trans ?_
    rw [containerMoveToWorkspaceChecked_isSome]
    by_cases hhidden : containerIsScratchpadHiddenOrChild s.tree c = true
    · rw [if_pos hhidden, if_pos hhidden]
      exact rootScratchpadShow_detached_placed h hs hlt
    · rw [if_neg hhidden, if_neg hhidden]

/-! ## To the scratchpad and floating -/

omit h in
theorem containerSetFloatingChecked_isSome (s : State) (c : ConId) (enable : Bool) :
    (containerSetFloatingChecked fo s c enable).isSome ↔
      containerIsFloating s.tree c = enable ∨ (s.tree.con c).workspace.isSome := by
  unfold containerSetFloatingChecked
  split
  next hsame => exact iff_of_true rfl (Or.inl hsame)
  next hdiffer =>
    rw [or_iff_right hdiffer]
    cases (s.tree.con c).workspace <;> simp

/-- A container that was made floating is on a workspace. -/
theorem containerSetFloating_placed (hs : s.tree.WellFormed) (hlt : c < s.tree.nextCon)
    (hc : (s.tree.con c).workspace.isSome) :
    ((containerSetFloating fo s c true).tree.con c).workspace.isSome := by
  unfold containerSetFloating
  split
  · exact hc
  · split
    next hnone =>
      rw [hnone] at hc
      cases hc
    next w _ =>
      rw [if_pos rfl]
      exact floatContainer_placed h hs hlt w

omit h in
theorem containerFloatingMoveToCenterChecked_isSome (hc : (s.tree.con c).workspace.isSome) :
    (containerFloatingMoveToCenterChecked s c).isSome := by
  obtain ⟨w, hw⟩ := Option.isSome_iff_exists.mp hc
  unfold containerFloatingMoveToCenterChecked
  rw [hw]
  split <;> rfl

theorem rootScratchpadAddContainerChecked_isSome (hs : s.tree.WellFormed)
    (hlt : c < s.tree.nextCon) : (rootScratchpadAddContainerChecked fo s c).isSome ↔
      (s.tree.con c).scratchpad = true ∨ (s.tree.con c).workspace.isSome := by
  unfold rootScratchpadAddContainerChecked
  split
  next hsp => exact iff_of_true rfl (Or.inl hsp)
  next hsp =>
    rw [or_iff_right hsp]
    cases hw : (s.tree.con c).workspace with
    | none => simp
    | some w =>
        have hthins : Thins Nobody Nobody s.core
            (disableFullscreen fo (setContainerTransform s w c) c).core :=
          thins_disableFullscreen h (setContainerTransform s w c) c
        dsimp only [Option.bind_eq_bind, Option.bind_some]
        generalize disableFullscreen fo (setContainerTransform s w c) c = u at hthins ⊢
        have hwf : u.tree.WellFormed := Tree.Thins.wellFormedBut hthins hs
        have hlt' : c < u.tree.nextCon := hlt.trans_le hthins.frame.nextCon.ge
        have hplaced : (u.tree.con c).workspace.isSome := by
          refine (Tree.Thins.workspace_isSome hthins hs c).trans ?_
          exact congrArg Option.isSome hw
        refine iff_of_true ?_ rfl
        split
        · rfl
        next htiled =>
          obtain ⟨v, hv⟩ := Option.isSome_iff_exists.mp hplaced
          have hset : containerSetFloatingChecked fo u c true =
              some (containerSetFloating fo u c true) := by
            unfold containerSetFloatingChecked
            rw [if_neg htiled, hv]
            rfl
          have hfloated := containerSetFloating_placed h hwf hlt' hplaced
          rw [← (onlyGeometry_containerFloatingSetDefaultSize
            (containerSetFloating fo u c true) c).tree] at hfloated
          obtain ⟨x, hx⟩ := Option.isSome_iff_exists.mp
            (containerFloatingMoveToCenterChecked_isSome hfloated)
          rw [hset]
          dsimp only [Option.bind_some]
          rw [hx]
          rfl

omit h in
theorem floatingOperand_lt (hs : s.tree.WellFormed) (hlt : c < s.tree.nextCon) :
    floatingOperand s.tree c < s.tree.nextCon := by
  unfold floatingOperand
  split
  · exact toplevel_lt hs hlt
  · exact hlt

theorem cmdMoveToScratchpadChecked_isSome (hs : s.tree.WellFormed) (hlt : c < s.tree.nextCon) :
    (cmdMoveToScratchpadChecked fo s c).isSome ↔
      AddressedCommand.SafeOn s c .moveToScratchpad := by
  show _ ↔ s.tree.outputs = [] ∨ _
  unfold cmdMoveToScratchpadChecked
  dsimp only
  by_cases hout : s.tree.outputs = []
  · simp [hout]
  · rw [if_neg hout, or_iff_right hout]
    cases hsp : (s.tree.con (floatingOperand s.tree c)).scratchpad with
    | true =>
        refine iff_of_true ?_ (Or.inl rfl)
        split
        next hfalse => cases hfalse
        next => split <;> rfl
    | false =>
        rw [if_pos rfl, rootScratchpadAddContainerChecked_isSome h hs (floatingOperand_lt hs hlt),
          hsp]

omit h in
theorem cmdFloatingChecked_isSome (s : State) (c : ConId) (arg : FloatingArg) :
    (cmdFloatingChecked fo s c arg).isSome ↔ AddressedCommand.SafeOn s c (.floating arg) := by
  show _ ↔ s.tree.outputs = [] ∨ containerIsScratchpadHidden s.tree c = true ∨ _
  rw [← or_assoc]
  unfold cmdFloatingChecked
  by_cases hexit : s.tree.outputs = [] ∨ containerIsScratchpadHidden s.tree c = true
  · rw [if_pos hexit]
    exact iff_of_true rfl (Or.inl hexit)
  · rw [if_neg hexit, or_iff_right hexit, ← containerSetFloatingChecked_isSome]
    dsimp only
    cases containerSetFloatingChecked fo s (floatingOperand s.tree c)
        (arg.parse (containerIsFloating s.tree (floatingOperand s.tree c))) with
    | none => rfl
    | some u =>
        refine iff_of_true ?_ rfl
        dsimp only [Option.bind_eq_bind, Option.bind_some]
        split <;> rfl

/-! ## The commands -/

end Paths

end Swirl
