import Swirl.Tree.FixOverflow

set_option autoImplicit false

/-! # Focusing ends fullscreen modes and begins none

The focus functions call `container_fullscreen_disable` and never the functions that make a
container fullscreen, so a container without a fullscreen mode still has none afterwards, at every
nesting depth of the focus functions.
-/

namespace Swirl

/-- The containers without a fullscreen mode still have none. -/
def KeepsWindowed (s s' : State) : Prop := ∀ c, s.full.mode c = .none → s'.full.mode c = .none

/-- The focus functions begin no fullscreen mode. -/
structure FocusKeepsWindowed (fo : FocusOps) : Prop where
  setFocus : ∀ s k node, KeepsWindowed s (fo.setFocus s k node)
  setFocusRaw : ∀ s k node, KeepsWindowed s (fo.setFocusRaw s k node)

namespace KeepsWindowed

variable {s s' s'' : State}

theorem refl (s : State) : KeepsWindowed s s := fun _ hc => hc

theorem trans (h : KeepsWindowed s s') (h' : KeepsWindowed s' s'') : KeepsWindowed s s'' :=
  fun c hc => h' c (h c hc)

theorem of_mode (h : s'.full.mode = s.full.mode) : KeepsWindowed s s' := by
  intro c hc
  rw [h]
  exact hc

theorem of_geometry (h : OnlyGeometry s s') : KeepsWindowed s s' := by
  refine of_mode ?_
  unfold OnlyGeometry at h
  rw [← h]

theorem foldl {α : Type} {f : State → α → State} (hf : ∀ s a, KeepsWindowed s (f s a))
    (l : List α) (s : State) : KeepsWindowed s (l.foldl f s) := by
  induction l generalizing s with
  | nil => exact refl s
  | cons a l ih => exact (hf s a).trans (ih (f s a))

end KeepsWindowed

/-! ## Functions without focus -/

theorem mode_containerDetach (s : State) (c : ConId) :
    (containerDetach s c).full.mode = s.full.mode := by
  unfold containerDetach clearFullscreen
  dsimp only
  split <;> split <;> (try split) <;> rfl

theorem mode_detachIfPlaced (s : State) (c : ConId) :
    (detachIfPlaced s c).full.mode = s.full.mode := by
  unfold detachIfPlaced
  split
  · exact mode_containerDetach s c
  · rfl

theorem full_checkInsert (s : State) (r : Tree.ListRef) (i : Int) :
    (s.checkInsert r i).full = s.full := by
  unfold State.checkInsert
  cases r <;> dsimp only <;> split <;> (try split) <;> rfl

theorem full_attach (s : State) (r : Tree.ListRef) (i : Int) (c : ConId) :
    (s.attach r i c).full = s.full := full_checkInsert s r i

theorem full_unpark (s : State) (c : ConId) : (unpark s c).full = s.full := by
  unfold unpark workspaceMinimizedRemove
  split
  · split <;> rfl
  · rfl

theorem keepsWindowed_arrangeWorkspace (s : State) (w : WsId) :
    KeepsWindowed s (arrangeWorkspace s w) :=
  .of_mode (congrArg (fun f => f.mode) (full_arrangeWorkspace s w))

theorem keepsWindowed_arrangeRoot (s : State) : KeepsWindowed s (arrangeRoot s) := by
  have houtput : ∀ t o, KeepsWindowed t (arrangeOutput t o) := by
    intro t o
    unfold arrangeOutput
    split
    · exact .refl t
    · exact .foldl keepsWindowed_arrangeWorkspace _ t
  unfold arrangeRoot
  split
  · exact .refl s
  · dsimp only
    split
    next fs _ =>
      refine KeepsWindowed.trans (.of_mode ?_) (.of_geometry (onlyGeometry_arrangeContainer _ fs))
      rfl
    · exact .foldl houtput _ { s with rootBox := s.layoutBox }

/-- Ending the mode of one container begins no other. -/
theorem keepsWindowed_setMode_none (s : State) (c : ConId) :
    KeepsWindowed s (s.setMode c .none) := by
  intro d hd
  show Function.update s.full.mode c .none d = .none
  by_cases h : d = c
  · rw [h, Function.update_self]
  · rw [Function.update_of_ne h]
    exact hd

theorem keepsWindowed_clearFullscreenPointer (s : State) (c : ConId) :
    KeepsWindowed s (clearFullscreenPointer s c) := by
  unfold clearFullscreenPointer
  split
  · split
    · exact .refl s
    next w _ =>
      dsimp only
      split
      · have hpointer : KeepsWindowed s (s.setWsFullscreen w none) := .of_mode rfl
        exact hpointer.trans (.of_geometry (onlyGeometry_containerFloatingMoveToCenter _ c))
      · exact .of_mode rfl
  · exact .of_mode rfl

theorem keepsWindowed_leaveFullscreen (s : State) (c : ConId) :
    KeepsWindowed s (leaveFullscreen s c) := by
  have hbox : KeepsWindowed s
      (if containerIsFloating s.tree c then restoreSavedBox s c else s) := by
    split
    · exact .of_mode rfl
    · exact .refl s
  have hsize : ∀ t : State, KeepsWindowed t (if containerIsFloating t.tree c ∧
      ((t.geo c).width = 0 ∨ (t.geo c).height = 0) then containerFloatingResizeAndCenter t c
      else t) := by
    intro t
    split
    · exact .of_geometry (onlyGeometry_containerFloatingResizeAndCenter t c)
    · exact .refl t
  unfold leaveFullscreen
  dsimp only
  exact (hbox.trans (keepsWindowed_clearFullscreenPointer _ c)).trans
    ((hsize _).trans (keepsWindowed_setMode_none _ c))

theorem keepsWindowed_pushFocus (s : State) (k : SeatId) (node : Node) :
    KeepsWindowed s (pushFocus s k node) := by
  have hraw : ∀ t n, KeepsWindowed t (seatSetRawFocus t k n) := fun t n => .of_mode rfl
  unfold pushFocus
  cases node with
  | container c =>
      dsimp only
      have hparents := KeepsWindowed.foldl (fun t p => hraw t (.container p)) (s.tree.ancestors c) s
      refine hparents.trans (KeepsWindowed.trans ?_ (hraw _ _))
      split
      · exact hraw _ _
      · exact .refl _
  | root => exact .of_mode rfl
  | output o => exact .of_mode rfl
  | workspace w => exact .of_mode rfl

theorem keepsWindowed_settleFocus (s : State) (last new : Option WsId) :
    KeepsWindowed s (settleFocus s last new) :=
  settleFocus_keeps .refl .trans keepsWindowed_arrangeWorkspace (fun _ _ => .of_mode rfl)
    (fun _ _ => .of_mode rfl) s last new

section Functions

variable {fo : FocusOps} (h : FocusKeepsWindowed fo)

include h

/-! ## Fullscreen -/

theorem keepsWindowed_containerFullscreenDisable (s : State) (c : ConId) :
    KeepsWindowed s (containerFullscreenDisable fo s c) := by
  have hseat : ∀ t k, KeepsWindowed t (refocusScratchpad fo c t k) := by
    intro t k
    unfold refocusScratchpad
    split
    · split
      · exact h.setFocus t k _
      · exact .refl t
    · exact .refl t
  unfold containerFullscreenDisable
  split
  · exact .refl s
  · dsimp only
    split
    · exact (keepsWindowed_leaveFullscreen s c).trans (.foldl hseat _ _)
    · exact keepsWindowed_leaveFullscreen s c

theorem keepsWindowed_disableFullscreenGlobal (s : State) :
    KeepsWindowed s (disableFullscreenGlobal fo s) := by
  unfold disableFullscreenGlobal
  split
  · exact keepsWindowed_containerFullscreenDisable h s _
  · exact .refl s

theorem keepsWindowed_disableWsFullscreen (s : State) (w : WsId) :
    KeepsWindowed s (disableWsFullscreen fo s w) := by
  unfold disableWsFullscreen
  split
  · exact keepsWindowed_containerFullscreenDisable h s _
  · exact .refl s

/-- **Putting a fullscreen container elsewhere** may end the mode of another one. -/
theorem keepsWindowed_containerHandleFullscreenReparent (s : State) (c : ConId) :
    KeepsWindowed s (containerHandleFullscreenReparent fo s c) := by
  unfold containerHandleFullscreenReparent
  split
  next fs _ =>
    unfold reparentFullscreenGlobal
    split
    · exact .refl s
    · exact (keepsWindowed_disableFullscreenGlobal h s).trans (keepsWindowed_arrangeRoot
        ((disableFullscreenGlobal fo s).setFullscreenGlobal (some fs)))
  · split
    next fs _ =>
      unfold reparentFullscreenWorkspace
      split
      · exact .refl s
      next w _ =>
        split
        · exact .refl s
        · have hdisable := keepsWindowed_disableWsFullscreen h s w
          dsimp only
          split
          · exact hdisable
          next v _ =>
            exact hdisable.trans (keepsWindowed_arrangeWorkspace
              ((disableWsFullscreen fo s w).setWsFullscreen v (some fs)) v)
    · exact .refl s

/-! ## The destroy signal -/

theorem keepsWindowed_handleSeatWorkspaceDestroy (s : State) (k : SeatId) (w : WsId) :
    KeepsWindowed s (handleSeatWorkspaceDestroy fo s k w) := by
  unfold handleSeatWorkspaceDestroy
  dsimp only
  split
  · have hnone := h.setFocusRaw (seatNodeDestroy s k (.workspace w)) k none
    split
    · exact hnone.trans (h.setFocusRaw _ k _)
    · exact hnone
  · exact .of_mode rfl

theorem keepsWindowed_takeFocus (s : State) (k : SeatId) (c : ConId) (next : Node) :
    KeepsWindowed s (takeFocus fo s k c next) := by
  unfold takeFocus
  dsimp only
  split
  · have hnone := h.setFocus s k none
    split
    · exact hnone
    · exact hnone.trans (h.setFocusRaw _ k _)
  · split
    · exact .refl s
    · exact h.setFocusRaw s k _

omit h in
theorem keepsWindowed_setFocusInactive (s : State) (k : SeatId) (next : Node) :
    KeepsWindowed s (setFocusInactive s k next) := by
  unfold setFocusInactive
  dsimp only
  split
  · exact .of_mode rfl
  · refine .of_mode ?_
    split
    · split <;> rfl
    · rfl

theorem keepsWindowed_findNewFocus (s : State) (k : SeatId) (c : ConId) (parents : List Node)
    (needsNew : Bool) : KeepsWindowed s (findNewFocus fo s k c parents needsNew) := by
  unfold findNewFocus
  split
  · exact .refl s
  · split
    · exact .refl s
    · split
      · exact keepsWindowed_takeFocus h s k c _
      · exact keepsWindowed_setFocusInactive s k _

theorem keepsWindowed_handleSeatNodeDestroy (node : Node) (s : State) (k : SeatId) :
    KeepsWindowed s (handleSeatNodeDestroy fo node s k) := by
  unfold handleSeatNodeDestroy
  split
  · cases node with
    | root => exact .refl s
    | output o => exact .refl s
    | workspace w => exact keepsWindowed_handleSeatWorkspaceDestroy h s k w
    | container c =>
        show KeepsWindowed s (handleSeatContainerDestroy fo s k c)
        unfold handleSeatContainerDestroy
        dsimp only
        split
        · exact .of_mode rfl
        · exact keepsWindowed_findNewFocus h (seatNodeDestroy s k (.container c)) k c _ _
  · exact .refl s

theorem keepsWindowed_considerDestroy (s : State) (w : Option WsId) :
    KeepsWindowed s (considerDestroy fo s w) := by
  cases w with
  | none => exact .refl s
  | some w =>
      show KeepsWindowed s (workspaceConsiderDestroy fo s w)
      unfold workspaceConsiderDestroy
      split
      · exact .refl s
      · exact .foldl (keepsWindowed_handleSeatNodeDestroy h (.workspace w)) _ s

/-! ## The focus -/

theorem keepsWindowed_workspaceAddFloating (s : State) (w : WsId) (c : ConId) :
    KeepsWindowed s (workspaceAddFloating fo s w c) := by
  unfold workspaceAddFloating
  dsimp only
  refine KeepsWindowed.trans (.of_mode ?_) (keepsWindowed_containerHandleFullscreenReparent h _ c)
  unfold State.attachLast
  rw [full_attach, mode_detachIfPlaced, full_unpark]

theorem keepsWindowed_moveSticky (last new : WsId) (n i : Nat) (s : State) :
    KeepsWindowed s (moveSticky fo last new n i s) := by
  induction n generalizing i s with
  | zero => exact .refl s
  | succ n ih =>
      rw [moveSticky]
      split
      · exact .refl s
      next c _ =>
        split
        · have hout : KeepsWindowed s (containerDetach s c) := .of_mode (mode_containerDetach s c)
          exact (hout.trans (keepsWindowed_workspaceAddFloating h _ new c)).trans (ih i _)
        · exact ih (i + 1) s

theorem keepsWindowed_changeFocus (s : State) (k : SeatId) (node : Node) :
    KeepsWindowed s (changeFocus fo s k node) := by
  have hleave : ∀ t last new, KeepsWindowed t (leaveWorkspace fo t last new) := by
    intro t last new
    unfold leaveWorkspace
    dsimp only
    split
    · split
      · exact (keepsWindowed_moveSticky h _ _ _ _ t).trans (keepsWindowed_considerDestroy h _ _)
      · exact keepsWindowed_considerDestroy h t _
    · exact keepsWindowed_considerDestroy h t _
  have hseat : ∀ (t : State) f, KeepsWindowed t (t.modSeat k f) := fun t f => .of_mode rfl
  unfold changeFocus
  dsimp only
  refine KeepsWindowed.trans ?_ (keepsWindowed_settleFocus _ _ _)
  exact ((keepsWindowed_pushFocus s k node).trans (hseat _ _)).trans
    ((hleave _ _ _).trans (hseat _ _))

theorem keepsWindowed_seatSetWorkspaceFocus (s : State) (k : SeatId) (node : Option Node) :
    KeepsWindowed s (seatSetWorkspaceFocus fo s k node) := by
  unfold seatSetWorkspaceFocus
  split
  · exact .of_mode rfl
  · split
    · exact .refl s
    · split
      · exact .refl s
      · exact keepsWindowed_changeFocus h s k _

theorem keepsWindowed_unfocusLayer (s : State) (k : SeatId) :
    KeepsWindowed s (unfocusLayer fo s k) := by
  unfold unfocusLayer
  split
  · dsimp only
    split
    · have hnone := h.setFocus (s.modSeat k fun e => { e with focusedLayer := none }) k none
      exact hnone.trans (h.setFocus _ k _)
    · exact .refl s
  · exact .refl s

theorem keepsWindowed_setFocusUnderLayer (s : State) (k : SeatId) (node : Option Node) :
    KeepsWindowed s (setFocusUnderLayer fo s k node) := by
  have hlayer : ∀ t layer, KeepsWindowed t (focusLayer t k layer) := by
    intro t layer
    refine .of_mode ?_
    unfold focusLayer
    dsimp only
    repeat' split
    all_goals rfl
  have hfocus := (keepsWindowed_unfocusLayer h s k).trans
    (keepsWindowed_seatSetWorkspaceFocus h _ k node)
  unfold setFocusUnderLayer
  split
  · dsimp only
    split
    · exact hfocus.trans (hlayer _ _)
    · exact hfocus.trans (keepsWindowed_unfocusLayer h _ k)
  · exact hfocus

theorem keepsWindowed_seatSetFocusRaw (s : State) (k : SeatId) (node : Option Node) :
    KeepsWindowed s (seatSetFocusRaw fo s k node) := by
  have hindex : ∀ t w, KeepsWindowed t (workspaceUpdateFocusedColumnIdx t w) :=
    fun t w => .of_mode rfl
  have hfocus := keepsWindowed_setFocusUnderLayer h s k node
  unfold seatSetFocusRaw
  dsimp only
  split
  · split
    · exact hfocus.trans (hindex _ _)
    · exact hfocus
  · exact hfocus

end Functions

/-- **The focus functions begin no fullscreen mode**, at every nesting depth. -/
theorem focusKeepsWindowed_focusOps (n : Nat) : FocusKeepsWindowed (focusOps n) := by
  induction n with
  | zero => exact ⟨fun s _ _ => .refl s, fun s _ _ => .refl s⟩
  | succ n ih => exact ⟨keepsWindowed_setFocusUnderLayer ih, keepsWindowed_seatSetFocusRaw ih⟩

end Swirl
