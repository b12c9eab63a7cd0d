import Swirl.Tree.Effects

set_option autoImplicit false

/-! # Focusing thins out

Every function of `Swirl/Tree/Fullscreen.lean`, `Swirl/Input/SeatFocus.lean` and
`Swirl/Tree/Destroy.lean` is a chain of the steps of `Thin`, at every nesting depth of the focus
functions.
-/

namespace Swirl

/-- The focus functions thin out, and destroy and detach nothing. -/
structure FocusThins (fo : FocusOps) : Prop where
  setFocus : ∀ s k node, Thins Nobody Nobody s.core (fo.setFocus s k node).core
  setFocusRaw : ∀ s k node, Thins Nobody Nobody s.core (fo.setFocusRaw s k node).core

/-! ## Into the tree and out of it -/

theorem core_checkInsert {s : State} {r : Tree.ListRef} {index : Int}
    (hok : InsertOk (s.tree.items r) index)
    (hview : ∀ p, r = .children p → (s.tree.con p).view = none) :
    s.checkInsert r index = s := by
  unfold State.checkInsert
  cases r with
  | tiling w => exact if_pos hok
  | floating w => exact if_pos hok
  | children p =>
      have hp := hview p rfl
      simp only [hp, Option.isSome_none, Bool.false_eq_true, if_false]
      exact if_pos hok

/-- An insertion the C code can serve records no fault. -/
theorem core_attach {s : State} {r : Tree.ListRef} {index : Int} (c : ConId)
    (hok : InsertOk (s.tree.items r) index)
    (hview : ∀ p, r = .children p → (s.tree.con p).view = none) :
    (s.attach r index c).core = s.core.attach r index c := by
  rw [State.attach, core_checkInsert hok hview]
  rfl

theorem insertOk_length {α : Type} (l : List α) : InsertOk l l.length :=
  ⟨Int.natCast_nonneg _, le_rfl⟩

theorem core_attachLast_floating (s : State) (w : WsId) (c : ConId) :
    (s.attachLast (.floating w) c).core =
      s.core.attach (.floating w) (s.tree.ws w).floating.length c :=
  core_attach c (insertOk_length _) (fun _ h => by cases h)

/-- Moving a detached container to a floating list is `refloat`. -/
theorem core_refloat (s : State) (w : WsId) (c : ConId) :
    ((detachIfPlaced (unpark (containerDetach s c) c) c).attachLast (.floating w) c).core =
      s.core.refloat w c := by
  have hcore : (unpark (containerDetach s c) c).core =
      (s.core.detach c).unparkMinimized c := by
    rw [core_unpark, core_containerDetach]
  have htree : (unpark (containerDetach s c) c).tree = s.tree.detach c := by
    have h := congrArg Core.tree hcore
    rw [core_tree] at h
    rw [h]
    unfold Core.unparkMinimized
    split <;> rfl
  have hws : ((unpark (containerDetach s c) c).tree.con c).workspace = none := by
    rw [htree]
    exact Tree.detach_workspace_self s.tree c
  have hskip : detachIfPlaced (unpark (containerDetach s c) c) c = unpark (containerDetach s c) c := by
    unfold detachIfPlaced
    rw [hws]
    rfl
  rw [hskip, core_attachLast_floating, hcore]
  have htree' := congrArg Core.tree hcore
  rw [core_tree] at htree'
  rw [htree']
  rfl

section Functions

variable {fo : FocusOps} (h : FocusThins fo)

/-! ## Fullscreen -/

theorem core_clearFullscreenPointer (s : State) (c : ConId) :
    (clearFullscreenPointer s c).core = s.core := by
  unfold clearFullscreenPointer
  split
  · split
    · rfl
    · dsimp only
      split
      · rw [core_containerFloatingMoveToCenter]; rfl
      · rfl
  · rfl

@[simp] theorem core_leaveFullscreen (s : State) (c : ConId) :
    (leaveFullscreen s c).core = s.core := by
  unfold leaveFullscreen
  dsimp only
  rw [core_setMode]
  split <;> split <;> simp [core_clearFullscreenPointer]

include h

theorem thins_containerFullscreenDisable (s : State) (c : ConId) :
    Thins Nobody Nobody s.core (containerFullscreenDisable fo s c).core := by
  unfold containerFullscreenDisable
  split
  · exact Thins.refl _
  · dsimp only
    split
    · refine (Thins.of_eq (core_leaveFullscreen s c)).trans (Thins.foldl ?_ _ _)
      intro t k
      unfold refocusScratchpad
      split
      · split
        · exact h.setFocus t k _
        · exact Thins.refl _
      · exact Thins.refl _
    · exact Thins.of_eq (core_leaveFullscreen s c)

theorem thins_disableFullscreenGlobal (s : State) :
    Thins Nobody Nobody s.core (disableFullscreenGlobal fo s).core := by
  unfold disableFullscreenGlobal
  split
  · exact thins_containerFullscreenDisable h s _
  · exact Thins.refl _

theorem thins_disableWsFullscreen (s : State) (w : WsId) :
    Thins Nobody Nobody s.core (disableWsFullscreen fo s w).core := by
  unfold disableWsFullscreen
  split
  · exact thins_containerFullscreenDisable h s _
  · exact Thins.refl _

theorem thins_reparentFullscreenGlobal (s : State) (fs : ConId) :
    Thins Nobody Nobody s.core (reparentFullscreenGlobal fo s fs).core := by
  unfold reparentFullscreenGlobal
  split
  · exact Thins.refl _
  · refine (thins_disableFullscreenGlobal h s).trans ?_
    exact thins_arrangeRoot ((disableFullscreenGlobal fo s).setFullscreenGlobal (some fs))

theorem thins_reparentFullscreenWorkspace (s : State) (fs : ConId) :
    Thins Nobody Nobody s.core (reparentFullscreenWorkspace fo s fs).core := by
  unfold reparentFullscreenWorkspace
  split
  next => exact Thins.refl _
  next w _ =>
    split
    · exact Thins.refl _
    · have hdisable := thins_disableWsFullscreen h s w
      dsimp only
      split
      · exact hdisable
      next v _ =>
        refine hdisable.trans ?_
        exact thins_arrangeWorkspace
          ((disableWsFullscreen fo s w).setWsFullscreen v (some fs)) v

theorem thins_containerHandleFullscreenReparent (s : State) (c : ConId) :
    Thins Nobody Nobody s.core (containerHandleFullscreenReparent fo s c).core := by
  unfold containerHandleFullscreenReparent
  split
  · exact thins_reparentFullscreenGlobal h s _
  · split
    · exact thins_reparentFullscreenWorkspace h s _
    · exact Thins.refl _

theorem thins_containerFullscreenWorkspace (s : State) (c : ConId) :
    Thins Nobody Nobody s.core (containerFullscreenWorkspace fo s c).core := by
  unfold containerFullscreenWorkspace
  split
  · exact Thins.refl _
  · dsimp only
    split
    next => exact Thins.refl _
    next w _ =>
      have hseat : ∀ t k, Thins Nobody Nobody t.core (focusFullscreen fo c t k).core := ?_
      · have hfold := Thins.foldl hseat s.seats
          ((saveBox (s.setMode c .workspace) c).setWsFullscreen w (some c))
        exact hfold
      intro t k
      unfold focusFullscreen
      split
      · exact h.setFocus t k _
      · dsimp only
        split <;> exact Thins.refl _

theorem thins_containerFullscreenGlobal (s : State) (c : ConId) :
    Thins Nobody Nobody s.core (containerFullscreenGlobal fo s c).core := by
  unfold containerFullscreenGlobal
  split
  · exact Thins.refl _
  · dsimp only
    rw [core_setMode]
    have hseat : ∀ t k, Thins Nobody Nobody t.core (focusGlobal fo c t k).core := ?_
    · have hfold := Thins.foldl hseat s.seats (saveBox (s.setFullscreenGlobal (some c)) c)
      exact hfold
    intro t k
    unfold focusGlobal
    split
    · split
      · exact h.setFocus t k _
      · exact Thins.refl _
    · exact Thins.refl _

theorem thins_containerSetFullscreen (s : State) (c : ConId) (mode : FullscreenMode) :
    Thins Nobody Nobody s.core (containerSetFullscreen fo s c mode).core := by
  unfold containerSetFullscreen
  split
  · exact Thins.refl _
  · cases mode with
    | none => exact thins_containerFullscreenDisable h s c
    | workspace =>
        have h₁ := thins_disableFullscreenGlobal h s
        refine h₁.trans (Thins.trans ?_ (thins_containerFullscreenWorkspace h _ c))
        split
        · exact thins_disableWsFullscreen h _ _
        · exact Thins.refl _
    | global =>
        have h₁ := thins_disableFullscreenGlobal h s
        refine h₁.trans (Thins.trans ?_ (thins_containerFullscreenGlobal h _ c))
        split
        · exact thins_containerFullscreenDisable h _ c
        · exact Thins.refl _

/-! ## The destroy signal -/

omit h in
theorem core_setFocusInactive (s : State) (k : SeatId) (next : Node) :
    (setFocusInactive s k next).core = s.core := by
  unfold setFocusInactive
  dsimp only
  split
  · rfl
  · rw [core_seatSetRawFocus]
    split
    · split <;> rfl
    · rfl

theorem thins_handleSeatWorkspaceDestroy (s : State) (k : SeatId) (w : WsId) :
    Thins Nobody Nobody s.core (handleSeatWorkspaceDestroy fo s k w).core := by
  unfold handleSeatWorkspaceDestroy
  dsimp only
  split
  · have hnone := h.setFocusRaw (seatNodeDestroy s k (.workspace w)) k none
    split
    · exact hnone.trans (h.setFocusRaw _ k _)
    · exact hnone
  · exact Thins.refl _

theorem thins_takeFocus (s : State) (k : SeatId) (c : ConId) (next : Node) :
    Thins Nobody Nobody s.core (takeFocus fo s k c next).core := by
  unfold takeFocus
  dsimp only
  split
  · have hnone := h.setFocus s k none
    split
    · exact hnone
    · exact hnone.trans (h.setFocusRaw _ k _)
  · split
    · exact Thins.refl _
    · exact h.setFocusRaw s k _

theorem thins_findNewFocus (s : State) (k : SeatId) (c : ConId) (parents : List Node)
    (needsNew : Bool) :
    Thins Nobody Nobody s.core (findNewFocus fo s k c parents needsNew).core := by
  unfold findNewFocus
  split
  · exact Thins.refl _
  · split
    · exact Thins.refl _
    · split
      · exact thins_takeFocus h s k c _
      · exact Thins.of_eq (core_setFocusInactive s k _)

theorem thins_handleSeatContainerDestroy (s : State) (k : SeatId) (c : ConId) :
    Thins Nobody Nobody s.core (handleSeatContainerDestroy fo s k c).core := by
  unfold handleSeatContainerDestroy
  dsimp only
  split
  · exact Thins.refl _
  · exact thins_findNewFocus h (seatNodeDestroy s k (.container c)) k c _ _

theorem thins_handleSeatNodeDestroy (node : Node) (s : State) (k : SeatId) :
    Thins Nobody Nobody s.core (handleSeatNodeDestroy fo node s k).core := by
  unfold handleSeatNodeDestroy
  split
  · cases node with
    | root => exact Thins.refl _
    | output o => exact Thins.refl _
    | workspace w => exact thins_handleSeatWorkspaceDestroy h s k w
    | container c => exact thins_handleSeatContainerDestroy h s k c
  · exact Thins.refl _

theorem thins_emitNodeDestroy (s : State) (node : Node) :
    Thins Nobody Nobody s.core (emitNodeDestroy fo s node).core :=
  Thins.foldl (thins_handleSeatNodeDestroy h node) _ _

/-! ## Workspaces -/

omit h in
/-- What `workspace_consider_destroy` does not keep has no windows. -/
theorem empty_of_not_kept {s : State} {w : WsId} (hk : workspaceKept s w = false) :
    (s.tree.ws w).tiling = [] ∧ (s.tree.ws w).floating = [] ∧ s.pool.pool w = [] := by
  simp only [workspaceKept, Bool.or_eq_false_iff, Bool.not_eq_false', List.isEmpty_iff] at hk
  exact ⟨hk.1.1.1.1, hk.1.1.1.2, hk.1.1.2⟩

omit h in
theorem core_workspaceBeginDestroy (s : State) (w : WsId) :
    (workspaceBeginDestroy fo s w).core = (emitNodeDestroy fo s (.workspace w)).core.endWorkspace w :=
  rfl

theorem thins_workspaceConsiderDestroy (s : State) (w : WsId) :
    Thins Nobody Nobody s.core (workspaceConsiderDestroy fo s w).core := by
  unfold workspaceConsiderDestroy
  split
  next => exact Thins.refl _
  next hk =>
    obtain ⟨ht, -, hp⟩ := empty_of_not_kept (Bool.not_eq_true _ ▸ hk)
    have hemit := thins_emitNodeDestroy h s (.workspace w)
    rw [core_workspaceBeginDestroy]
    refine hemit.trans (Thins.single (Thin.endWorkspace w ?_ ?_))
    · have hsub := hemit.items_sublist (r := .tiling w) (fun v => by simp)
      exact List.sublist_nil.mp (ht ▸ hsub)
    · exact List.sublist_nil.mp (hp ▸ hemit.pool_sublist w)

theorem thins_considerDestroy (s : State) (w : Option WsId) :
    Thins Nobody Nobody s.core (considerDestroy fo s w).core := by
  cases w with
  | none => exact Thins.refl _
  | some w => exact thins_workspaceConsiderDestroy h s w

/-! ## The focus -/

/-- A floating container that is detached and put on another workspace. -/
theorem thins_refloat (s : State) (v w : WsId) (c : ConId) (hc : c ∈ (s.tree.ws v).floating) :
    Thins Nobody Nobody s.core (workspaceAddFloating fo (containerDetach s c) w c).core := by
  refine (Thins.single (Thin.refloat v w c hc)).trans ?_
  rw [← core_refloat]
  exact thins_containerHandleFullscreenReparent h _ c

theorem thins_moveSticky (last new : WsId) (n i : Nat) (s : State) :
    Thins Nobody Nobody s.core (moveSticky fo last new n i s).core := by
  induction n generalizing i s with
  | zero => exact Thins.refl _
  | succ n ih =>
      rw [moveSticky]
      split
      next => exact Thins.refl _
      next c hc =>
        split
        · exact (thins_refloat h s last new c (List.mem_of_getElem? hc)).trans (ih i _)
        · exact ih (i + 1) s

theorem thins_leaveWorkspace (s : State) (last new : Option WsId) :
    Thins Nobody Nobody s.core (leaveWorkspace fo s last new).core := by
  unfold leaveWorkspace
  dsimp only
  split
  · split
    · exact (thins_moveSticky h _ _ _ _ s).trans (thins_considerDestroy h _ _)
    · exact thins_considerDestroy h s _
  · exact thins_considerDestroy h s _

omit h in
theorem thins_settleFocus (s : State) (last new : Option WsId) :
    Thins Nobody Nobody s.core (settleFocus s last new).core :=
  settleFocus_keeps (R := fun t u => Thins Nobody Nobody t.core u.core)
    (fun t => Thins.refl t.core) Thins.trans thins_arrangeWorkspace
    (fun t l => Thins.of_eq (core_modWsGeo_of_extent t l _ rfl))
    (fun t n => Thins.of_eq (core_workspaceUpdateFocusedColumnIdx t n)) s last new

omit h in
theorem core_pushFocus (s : State) (k : SeatId) (node : Node) :
    (pushFocus s k node).core = s.core := by
  unfold pushFocus
  have hpar : ∀ l : List ConId,
      (l.foldl (fun s p => seatSetRawFocus s k (.container p)) s).core = s.core := by
    intro l
    refine core_foldl _ ?_ l s
    intro t p
    rfl
  cases node with
  | container c =>
      dsimp only
      rw [core_seatSetRawFocus]
      split
      · rw [core_seatSetRawFocus, hpar]
      · rw [hpar]
  | root => rfl
  | output o => rfl
  | workspace w => rfl

theorem thins_changeFocus (s : State) (k : SeatId) (node : Node) :
    Thins Nobody Nobody s.core (changeFocus fo s k node).core := by
  unfold changeFocus
  dsimp only
  refine Thins.trans ?_ (thins_settleFocus _ _ _)
  rw [core_modSeat]
  refine Thins.trans (Thins.of_eq ?_) (thins_leaveWorkspace h _ _ _)
  rw [core_modSeat, core_pushFocus]

theorem thins_seatSetWorkspaceFocus (s : State) (k : SeatId) (node : Option Node) :
    Thins Nobody Nobody s.core (seatSetWorkspaceFocus fo s k node).core := by
  unfold seatSetWorkspaceFocus
  split
  · exact Thins.refl _
  · split
    · exact Thins.refl _
    · split
      · exact Thins.refl _
      · exact thins_changeFocus h s k _

theorem thins_unfocusLayer (s : State) (k : SeatId) :
    Thins Nobody Nobody s.core (unfocusLayer fo s k).core := by
  unfold unfocusLayer
  split
  · dsimp only
    split
    · have hnone := h.setFocus (s.modSeat k fun e => { e with focusedLayer := none }) k none
      exact hnone.trans (h.setFocus _ k _)
    · exact Thins.refl _
  · exact Thins.refl _

omit h in
theorem core_focusLayer (s : State) (k : SeatId) (layer : Layer) :
    (focusLayer s k layer).core = s.core := by
  unfold focusLayer
  dsimp only
  repeat' split
  all_goals rfl

theorem thins_setFocusUnderLayer (s : State) (k : SeatId) (node : Option Node) :
    Thins Nobody Nobody s.core (setFocusUnderLayer fo s k node).core := by
  have hfocus := (thins_unfocusLayer h s k).trans (thins_seatSetWorkspaceFocus h _ k node)
  unfold setFocusUnderLayer
  split
  · dsimp only
    split
    · rw [core_focusLayer]; exact hfocus
    · exact hfocus.trans (thins_unfocusLayer h _ k)
  · exact hfocus

theorem thins_seatSetFocusRaw (s : State) (k : SeatId) (node : Option Node) :
    Thins Nobody Nobody s.core (seatSetFocusRaw fo s k node).core := by
  have hfocus := thins_setFocusUnderLayer h s k node
  unfold seatSetFocusRaw
  dsimp only
  split
  · split
    · rw [core_workspaceUpdateFocusedColumnIdx]; exact hfocus
    · exact hfocus
  · exact hfocus

theorem thins_inputManagerSetFocus (s : State) (node : Node) :
    Thins Nobody Nobody s.core (inputManagerSetFocus fo s node).core :=
  Thins.foldl (fun t k => h.setFocus t k _) _ _

/-! ## Destroying -/

omit h in
theorem core_leaveScratchpad (s : State) (c : ConId) :
    (leaveScratchpad s c).core =
      if (s.tree.con c).scratchpad then s.core.unscratch c else s.core := by
  unfold leaveScratchpad rootScratchpadRemoveContainer
  split <;> rfl

theorem thins_endFullscreen (s : State) (c : ConId) :
    Thins Nobody Nobody s.core (endFullscreen fo s c).core := by
  have hdisable : ∀ t : State, t.core = s.core →
      Thins Nobody Nobody s.core
        (if (t.tree.con c).scratchpad ∧ t.full.mode c = .global then containerFullscreenDisable fo t c
          else t).core := by
    intro t ht
    split
    · exact (Thins.of_eq ht).trans (thins_containerFullscreenDisable h t c)
    · exact Thins.of_eq ht
  unfold endFullscreen
  refine hdisable _ ?_
  split
  · split <;> rfl
  · rfl

/-- The part of `container_begin_destroy` before the container leaves its list. -/
def beforeDetach (fo : FocusOps) (s : State) (c : ConId) : State :=
  let s := emitNodeDestroy fo (endFullscreen fo s c) (.container c)
  let s := unpark (leaveScratchpad (markDestroying s c) c) c
  if s.full.mode c = .global then containerFullscreenDisable fo s c else s

omit h in
theorem containerBeginDestroy_eq (s : State) (c : ConId) :
    containerBeginDestroy fo s c =
      let s := beforeDetach fo s c
      if (s.tree.con c).parent.isSome ∨ (s.tree.con c).workspace.isSome then containerDetach s c
      else s := rfl

theorem thins_beforeDetach (s : State) (c : ConId) :
    Thins (· = c) Nobody s.core (beforeDetach fo s c).core := by
  have hend := thins_endFullscreen h s c
  have hemit := thins_emitNodeDestroy h (endFullscreen fo s c) (.container c)
  have hscratch : ∀ t : State, Thins (· = c) Nobody t.core (leaveScratchpad t c).core := by
    intro t
    rw [core_leaveScratchpad]
    split
    · exact Thins.single (Thin.unscratch _ rfl)
    · exact Thins.refl _
  have hunpark : ∀ t : State, Thins (· = c) Nobody t.core (unpark t c).core := by
    intro t
    rw [core_unpark]
    unfold Core.unparkMinimized
    split
    · exact Thins.single (Thin.unpark _ c)
    · exact Thins.refl _
  have hkill : ∀ t : State, Thins (· = c) Nobody t.core (markDestroying t c).core :=
    fun t => Thins.single (Thin.kill _ rfl)
  unfold beforeDetach
  have hchain := ((hend.trans hemit).of_nobody.trans (hkill _)).trans
    ((hscratch (markDestroying _ c)).trans (hunpark _))
  dsimp only
  split
  · exact hchain.trans (thins_containerFullscreenDisable h _ c).of_nobody
  · exact hchain

/-- `container_begin_destroy` marks and detaches its container. -/
theorem thins_containerBeginDestroy (s : State) (c : ConId) :
    Thins (· = c) (· = c) s.core (containerBeginDestroy fo s c).core := by
  have hbefore : Thins (· = c) (· = c) s.core (beforeDetach fo s c).core :=
    (thins_beforeDetach h s c).mono (fun _ hd => hd) (fun _ hd => hd.elim)
  rw [containerBeginDestroy_eq]
  dsimp only
  split
  · rw [core_containerDetach]
    exact hbefore.trans (Thins.single (Thin.detach _ rfl))
  · exact hbefore

/-- Every container. -/
def Anyone : ConId → Prop := fun _ => True

theorem thins_reapEmpty (w : Option WsId) (n : Nat) (s : State) (c : Option ConId) :
    Thins Anyone Anyone s.core (reapEmpty fo w n s c).core := by
  induction n generalizing s c with
  | zero =>
      cases c with
      | none => exact (thins_considerDestroy h s w).of_nobody
      | some c => exact Thins.refl _
  | succ n ih =>
      cases c with
      | none => exact (thins_considerDestroy h s w).of_nobody
      | some c =>
          unfold reapEmpty
          split
          · have hdestroy := (thins_containerBeginDestroy h s c).mono (fun _ _ => trivial)
              (fun _ _ => trivial)
            exact hdestroy.trans (ih _ _)
          · exact Thins.refl _

theorem thins_containerReapEmpty (s : State) (c : ConId) :
    Thins Anyone Anyone s.core (containerReapEmpty fo s c).core := by
  unfold containerReapEmpty
  split
  · exact Thins.refl _
  · exact thins_reapEmpty h _ _ s _

end Functions

/-- **The focus functions thin out**, at every nesting depth. -/
theorem focusThins_focusOps (n : Nat) : FocusThins (focusOps n) := by
  induction n with
  | zero => exact ⟨fun s _ _ => Thins.refl s.core, fun s _ _ => Thins.refl s.core⟩
  | succ n ih => exact ⟨thins_setFocusUnderLayer ih, thins_seatSetFocusRaw ih⟩

end Swirl
