import Swirl.Tree.Replacing
import Swirl.Tree.Shape
import Swirl.Tree.Swap

set_option autoImplicit false

/-! # The tiling operations keep the shape

One lemma for every function that puts containers into the tree. Two of them do not keep the shape
of every tree. `container_set_floating` wraps what was floating into a new column, also when that
is a column already; and `container_flatten` puts the window of a column in the place of the
column, which in a row is the place of a column.
-/

namespace Swirl

/-- Writing a list twice. -/
theorem Tree.modList_modList (t : Tree) (r : Tree.ListRef) (f g : List ConId → List ConId) :
    (t.modList r f).modList r g = t.modList r fun l => g (f l) := by
  cases r <;> simp [Tree.modList, Tree.modWs, Tree.modCon]

section Rows

variable {fo : FocusOps} (h : FocusThins fo) {s : State} {t : Tree} {c d p : ConId} {w : WsId}

/-! ## Into the row -/

theorem reshaped_clearParent (hs : s.tree.Shaped) (c : ConId) :
    Tree.Reshaped s.tree (clearParent s c).tree :=
  hs.modCon c (f := fun k => { k with parent := none }) rfl rfl fun _ hp => by cases hp

include h

theorem reshaped_leaveOldPlace (hs : s.tree.Shaped) (c : ConId) :
    Tree.Reshaped s.tree (leaveOldPlace fo s c).tree := by
  unfold leaveOldPlace
  split
  · have hout := reshaped_containerDetach hs c
    dsimp only
    split
    · exact hout.thins (thins_containerReapEmpty h _ _)
    · exact hout
  · exact Tree.Reshaped.refl hs

theorem reshaped_addColumn (hs : s.tree.Shaped) (hc : c < s.tree.nextCon) (w : WsId) :
    Tree.Reshaped s.tree (addColumn fo s w c).tree := by
  unfold addColumn
  dsimp only
  split
  next hv =>
    have hnew := newColumn_workspaceCreateNewColumnAt h hs hc hv w (-1)
    have hput := reshaped_workspaceInsertTilingDirect h hnew.shaped hnew.isUsed hnew.isColumn w
      (addTilingIndex (workspaceCreateNewColumnAt fo s w c (-1)) w (focusedColumnIndex s w))
    exact (hnew.toReshaped.trans hput).geometry (onlyGeometry_workspaceFitNewColumn _ w _ _)
  next hv =>
    have hcolumn : (s.tree.con c).view = none := Option.not_isSome_iff_eq_none.mp hv
    have hfree := reshaped_clearParent hs c
    exact hfree.trans (reshaped_workspaceInsertTilingDirect h hfree.shaped (hfree.lt hc)
      (hfree.column hc hcolumn) w _)

/-- `workspace_add_tiling` keeps the shape: a window gets a column. -/
theorem reshaped_workspaceAddTiling (hs : s.tree.Shaped) (hc : c < s.tree.nextCon) (w : WsId) :
    Tree.Reshaped s.tree (workspaceAddTiling fo s w c).tree := by
  have hpool := reshaped_unpark hs c
  have hout := hpool.trans (reshaped_leaveOldPlace h hpool.shaped c)
  have hadd := hout.trans (reshaped_addColumn h hout.shaped (hout.lt hc) w)
  exact hadd.trans (reshaped_workspaceFixOverflow h hadd.shaped w)

theorem newColumn_wrapView (hs : s.tree.Shaped) (hc : c < s.tree.nextCon)
    (hv : (s.tree.con c).view.isSome) (w : WsId) :
    Tree.NewColumn s.tree (wrapView fo s w c).tree := by
  have hnew := newColumn_createColumn hs none
  have hadd := hnew.then (reshaped_containerAddChild h hnew.shaped (hnew.lt hc)
    (hnew.window hc hv) hnew.isColumn hnew.isUsed)
  exact hadd

/-- `workspace_insert_tiling` keeps the shape: a window is wrapped. -/
theorem reshaped_workspaceInsertTiling (hs : s.tree.Shaped) (hc : c < s.tree.nextCon) (w : WsId)
    (i : Int) : Tree.Reshaped s.tree (workspaceInsertTiling fo s w c i).tree := by
  have hout := reshaped_detachIfPlaced hs c
  unfold workspaceInsertTiling
  dsimp only
  split
  next hv =>
    have hnew := newColumn_wrapView h hout.shaped (hout.lt hc) hv w
    have hput := hnew.then (reshaped_workspaceInsertTilingDirect h hnew.shaped hnew.isUsed
      hnew.isColumn w i)
    exact (hout.trans hput.toReshaped).geometry (onlyGeometry_workspaceFitNewColumn _ w _ i)
  next hv =>
    have hcolumn := Option.not_isSome_iff_eq_none.mp hv
    have hput := hout.trans (reshaped_workspaceInsertTilingDirect h hout.shaped (hout.lt hc)
      hcolumn w i)
    exact hput.geometry (onlyGeometry_workspaceFitNewColumn _ w c i)

/-- A column moves within a row or comes into it. -/
theorem reshaped_placeInRow (hs : s.tree.Shaped) (hc : c < s.tree.nextCon)
    (hv : (s.tree.con c).view = none) (w : WsId) (i : Int) :
    Tree.Reshaped s.tree (placeInRow fo s w c i).tree := by
  unfold placeInRow
  dsimp only
  split
  · exact Tree.Reshaped.refl hs
  · have hdel : Tree.Reshaped s.tree (s.modTree fun t => t.modList (.tiling w) fun l =>
        listDel l (listFind (s.tree.ws w).tiling c)).tree :=
      (Tree.Reshaped.refl hs).modList fun d hd => by
        rw [show s.tree.items (.tiling w) = (s.tree.ws w).tiling from rfl, listDel_listFind] at hd
        exact List.mem_of_mem_erase hd
    refine Tree.Reshaped.thins ?_ (thins_containerHandleFullscreenReparent h _ c)
    have hput : ∀ i : Int, Tree.Reshaped s.tree ((s.modTree fun t => t.modList (.tiling w) fun l =>
        listDel l (listFind (s.tree.ws w).tiling c)).attach (.tiling w) i c).tree :=
      fun i => hdel.attach i (hdel.lt hc) (hdel.column hc hv)
    exact (hput _).trans (reshaped_clearParent (hput _).shaped c)

theorem reshaped_leaveParent (hs : s.tree.Shaped) (c : ConId) :
    Tree.Reshaped s.tree (leaveParent fo s c).tree := by
  unfold leaveParent
  split
  · exact Tree.Reshaped.refl hs
  · have hout := reshaped_containerDetach hs c
    dsimp only
    split
    · exact hout.thins (thins_containerReapEmpty h _ _)
    · exact hout

/-- `workspace_insert_column` keeps the shape: a window gets a column. -/
theorem reshaped_workspaceInsertColumn (hs : s.tree.Shaped) (hc : c < s.tree.nextCon) (w : WsId)
    (i : Int) : Tree.Reshaped s.tree (workspaceInsertColumn fo s w c i).tree := by
  have hpool := reshaped_unpark hs c
  have hout := hpool.trans (reshaped_leaveParent h hpool.shaped c)
  -- a column leaves the workspace it is on, and is put into the row
  have hplace : ∀ (u v : State) (col : ConId), Tree.Reshaped s.tree u.tree →
      col < u.tree.nextCon → (u.tree.con col).view = none →
      (v = containerDetach u col ∨ v = u) →
      Tree.Reshaped s.tree (placeInRow fo v w col i).tree := by
    intro u v col hu hlt hcol hv
    have hleave : Tree.Reshaped u.tree v.tree := by
      rcases hv with rfl | rfl
      · exact reshaped_containerDetach hu.shaped col
      · exact Tree.Reshaped.refl hu.shaped
    have hboth := hu.trans hleave
    exact hboth.trans (reshaped_placeInRow h hboth.shaped (hleave.lt hlt)
      (hleave.column hlt hcol) w i)
  unfold workspaceInsertColumn
  dsimp only
  by_cases hv : ((leaveParent fo (unpark s c) c).tree.con c).view.isSome
  · rw [if_pos hv, if_pos hv]
    have hnew := newColumn_workspaceCreateNewColumnAt h hout.shaped (hout.lt hc) hv w i
    refine hplace _ _ _ (hout.trans hnew.toReshaped) hnew.isUsed hnew.isColumn ?_
    split
    · exact ite_eq_or_eq _ _ _
    · exact Or.inr rfl
  · rw [if_neg hv, if_neg hv]
    refine hplace _ _ c hout (hout.lt hc) (Option.not_isSome_iff_eq_none.mp hv) ?_
    split
    · exact ite_eq_or_eq _ _ _
    · exact Or.inr rfl

/-! ## Dropping a window -/

omit h in
/-- The reorder path writes a child list with members it had. -/
theorem reshaped_reorderWindow (hs : s.tree.Shaped) (col view target : ConId) (edge : Edge)
    (after : Bool) : Tree.Reshaped s.tree (reorderWindow s col view target edge after).tree := by
  unfold reorderWindow
  dsimp only
  split
  · exact Tree.Reshaped.refl hs
  next hboth =>
    have hview : view ∈ (s.tree.con col).children := by
      rw [not_or, not_lt] at hboth
      exact listFind_nonneg.mp hboth.1
    split
    · exact (Tree.Reshaped.refl hs).modList fun d hd => (listSwap_perm _ _ _).subset hd
    · have hdel : ∀ d ∈ listDel (s.tree.con col).children (listFind (s.tree.con col).children view),
          d ∈ (s.tree.con col).children := by
        intro d hd
        rw [listDel_listFind] at hd
        exact List.mem_of_mem_erase hd
      split
      · -- the window is put back into the list it was taken from
        rw [tree_listInsertAt, State.tree_modTree, Tree.modList_modList]
        refine hs.modList fun d hd => ?_
        rcases mem_of_mem_listInsert hd with rfl | hd
        · exact hview
        · exact hdel d hd
      · exact (Tree.Reshaped.refl hs).modList hdel

omit h in
/-- A window goes into a column. -/
theorem reshaped_insertIntoColumn {col : ConId} (hs : s.tree.Shaped) (hc : c < s.tree.nextCon)
    (hv : (s.tree.con c).view.isSome) (hlt : col < s.tree.nextCon)
    (hcol : (s.tree.con col).view = none) (target : ConId) (after : Bool) :
    Tree.Reshaped s.tree (insertIntoColumn s col c target after).tree := by
  have hput : ∀ i : Int, Tree.Reshaped s.tree (s.attach (.children col) i c).tree :=
    fun i => (Tree.Reshaped.refl hs).attach i hc ⟨hv, hcol, hlt⟩
  exact (hput _).geometry (onlyGeometry_containerFitVerticalChildren _ (some col) c)

/-- `workspace_insert_window` keeps the shape when a window is dropped on a column or a window of
one. -/
theorem reshaped_workspaceInsertWindow {view target : ConId} (hs : s.tree.Shaped)
    (hc : view < s.tree.nextCon) (hv : (s.tree.con view).view.isSome)
    (htarget : target < s.tree.nextCon)
    (hcol : (s.tree.con (containerToplevelAncestor s.tree target)).view = none) (w : WsId)
    (edge : Edge) (after : Bool) :
    Tree.Reshaped s.tree (workspaceInsertWindow fo s w view target edge after).tree := by
  have hlt := hs.toplevel_lt htarget
  unfold workspaceInsertWindow
  dsimp only
  split
  · exact Tree.Reshaped.refl hs
  · split
    · exact reshaped_reorderWindow hs _ view target edge after
    · split
      · exact reshaped_workspaceInsertColumn h hs (hs.toplevel_lt hc) w _
      · have hout := reshaped_containerDetach hs view
        have hreap : ∀ u : State, Tree.Reshaped s.tree u.tree →
            Tree.Reshaped s.tree (reapOldParent fo u (s.tree.con view).parent).tree := by
          intro u hu
          unfold reapOldParent
          split
          · split
            · exact hu.thins (thins_containerReapEmpty h u _)
            · exact hu
          · exact hu
        refine hreap _ ?_
        split
        · exact hout.trans (reshaped_insertIntoColumn hout.shaped (hout.lt hc) (hout.window hc hv)
            (hout.lt hlt) (hout.column hlt hcol) target after)
        · exact hout.trans (reshaped_workspaceInsertColumn h hout.shaped (hout.lt hc) w _)

/-! ## Floating and back -/

theorem reshaped_leaveFloatingParent (hs : s.tree.Shaped) (c p : ConId) (b : Bool) :
    Tree.Reshaped s.tree (leaveFloatingParent fo s c p b).tree := by
  have hfocus : (if b then
      seatSetRawFocus (seatSetRawFocus s s.currentSeat (.container p)) s.currentSeat (.container c)
      else s).tree = s.tree := by
    split <;> rfl
  have hreap := (thins_containerReapEmpty h (if b then
    seatSetRawFocus (seatSetRawFocus s s.currentSeat (.container p)) s.currentSeat (.container c)
    else s) p).reshaped (hfocus.symm ▸ hs)
  rw [hfocus] at hreap
  exact hreap

theorem reshaped_floatContainer (hs : s.tree.Shaped) (hc : c < s.tree.nextCon) (w : WsId) :
    Tree.Reshaped s.tree (floatContainer fo s w c).tree := by
  have hout := reshaped_containerDetach hs c
  have hadd := hout.trans (reshaped_workspaceAddFloating h hout.shaped (hout.lt hc) w)
  obtain ⟨u, hu, hcases⟩ := @floatContainer_cases fo s w c
  rw [← hu] at hadd
  rcases hcases with ⟨-, htree⟩ | ⟨p, b, -, htree⟩
  · rw [htree]
    exact hadd
  · rw [htree]
    exact hadd.trans (reshaped_leaveFloatingParent h hadd.shaped c p b)

omit h in
theorem tree_decorateTiled (s : State) (c : ConId) : (decorateTiled s c).tree = s.tree := by
  unfold decorateTiled
  split
  · split <;> rfl
  · rfl

/-- A window that was floating gets a column. -/
theorem reshaped_unfloatContainer (hs : s.tree.Shaped) (hc : c < s.tree.nextCon)
    (hv : (s.tree.con c).view.isSome) (w : WsId) :
    Tree.Reshaped s.tree (unfloatContainer fo s w c).tree := by
  have hscratch : Tree.Reshaped s.tree (leaveScratchpad s c).tree := by
    unfold leaveScratchpad
    split
    · exact (thins_rootScratchpadRemoveContainer s c).reshaped hs
    · exact Tree.Reshaped.refl hs
  have hout := hscratch.trans (reshaped_containerDetach hscratch.shaped c)
  have hnew := newColumn_createColumn hout.shaped (some w)
  have hadd := hnew.then (reshaped_containerAddChild h hnew.shaped (hnew.lt (hout.lt hc))
    (hnew.window (hout.lt hc) (hout.window hc hv)) hnew.isColumn hnew.isUsed)
  unfold unfloatContainer
  dsimp only
  set s₁ := containerDetach (leaveScratchpad s c) c with hs₁
  set s₂ := containerAddChild fo (createColumn s₁ (some w)) s₁.tree.nextCon c with hs₂
  have hsized : ∀ (u : State) (i : Int), u.tree = s₂.tree → Tree.NewColumn s₁.tree (decorateTiled
      (if (u.tree.ws w).tiling ≠ [] then workspaceFitNewColumn u w s₁.tree.nextCon i
        else u) c).tree := by
    intro u i hu
    have hcol : Tree.NewColumn s₁.tree u.tree := hu.symm ▸ hadd
    rw [tree_decorateTiled]
    split
    · exact hcol.then ((onlyGeometry_workspaceFitNewColumn _ w _ i).reshaped hcol.shaped)
    · exact hcol
  have hput : ∀ (u : State) (i : Int), Tree.NewColumn s₁.tree u.tree → Tree.Reshaped s.tree
      (workspaceInsertTilingDirect fo u w s₁.tree.nextCon i).tree := by
    intro u i hu
    exact hout.trans (hu.then (reshaped_workspaceInsertTilingDirect h hu.shaped hu.isUsed
      hu.isColumn w i)).toReshaped
  exact hput _ _ (hsized _ _ rfl)

/-- `container_set_floating` keeps the shape when what stops floating is a window. -/
theorem reshaped_containerSetFloating (hs : s.tree.Shaped) (hc : c < s.tree.nextCon)
    {enable : Bool} (hv : enable = false → containerIsFloating s.tree c = true →
      (s.tree.con c).workspace.isSome → (s.tree.con c).view.isSome) :
    Tree.Reshaped s.tree (containerSetFloating fo s c enable).tree := by
  unfold containerSetFloating
  split
  · exact Tree.Reshaped.refl hs
  next hmode =>
    split
    · exact Tree.Reshaped.refl hs
    next w hw =>
      cases enable with
      | true => exact reshaped_floatContainer h hs hc w
      | false =>
          have hfloating : containerIsFloating s.tree c = true := by simpa using hmode
          exact reshaped_unfloatContainer h hs hc (hv rfl hfloating (by rw [hw]; rfl)) w

/-! ## The scratchpad -/

omit h in
theorem reshaped_leaveShown (hs : s.tree.Shaped) (c : ConId) :
    Tree.Reshaped s.tree (leaveShown s c).tree := by
  unfold leaveShown
  split
  · have hout := reshaped_containerDetach hs c
    dsimp only
    split
    · exact hout
    · exact hout
  · exact Tree.Reshaped.refl hs

omit h in
theorem Tree.Reshaped.raise (hm : Tree.Reshaped t s.tree) (c : ConId) :
    Tree.Reshaped t (containerRaiseFloating s c).tree := by
  rcases tree_containerRaiseFloating s c with heq | ⟨w, e, heq⟩
  · rw [heq]
    exact hm
  · rw [heq]
    exact hm.trans (hm.shaped.modList fun d hd => (listMoveToEnd_perm _ _).subset hd)

theorem reshaped_rootScratchpadShow (hs : s.tree.Shaped) (hc : c < s.tree.nextCon) :
    Tree.Reshaped s.tree (rootScratchpadShow fo s c).tree := by
  unfold rootScratchpadShow
  split
  · exact Tree.Reshaped.refl hs
  next w _ =>
    dsimp only
    have hfull : Tree.Reshaped s.tree
        (disableFullscreenGlobal fo (disableWsFullscreen fo s w)).tree :=
      ((thins_disableWsFullscreen h s w).trans (thins_disableFullscreenGlobal h _)).reshaped hs
    set s₁ := disableFullscreenGlobal fo (disableWsFullscreen fo s w) with hs₁
    have hshown : shownContainer s₁ c < s₁.tree.nextCon := by
      unfold shownContainer
      split
      · exact hfull.lt hc
      · exact hfull.shaped.toplevel_lt (hfull.lt hc)
    have hleave := reshaped_leaveShown hfull.shaped c
    have hadd := hleave.trans (reshaped_workspaceAddFloating h hleave.shaped (hleave.lt hshown) w)
    have hfix : Tree.Reshaped s.tree (fixShown (workspaceAddFloating fo (leaveShown s₁ c) w
        (shownContainer s₁ c)) w (shownContainer s₁ c)).tree := by
      rw [tree_fixShown]
      exact hfull.trans hadd
    have harrange := hfix.thins (thins_arrangeWorkspace (K := Nobody) (D := Nobody) _ w)
    exact Tree.Reshaped.raise
      ((harrange.thins (h.setFocus _ _ _)).thins (thins_considerDestroy h _ _)) _

theorem reshaped_rootScratchpadAddContainer (hs : s.tree.Shaped) (hc : c < s.tree.nextCon)
    (w : Option WsId) : Tree.Reshaped s.tree (rootScratchpadAddContainer fo s c w).tree := by
  unfold rootScratchpadAddContainer
  split
  next old _ _ =>
    dsimp only
    have hfull : Tree.Reshaped s.tree
        (disableFullscreen fo (setContainerTransform s old c) c).tree :=
      (Tree.Reshaped.refl hs).thins (thins_disableFullscreen h (setContainerTransform s old c) c)
    set s₁ := disableFullscreen fo (setContainerTransform s old c) c with hs₁
    have hfloat : Tree.Reshaped s.tree (if containerIsFloating s₁.tree c then s₁ else
        containerFloatingMoveToCenter
          (containerFloatingSetDefaultSize (containerSetFloating fo s₁ c true) c) c).tree := by
      split
      · exact hfull
      · rw [(onlyGeometry_containerFloatingMoveToCenter _ c).tree,
          (onlyGeometry_containerFloatingSetDefaultSize _ c).tree]
        exact hfull.trans (reshaped_containerSetFloating h hfull.shaped (hfull.lt hc)
          fun hno => by cases hno)
    have hout := hfloat.trans (reshaped_containerDetach hfloat.shaped c)
    -- the container is marked and listed as one of the scratchpad
    have hlist : ∀ u : State, u.tree.Shaped → Tree.Reshaped u.tree (u.modTree fun t =>
        { t.modCon c fun k => { k with scratchpad := true } with
          scratchpad := listAdd t.scratchpad c }).tree := by
      intro u hu
      have hmark := hu.modCon c (f := fun k => { k with scratchpad := true }) rfl rfl
        fun _ hp => hp
      exact hmark.trans (hmark.shaped.mono (fun _ => rfl) (fun r _ hd => by cases r <;> exact hd)
        (fun _ _ hp => hp) rfl)
    have hput := hout.trans (hlist _ hout.shaped)
    cases w with
    | none => exact hput.thins (thins_focusAfterScratchpad h _ old _)
    | some w => exact hput.trans (reshaped_workspaceAddFloating h hput.shaped (hput.lt hc) w)
  next => exact Tree.Reshaped.refl hs

/-! ## Swapping -/

theorem reshaped_swapInsert (hs : s.tree.Shaped) (hc : c < s.tree.nextCon) {o : Option ConId}
    (ho : ∀ p, o = some p → (s.tree.con c).view.isSome ∧ (s.tree.con p).view = none ∧
      p < s.tree.nextCon) (isFloat : Bool) (i : Int) :
    Tree.Reshaped s.tree (swapInsert fo s c o isFloat i).tree := by
  unfold swapInsert
  split
  next p =>
    obtain ⟨hv, hp, hlt⟩ := ho p rfl
    exact reshaped_containerInsertChild h hs hc hv hp hlt i
  next w _ =>
    split
    · exact reshaped_workspaceAddFloating h hs hc w
    · exact reshaped_workspaceInsertTiling h hs hc w i
  next => exact Tree.Reshaped.refl hs

/-- Two containers exchange their places when neither of them is a column that would be put below
a column. -/
theorem reshaped_swapPlaces (hs : s.tree.Shaped) (hc : c < s.tree.nextCon)
    (hd : d < s.tree.nextCon)
    (hcd : (s.tree.con d).parent.isSome → (s.tree.con c).view.isSome)
    (hdc : (s.tree.con c).parent.isSome → (s.tree.con d).view.isSome) :
    Tree.Reshaped s.tree (swapPlaces fo s c d).tree := by
  unfold swapPlaces
  dsimp only
  have hfirst : ∀ i : Int, Tree.Reshaped s.tree
      (swapInsert fo (swapBoxes s c d) c (s.tree.con d).parent
        (containerIsFloating s.tree d) i).tree := by
    intro i
    refine reshaped_swapInsert (s := swapBoxes s c d) h hs hc ?_ _ i
    intro p hp
    exact ⟨hcd (by rw [hp]; rfl), (hs.up d p hp).2⟩
  refine (hfirst _).trans (reshaped_swapInsert h (hfirst _).shaped ((hfirst _).lt hd) ?_ _ _)
  intro p hp
  obtain ⟨-, hcol, hlt⟩ := hs.up c p hp
  exact ⟨(hfirst _).window hd (hdc (by rw [hp]; rfl)), (hfirst _).column hlt hcol,
    (hfirst _).lt hlt⟩

end Rows

end Swirl
