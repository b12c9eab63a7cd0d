import Swirl.Tree.ShapeOperations

set_option autoImplicit false

/-! # The commands keep the shape

`swap`, `take`, `release`, `split none`, the minimize commands, and windows that open and close.
-/

namespace Swirl

/-! ## What comes neither into a row nor below a column -/

namespace Tree

variable {t t' t'' : Tree} {c : ConId}

/-- Rows and parents are at most lost. -/
structure Frees (t t' : Tree) : Prop where
  parent : ∀ c p, (t'.con c).parent = some p → (t.con c).parent = some p
  row : ∀ w c, c ∈ (t'.ws w).tiling → c ∈ (t.ws w).tiling

theorem Frees.refl (t : Tree) : Frees t t := ⟨fun _ _ hp => hp, fun _ _ hc => hc⟩

theorem Frees.trans (h : Frees t t') (h' : Frees t' t'') : Frees t t'' where
  parent c p hp := h.parent c p (h'.parent c p hp)
  row w c hc := h.row w c (h'.row w c hc)

theorem frees_detach (t : Tree) (c : ConId) : Frees t (t.detach c) where
  parent d p hp := by
    rw [detach_parent] at hp
    split at hp
    · cases hp
    · exact hp
  row w _ hd := (detach_items_sublist t c (.tiling w)).subset hd

theorem frees_attach_floating (t : Tree) (w : WsId) (i : Int) (c : ConId) :
    Frees t (t.attach (.floating w) i c) where
  parent d p hp := by
    rw [attach_parent] at hp
    split at hp
    next hdc =>
      subst hdc
      exact hp
    next => exact hp
  row v d hd := by
    have hitems := attach_items t (.floating w) i c (.tiling v)
    rw [if_neg (by simp)] at hitems
    have hmem : d ∈ (t.attach (.floating w) i c).items (.tiling v) := hd
    rwa [hitems] at hmem

theorem frees_modList_floating (t : Tree) (w : WsId) (f : List ConId → List ConId) :
    Frees t (t.modList (.floating w) f) where
  parent d p hp := by rwa [con_modList_parent] at hp
  row v d hd := by
    have hmem : d ∈ (t.modList (.floating w) f).items (.tiling v) := hd
    rwa [items_modList_ne t (.floating w) (.tiling v) f (by simp)] at hmem

end Tree

section Frees

variable {K D : ConId → Prop} {s s' : State} {t : Tree} {c : ConId}

theorem Thin.frees {k k' : Core} (h : Thin K D k k') : Tree.Frees k.tree k'.tree := by
  refine ⟨?_, fun w c hc => (h.items_sublist (r := .tiling w) (by simp)).subset hc⟩
  intro d p hp
  cases h with
  | refloat v w c _ =>
      rw [Core.refloat_tree] at hp
      exact ((Tree.frees_detach _ c).trans (Tree.frees_attach_floating _ w _ c)).parent d p hp
  | unpark c => exact hp
  | endWorkspace w _ _ => rwa [Core.endWorkspace_con] at hp
  | kill _ => rwa [Core.kill_parent] at hp
  | detach _ => exact (Tree.frees_detach k.tree _).parent d p hp
  | unscratch _ => rwa [Core.unscratch_parent] at hp
  | measure w single => rwa [Core.measure_tree] at hp

theorem Thins.frees (h : Thins K D s.core s'.core) : Tree.Frees s.tree s'.tree :=
  h.invariant (I := fun j => Tree.Frees s.tree j.tree) (fun _ _ ha hab => ha.trans hab.frees)
    (Tree.Frees.refl s.tree)

theorem Tree.Frees.thins (hm : Tree.Frees t s.tree) (h : Thins K D s.core s'.core) :
    Tree.Frees t s'.tree := hm.trans h.frees

theorem frees_detachIfPlaced (s : State) (c : ConId) :
    Tree.Frees s.tree (detachIfPlaced s c).tree := by
  unfold detachIfPlaced
  split
  · rw [tree_containerDetach]
    exact Tree.frees_detach s.tree c
  · exact Tree.Frees.refl s.tree

variable {fo : FocusOps} (h : FocusThins fo)

include h

theorem frees_workspaceAddFloating (s : State) (w : WsId) (c : ConId) :
    Tree.Frees s.tree (workspaceAddFloating fo s w c).tree := by
  have hout := frees_detachIfPlaced (unpark s c) c
  rw [tree_unpark] at hout
  have hput : Tree.Frees s.tree ((detachIfPlaced (unpark s c) c).attachLast (.floating w) c).tree := by
    unfold State.attachLast
    rw [tree_attach]
    exact hout.trans (Tree.frees_attach_floating _ w _ c)
  exact hput.thins (thins_containerHandleFullscreenReparent h _ c)

theorem frees_rootScratchpadShow (s : State) (c : ConId) :
    Tree.Frees s.tree (rootScratchpadShow fo s c).tree := by
  unfold rootScratchpadShow
  split
  · exact Tree.Frees.refl s.tree
  next w _ =>
    dsimp only
    have hfull : Tree.Frees s.tree (disableFullscreenGlobal fo (disableWsFullscreen fo s w)).tree :=
      ((thins_disableWsFullscreen h s w).trans (thins_disableFullscreenGlobal h _)).frees
    set s₁ := disableFullscreenGlobal fo (disableWsFullscreen fo s w) with hs₁
    have hleave : Tree.Frees s₁.tree (leaveShown s₁ c).tree := by
      unfold leaveShown
      split
      · have hout : Tree.Frees s₁.tree (containerDetach s₁ c).tree := by
          rw [tree_containerDetach]
          exact Tree.frees_detach s₁.tree c
        dsimp only
        split
        · exact hout
        · exact hout
      · exact Tree.Frees.refl s₁.tree
    have hadd := hleave.trans (frees_workspaceAddFloating h (leaveShown s₁ c) w
      (shownContainer s₁ c))
    have hfix : Tree.Frees s.tree (fixShown (workspaceAddFloating fo (leaveShown s₁ c) w
        (shownContainer s₁ c)) w (shownContainer s₁ c)).tree := by
      rw [tree_fixShown]
      exact hfull.trans hadd
    have harrange := hfix.thins (thins_arrangeWorkspace (K := Nobody) (D := Nobody) _ w)
    have hraise : ∀ (u : State) (d : ConId), Tree.Frees s.tree u.tree →
        Tree.Frees s.tree (containerRaiseFloating u d).tree := by
      intro u d hu
      rcases tree_containerRaiseFloating u d with heq | ⟨v, e, heq⟩
      · rw [heq]
        exact hu
      · rw [heq]
        exact hu.trans (Tree.frees_modList_floating _ v _)
    exact hraise _ _ ((harrange.thins (h.setFocus _ _ _)).thins (thins_considerDestroy h _ _))

end Frees

/-! ## Swapping -/

section Commands

variable {fo : FocusOps} (h : FocusThins fo) {s : State} {t : Tree} {c d p : ConId} {w : WsId}

include h

theorem reshaped_unscratchForSwap (hs : s.tree.Shaped) (hc : c < s.tree.nextCon)
    (scratch hidden : Bool) :
    Tree.Reshaped s.tree (unscratchForSwap fo s c scratch hidden).tree ∧
      Tree.Frees s.tree (unscratchForSwap fo s c scratch hidden).tree := by
  have hshow : Tree.Reshaped s.tree (if hidden then rootScratchpadShow fo s c else s).tree ∧
      Tree.Frees s.tree (if hidden then rootScratchpadShow fo s c else s).tree := by
    split
    · exact ⟨reshaped_rootScratchpadShow h hs hc, frees_rootScratchpadShow h s c⟩
    · exact ⟨Tree.Reshaped.refl hs, Tree.Frees.refl s.tree⟩
  unfold unscratchForSwap
  split
  · exact ⟨hshow.1.thins (thins_rootScratchpadRemoveContainer _ c),
      hshow.2.thins (thins_rootScratchpadRemoveContainer _ c)⟩
  · exact ⟨Tree.Reshaped.refl hs, Tree.Frees.refl s.tree⟩

theorem thins_swapFocusTo (s : State) (f g : ConId) :
    Thins Nobody Nobody s.core (swapFocusTo fo s f g).core := by
  have hshow : ∀ visible : Bool, Thins Nobody Nobody s.core
      (if visible then fo.setFocus s s.currentSeat (some (.container g)) else s).core := by
    intro visible
    split
    · exact h.setFocus _ _ _
    · exact Thins.refl _
  unfold swapFocusTo
  dsimp only
  split
  · exact (hshow _).trans (h.setFocus _ _ _)
  · exact h.setFocus _ _ _

theorem thins_swapFocus (s : State) (c d : ConId) (focus : Option ConId) :
    Thins Nobody Nobody s.core (swapFocus fo s c d focus).core := by
  have hto : Thins Nobody Nobody s.core
      (if focus = some c then swapFocusTo fo s c d
        else if focus = some d then swapFocusTo fo s d c
        else fo.setFocus s s.currentSeat (focus.map .container)).core := by
    split
    · exact thins_swapFocusTo h s c d
    · split
      · exact thins_swapFocusTo h s d c
      · exact h.setFocus _ _ _
  unfold swapFocus
  dsimp only
  split
  · exact hto.trans (h.setFocus _ _ _)
  · exact hto

theorem thins_showAgain (s : State) (w : WsId) :
    Thins Nobody Nobody s.core (showAgain fo s w).core := by
  unfold showAgain
  split
  · exact Thins.refl _
  · exact h.setFocus _ _ _

theorem reshaped_scratchAfterSwap (hs : s.tree.Shaped) (hc : c < s.tree.nextCon)
    (scratch hidden : Bool) :
    Tree.Reshaped s.tree (scratchAfterSwap fo s c scratch hidden).tree := by
  unfold scratchAfterSwap
  split
  · have hadd := reshaped_rootScratchpadAddContainer h hs hc none
    dsimp only
    split
    · exact hadd
    · exact hadd.trans (reshaped_rootScratchpadShow h hadd.shaped (hadd.lt hc))
  · exact Tree.Reshaped.refl hs

theorem thins_fullscreenAfterSwap (s : State) (c : ConId) (mode : FullscreenMode) :
    Thins Nobody Nobody s.core (fullscreenAfterSwap fo s c mode).core := by
  unfold fullscreenAfterSwap
  split
  · exact Thins.refl _
  · exact thins_containerSetFullscreen h s c mode

/-- `container_swap` keeps the shape: it refuses to put a column below a column. -/
theorem reshaped_containerSwap (hs : s.tree.Shaped) (hc : c < s.tree.nextCon)
    (hd : d < s.tree.nextCon) : Tree.Reshaped s.tree (containerSwap fo s c d).tree := by
  unfold containerSwap
  split
  · exact Tree.Reshaped.refl hs
  · split
    · exact Tree.Reshaped.refl hs
    next hnest =>
      -- neither of the two is a column that would be put below a column
      have hkind : ∀ x y : ConId, wouldNestContainer s.tree x (s.tree.con y).parent ≠ true →
          (s.tree.con y).parent.isSome → (s.tree.con x).view.isSome := by
        intro x y hno hp
        unfold wouldNestContainer at hno
        rw [hp] at hno
        simpa [Option.isSome_iff_ne_none] using hno
      rw [not_or] at hnest
      dsimp only
      obtain ⟨hshape₁, hfree₁⟩ := reshaped_unscratchForSwap h hs hc (s.tree.con c).scratchpad
        (containerIsScratchpadHidden s.tree c)
      set s₁ := unscratchForSwap fo s c (s.tree.con c).scratchpad
        (containerIsScratchpadHidden s.tree c) with hs₁
      obtain ⟨hshape₂, hfree₂⟩ := reshaped_unscratchForSwap h hshape₁.shaped (hshape₁.lt hd)
        (s.tree.con d).scratchpad (containerIsScratchpadHidden s.tree d)
      set s₂ := unscratchForSwap fo s₁ d (s.tree.con d).scratchpad
        (containerIsScratchpadHidden s.tree d) with hs₂
      have hthins := (thins_disableFullscreen h s₂ c).trans (thins_disableFullscreen h _ d)
      set s₃ := disableFullscreen fo (disableFullscreen fo s₂ c) d with hs₃
      have hshape : Tree.Reshaped s.tree s₃.tree := (hshape₁.trans hshape₂).thins hthins
      have hfree : Tree.Frees s.tree s₃.tree := (hfree₁.trans hfree₂).thins hthins
      have hup : ∀ x y : ConId, x < s.tree.nextCon →
          wouldNestContainer s.tree x (s.tree.con y).parent ≠ true →
          (s₃.tree.con y).parent.isSome → (s₃.tree.con x).view.isSome := by
        intro x y hx hno hp
        obtain ⟨p, hp⟩ := Option.isSome_iff_exists.mp hp
        exact hshape.window hx (hkind x y hno (by rw [hfree.parent y p hp]; rfl))
      have hswap := reshaped_swapPlaces h hshape.shaped (hshape.lt hc) (hshape.lt hd)
        (hup c d hc hnest.1) (hup d c hd hnest.2)
      have hall := hshape.trans hswap
      split
      next visC visD _ _ =>
        have hseen := (hall.thins (thins_showAgain h _ visC)).thins (thins_showAgain h _ visD)
        have hfocus := hseen.thins (thins_swapFocus h _ c d
          (seatGetFocusedContainer s₃ s₃.currentSeat))
        have hscratch := hfocus.trans (reshaped_scratchAfterSwap h hfocus.shaped (hfocus.lt hd)
          (s.tree.con c).scratchpad (containerIsScratchpadHidden s.tree c))
        have hboth := hscratch.trans (reshaped_scratchAfterSwap h hscratch.shaped
          (hscratch.lt hc) (s.tree.con d).scratchpad (containerIsScratchpadHidden s.tree d))
        exact (hboth.thins (thins_fullscreenAfterSwap h _ d _)).thins
          (thins_fullscreenAfterSwap h _ c _)
      next => exact hshape

/-! ## `take` -/

theorem reshaped_takeChildren {dst src : ConId} (n : Nat) (hs : s.tree.Shaped)
    (hdst : (s.tree.con dst).view = none) (hlt : dst < s.tree.nextCon) :
    Tree.Reshaped s.tree (takeChildren fo dst src n s).tree := by
  induction n generalizing s with
  | zero => exact Tree.Reshaped.refl hs
  | succ n ih =>
      unfold takeChildren
      split
      next => exact Tree.Reshaped.refl hs
      next c l hl =>
        have hmem : c ∈ (s.tree.con src).children := hl ▸ List.mem_cons_self
        have hc := hs.used (.children src) c hmem
        have hout := reshaped_containerDetach hs c
        have hadd := hout.trans (reshaped_containerAddChild h hout.shaped (hout.lt hc)
          (hout.window hc (hs.stack src c hmem)) (hout.column hlt hdst) (hout.lt hlt))
        exact hadd.trans (ih hadd.shaped (hadd.column hlt hdst) (hadd.lt hlt))

omit h in
theorem onlyGeometry_growToDefault (w : WsId) (defaultW : ℚ) (r : State × ℚ) (c : ConId) :
    OnlyGeometry r.1 (growToDefault w defaultW r c).1 := by
  unfold growToDefault
  dsimp only
  split
  · exact OnlyGeometry.modGeo r.1 c _
  · exact OnlyGeometry.refl r.1

omit h in
theorem onlyGeometry_viewportGrowToFill (s : State) (w : WsId) (colIdx : Int) (freedWidth : ℚ) :
    OnlyGeometry s (viewportGrowToFill s w colIdx freedWidth).1 := by
  have hfold : ∀ (defaultW : ℚ) (l : List ConId) (r : State × ℚ),
      OnlyGeometry r.1 (l.foldl (growToDefault w defaultW) r).1 := by
    intro defaultW l
    induction l with
    | nil => exact fun r => OnlyGeometry.refl r.1
    | cons c l ih =>
        intro r
        exact (onlyGeometry_growToDefault w defaultW r c).trans (ih _)
  unfold viewportGrowToFill
  dsimp only
  split
  · exact OnlyGeometry.refl s
  · have hgrown := hfold (workspaceWidthFraction s w s.config.defaultColumnWidthFraction)
      ((if 1 ≤ colIdx then (s.tree.ws w).tiling[(colIdx - 1).toNat]?.toList else []) ++
        (s.tree.ws w).tiling.drop colIdx.toNat)
      (s, min (freedWidth + (s.wsGeo w).gapsInner) (s.wsGeo w).width)
    obtain ⟨r, hr⟩ : ∃ r, ((if 1 ≤ colIdx then (s.tree.ws w).tiling[(colIdx - 1).toNat]?.toList
        else []) ++ (s.tree.ws w).tiling.drop colIdx.toNat).foldl
      (growToDefault w (workspaceWidthFraction s w s.config.defaultColumnWidthFraction))
      (s, min (freedWidth + (s.wsGeo w).gapsInner) (s.wsGeo w).width) = r := ⟨_, rfl⟩
    rw [hr] at hgrown ⊢
    -- what remains is given to one column
    refine hgrown.trans ?_
    split
    · split
      · exact OnlyGeometry.modGeo _ _ _
      · exact OnlyGeometry.refl r.1
    · exact OnlyGeometry.refl r.1

omit h in
theorem onlyGeometry_viewportGrowEvenly (s : State) (w : WsId) (freedWidth : ℚ) :
    OnlyGeometry s (viewportGrowEvenly s w freedWidth) := by
  unfold viewportGrowEvenly
  dsimp only
  split
  · exact OnlyGeometry.refl s
  · exact onlyGeometry_growEach w _ _ _ s

theorem reshaped_columnRemove (hs : s.tree.Shaped) (col : ConId) (grow : Bool) :
    Tree.Reshaped s.tree (columnRemove fo s col grow).1.tree := by
  have hreap := (thins_containerReapEmpty h s col).reshaped hs
  unfold columnRemove
  split
  · exact hreap
  · dsimp only
    split
    · exact hreap.geometry (onlyGeometry_viewportGrowToFill _ _ _ _)
    · exact hreap

/-- `take` keeps the shape: the windows of one column go into another. -/
theorem reshaped_cmdTake (hs : s.tree.Shaped) (c : ConId) :
    Tree.Reshaped s.tree (cmdTake fo s c).tree := by
  unfold cmdTake
  split
  · exact Tree.Reshaped.refl hs
  · dsimp only
    split
    · exact Tree.Reshaped.refl hs
    next w _ =>
      split
      · exact Tree.Reshaped.refl hs
      next right hright =>
        set col := containerToplevelAncestor s.tree c with hcol
        have hfound : 0 ≤ listFind (s.tree.ws w).tiling col := by
          by_contra hneg
          rw [if_neg hneg] at hright
          cases hright
        rw [if_pos hfound] at hright
        have hdst : col ∈ (s.tree.ws w).tiling := listFind_nonneg.mp hfound
        have hsrc : right ∈ (s.tree.ws w).tiling := List.mem_of_getElem? hright
        have htake : takeColumn fo s col right =
            takeChildren fo col right (s.tree.con right).children.length s := by
          unfold takeColumn
          rw [hs.row w right hsrc]
          rfl
        have hmoved : Tree.Reshaped s.tree (takeColumn fo s col right).tree := by
          rw [htake]
          exact reshaped_takeChildren h (s.tree.con right).children.length hs
            (hs.row w col hdst) (hs.used (.tiling w) col hdst)
        have hgone := hmoved.trans (reshaped_columnRemove h hmoved.shaped right false)
        exact (hgone.geometry (onlyGeometry_viewportGrowEvenly _ w _)).thins
          (thins_arrangeWorkspace (K := Nobody) (D := Nobody) _ w)

/-! ## `release` -/

/-- Windows go to the front of a column, one after the other. -/
theorem reshaped_releaseChildren {newcol : ConId} (l : List ConId) (hs : s.tree.Shaped)
    (hl : ∀ c ∈ l, c < s.tree.nextCon ∧ (s.tree.con c).view.isSome)
    (hcol : (s.tree.con newcol).view = none) (hlt : newcol < s.tree.nextCon) :
    Tree.Reshaped s.tree (releaseChildren fo newcol s l).tree := by
  have hfold : ∀ (l : List ConId) (u : State), Tree.Reshaped s.tree u.tree →
      (∀ c ∈ l, c < s.tree.nextCon ∧ (s.tree.con c).view.isSome) →
      Tree.Reshaped s.tree (l.foldl
        (fun s c => containerInsertChild fo (containerDetach s c) newcol c 0) u).tree := by
    intro l
    induction l with
    | nil => exact fun u hu _ => hu
    | cons c l ih =>
        intro u hu hl
        obtain ⟨hc, hv⟩ := hl c List.mem_cons_self
        have hout := hu.trans (reshaped_containerDetach hu.shaped c)
        have hput := hout.trans (reshaped_containerInsertChild h hout.shaped (hout.lt hc)
          (hout.window hc hv) (hout.column hlt hcol) (hout.lt hlt) 0)
        exact ih _ hput fun d hd => hl d (List.mem_cons_of_mem c hd)
  exact hfold _ s (Tree.Reshaped.refl hs) fun c hc => hl c (List.mem_reverse.mp hc)

/-- `release` keeps the shape: the windows below the split go to a new column. -/
theorem reshaped_releaseFrom {col : ConId} (hs : s.tree.Shaped)
    (hparent : (s.tree.con col).parent = none) (w : WsId) (start : Nat) :
    Tree.Reshaped s.tree (releaseFrom fo s w col start).tree := by
  unfold releaseFrom
  split
  · exact Tree.Reshaped.refl hs
  next r hr =>
    dsimp only
    have hlist : ∀ p, r ≠ .children p := by
      intro p hp
      have hup := siblings_parent hr
      rw [hparent, hp] at hup
      cases hup
    have hnew := newColumn_createColumn hs (some w)
    have hfit := hnew.then ((onlyGeometry_workspaceFitNewColumn (createColumn s (some w)) w
      s.tree.nextCon (listFind (s.tree.items r) col + 1)).reshaped hnew.shaped)
    set s₁ := workspaceFitNewColumn (createColumn s (some w)) w s.tree.nextCon
      (listFind (s.tree.items r) col + 1) with hs₁
    have hmoved : ∀ c ∈ (s.tree.con col).children.drop start,
        c < s₁.tree.nextCon ∧ (s₁.tree.con c).view.isSome := by
      intro c hc
      have hmem := List.mem_of_mem_drop hc
      have hclt := hs.used (.children col) c hmem
      exact ⟨hfit.lt hclt, hfit.window hclt (hs.stack col c hmem)⟩
    have hput := hfit.then (reshaped_releaseChildren h _ hfit.shaped hmoved hfit.isColumn
      hfit.isUsed)
    set s₂ := releaseChildren fo s.tree.nextCon s₁ ((s.tree.con col).children.drop start) with hs₂
    have hholds : r.Holds s₂.tree s.tree.nextCon := by
      cases r with
      | tiling v => exact hput.isColumn
      | floating v => trivial
      | children p => exact absurd rfl (hlist p)
    have hlisted : Tree.Reshaped s.tree (clearParent (s₂.listInsertAt r
        (listFind (s.tree.items r) col + 1) s.tree.nextCon) s.tree.nextCon).tree := by
      have hins := hput.shaped.insert (listFind (s.tree.items r) col + 1) hput.isUsed hholds
      have hclear := hins.shaped.modCon s.tree.nextCon (f := fun k => { k with parent := none })
        rfl rfl fun _ hp => by cases hp
      unfold clearParent
      rw [State.tree_modTree, tree_listInsertAt]
      exact hput.toReshaped.trans (hins.trans hclear)
    refine Tree.Reshaped.thins ?_ (thins_arrangeWorkspace (K := Nobody) (D := Nobody) _ w)
    split
    · exact hlisted
    · exact hlisted

theorem reshaped_cmdRelease (hs : s.tree.Shaped) (c : ConId) :
    Tree.Reshaped s.tree (cmdRelease fo s c).tree := by
  unfold cmdRelease
  split
  · exact Tree.Reshaped.refl hs
  · dsimp only
    split
    · split
      · exact reshaped_releaseFrom h hs (hs.toplevel_parent c) _ _
      · exact Tree.Reshaped.refl hs
    · exact Tree.Reshaped.refl hs

/-! ## `split none` -/

/-- A window takes the place of its floating column. -/
theorem reshaped_containerAddSibling (hs : s.tree.Shaped) (hp : (s.tree.con p).view = none)
    (hlt : p < s.tree.nextCon) (hrow : ∀ w, p ∉ (s.tree.ws w).tiling) (hc : c < s.tree.nextCon)
    (after : Bool) : Tree.Reshaped s.tree (containerAddSibling fo s p c after).tree := by
  have hout := reshaped_detachIfPlaced hs c
  have hfree := frees_detachIfPlaced s c
  unfold containerAddSibling
  dsimp only
  split
  · exact hout
  next r hr =>
    have hcolumn := hout.column hlt hp
    have hparent := hout.shaped.parent_of_column hcolumn
    -- the column is in no row, so the list is one of floating containers
    have hholds : r.Holds (detachIfPlaced s c).tree c := by
      cases r with
      | floating w => trivial
      | children q =>
          have hup := siblings_parent hr
          rw [hparent] at hup
          cases hup
      | tiling w =>
          unfold containerGetSiblings at hr
          cases hw : ((detachIfPlaced s c).tree.con p).workspace with
          | none =>
              rw [hparent, hw] at hr
              cases hr
          | some v =>
              rw [hparent, hw] at hr
              dsimp only at hr
              split at hr
              next hmem => exact absurd (hfree.row v p hmem) (hrow v)
              next => cases hr
    have hput : ∀ i : Int, Tree.Reshaped s.tree ((detachIfPlaced s c).attach r i c).tree :=
      fun i => hout.attach i (hout.lt hc) hholds
    have hcopy : ∀ u : State, Tree.Reshaped s.tree u.tree →
        Tree.Reshaped s.tree (copyLinks u p c).tree := by
      intro u hu
      have hnone := hu.shaped.parent_of_column (hu.column hlt hp)
      have hlink := hu.shaped.modCon c (f := fun k =>
        { k with parent := (u.tree.con p).parent, workspace := (u.tree.con p).workspace })
        rfl rfl fun q hq => by
          dsimp only at hq
          rw [hnone] at hq
          cases hq
      have hrewired := Tree.rewired_setWorkspaceBelow (u.tree.modCon c fun k =>
        { k with parent := (u.tree.con p).parent, workspace := (u.tree.con p).workspace }) c
      obtain ⟨f, hf, -, -⟩ := Tree.setWorkspaceBelow_eq (u.tree.modCon c fun k =>
        { k with parent := (u.tree.con p).parent, workspace := (u.tree.con p).workspace }) c
      refine hu.trans (hlink.trans ?_)
      refine hlink.shaped.mono (fun d => congrArg Option.isSome (hrewired.view d)) ?_ ?_
        hrewired.nextCon
      · intro r' d hd
        unfold copyLinks at hd
        rw [State.tree_modTree, hf, Tree.items_withWorkspaces] at hd
        exact hd
      · intro d q hq
        unfold copyLinks at hq
        rw [State.tree_modTree, hf] at hq
        exact hq
    refine Tree.Reshaped.geometry ?_ (onlyGeometry_containerFitVerticalChildren _ _ c)
    exact (hcopy _ (hput _)).thins (thins_containerHandleFullscreenReparent h _ c)

/-- `container_replace` keeps the shape for a column that is in no row. -/
theorem reshaped_containerReplace (hs : s.tree.Shaped) (hp : (s.tree.con p).view = none)
    (hlt : p < s.tree.nextCon) (hrow : ∀ w, p ∉ (s.tree.ws w).tiling) (hc : c < s.tree.nextCon) :
    Tree.Reshaped s.tree (containerReplace fo s p c).tree := by
  have hthins := thins_disableFullscreen h s p
  set s₁ := disableFullscreen fo s p with hs₁
  have hshape₁ := hthins.reshaped hs
  have hfree₁ := hthins.frees
  have hshow : Tree.Reshaped s.tree (if (s.tree.con p).scratchpad then
        rootScratchpadRemoveContainer (rootScratchpadShow fo s₁ p) p else s₁).tree ∧
      Tree.Frees s.tree (if (s.tree.con p).scratchpad then
        rootScratchpadRemoveContainer (rootScratchpadShow fo s₁ p) p else s₁).tree := by
    split
    · have hremove := thins_rootScratchpadRemoveContainer (rootScratchpadShow fo s₁ p) p
      exact ⟨(hshape₁.trans (reshaped_rootScratchpadShow h hshape₁.shaped (hshape₁.lt hlt))).thins
          hremove,
        (hfree₁.trans (frees_rootScratchpadShow h s₁ p)).thins hremove⟩
    · exact ⟨hshape₁, hfree₁⟩
  unfold containerReplace
  dsimp only
  generalize (if (s.tree.con p).scratchpad then
    rootScratchpadRemoveContainer (rootScratchpadShow fo s₁ p) p else s₁) = s₂ at hshow ⊢
  obtain ⟨hshape₂, hfree₂⟩ := hshow
  have hlinks : Tree.Reshaped s.tree (replaceLinks fo s₂ p c).tree := by
    unfold replaceLinks
    split
    · have hadd := reshaped_containerAddSibling h hshape₂.shaped (hshape₂.column hlt hp)
        (hshape₂.lt hlt) (fun w hmem => hrow w (hfree₂.row w p hmem)) (hshape₂.lt hc) true
      have hout := hadd.trans (reshaped_containerDetach hadd.shaped p)
      exact hshape₂.trans (hout.geometry (OnlyGeometry.modGeo _ c _))
    · exact hshape₂
  refine Tree.Reshaped.thins ?_ (thins_takeFullscreen h _ c _)
  split
  · exact hlinks.trans (reshaped_rootScratchpadAddContainer h hlinks.shaped (hlinks.lt hc) _)
  · exact hlinks

/-- `container_flatten` keeps the shape for a column that is in no row. -/
theorem reshaped_containerFlatten (hs : s.tree.Shaped) (hlt : p < s.tree.nextCon)
    (hrow : (s.tree.con p).view = none → (s.tree.con p).children.length = 1 →
      ∀ w, p ∉ (s.tree.ws w).tiling) : Tree.Reshaped s.tree (containerFlatten fo s p).tree := by
  unfold containerFlatten
  split
  · exact Tree.Reshaped.refl hs
  next hv =>
    have hp := Option.not_isSome_iff_eq_none.mp hv
    unfold flattenLoop
    split
    next child hchild =>
      have hmem : child ∈ (s.tree.con p).children := hchild ▸ List.mem_singleton_self child
      have hreplace := reshaped_containerReplace h hs hp hlt (hrow hp (by rw [hchild]; rfl))
        (hs.used (.children p) child hmem)
      have hgone := hreplace.thins (thins_containerBeginDestroy h _ p)
      -- the column has no parent, so the loop ends
      rw [hs.parent_of_column hp]
      cases s.tree.nextCon <;> exact hgone
    next => exact Tree.Reshaped.refl hs

/-- The column of `split none` is in no row when it holds one window only. -/
def SplitsFloating (t : Tree) (c : ConId) : Prop :=
  ∀ p, (t.con c).parent = some p → (t.con p).children.length = 1 → ∀ w, p ∉ (t.ws w).tiling

theorem reshaped_doUnsplit (hs : s.tree.Shaped) (hrow : SplitsFloating s.tree c) (w : WsId) :
    Tree.Reshaped s.tree (doUnsplit fo s c w).tree := by
  unfold doUnsplit
  split
  · exact Tree.Reshaped.refl hs
  next p hp =>
    split
    next hone =>
      have hflat := reshaped_containerFlatten h hs (hs.up c p hp).2.2 fun _ _ => hrow p hp hone
      dsimp only
      split
      · exact hflat.thins (thins_arrangeRoot (K := Nobody) (D := Nobody) _)
      · exact hflat.thins (thins_arrangeWorkspace (K := Nobody) (D := Nobody) _ w)
    next => exact Tree.Reshaped.refl hs

/-! ## The minimize pools -/

theorem reshaped_workspaceMinimizedHide (hs : s.tree.Shaped) (c : ConId) :
    Tree.Reshaped s.tree (workspaceMinimizedHide fo s c).tree := by
  unfold workspaceMinimizedHide
  split
  · exact Tree.Reshaped.refl hs
  · dsimp only
    have hfull := (thins_disableFullscreen h s c).reshaped hs
    set s₁ := disableFullscreen fo s c with hs₁
    have hmarked : ∀ b : Bool, Tree.Reshaped s.tree (containerDetach
        ((s₁.setWasFloating c b).setMinimized c true) c).tree := by
      intro b
      exact hfull.trans (reshaped_containerDetach
        (s := (s₁.setWasFloating c b).setMinimized c true) hfull.shaped c)
    have hreap : ∀ (u : State) (o : Option ConId), Tree.Reshaped s.tree u.tree →
        Tree.Reshaped s.tree (reapParent fo u o).tree := by
      intro u o hu
      cases o with
      | none => exact hu
      | some p => exact hu.thins (thins_containerReapEmpty h u p)
    have hrefocus : ∀ (u : State) (w : WsId), Tree.Reshaped s.tree u.tree →
        Tree.Reshaped s.tree (refocusWorkspace fo u w).tree := by
      intro u w hu
      unfold refocusWorkspace
      split
      · exact hu
      · exact (hu.thins (thins_arrangeWorkspace (K := Nobody) (D := Nobody) u w)).thins
          (h.setFocus _ _ _)
    have hout := hreap _ (s₁.tree.con c).parent (hmarked (containerIsFloating s₁.tree c))
    split
    next w _ => exact hrefocus (park _ w c) w hout
    next => exact hout

theorem reshaped_restoreMinimized (hs : s.tree.Shaped) (hc : c < s.tree.nextCon) (w : WsId) :
    Tree.Reshaped s.tree (restoreMinimized fo s w c).tree := by
  unfold restoreMinimized
  split
  · refine Tree.Reshaped.raise ?_ c
    rw [tree_fixShown]
    exact reshaped_workspaceAddFloating h hs hc w
  · exact reshaped_workspaceAddTiling h hs hc w

theorem reshaped_workspaceMinimizedShowOn (hs : s.tree.Shaped) (hc : c < s.tree.nextCon)
    (w : WsId) : Tree.Reshaped s.tree (workspaceMinimizedShowOn fo s c w).tree := by
  unfold workspaceMinimizedShowOn
  split
  · dsimp only
    have hpool : ((workspaceMinimizedRemove s c).setMinimized c false).tree = s.tree := by
      unfold workspaceMinimizedRemove
      split <;> rfl
    have hfull : Tree.Reshaped s.tree (disableFullscreenGlobal fo (disableWsFullscreen fo
        ((workspaceMinimizedRemove s c).setMinimized c false) w)).tree := by
      have hthins := (thins_disableWsFullscreen h
        ((workspaceMinimizedRemove s c).setMinimized c false) w).trans
        (thins_disableFullscreenGlobal h _)
      have hshape := hthins.reshaped (hpool.symm ▸ hs)
      rwa [hpool] at hshape
    have hback := hfull.trans (reshaped_restoreMinimized h hfull.shaped (hfull.lt hc) w)
    have harrange := hback.thins (thins_arrangeWorkspace (K := Nobody) (D := Nobody) _ w)
    split
    · split
      · exact Tree.Reshaped.thins (harrange.thins (h.setFocus _ _ _))
          (thins_workspaceConsiderDestroy h _ _)
      · exact harrange.thins (h.setFocus _ _ _)
    · exact harrange.thins (h.setFocus _ _ _)
  · exact Tree.Reshaped.refl hs

theorem reshaped_workspaceMinimizedShow (hs : s.tree.Shaped) (hc : c < s.tree.nextCon) :
    Tree.Reshaped s.tree (workspaceMinimizedShow fo s c).tree := by
  unfold workspaceMinimizedShow
  split
  · exact reshaped_workspaceMinimizedShowOn h hs hc _
  · exact Tree.Reshaped.refl hs

/-! ## Windows open and close -/

theorem reshaped_placeView (hs : s.tree.Shaped) (hc : c < s.tree.nextCon) (w : WsId)
    (wantsFloating : Bool) : Tree.Reshaped s.tree (placeView fo s c w wantsFloating).tree := by
  unfold placeView
  dsimp only
  split
  · have hput := hs.modCon c (f := fun l => { l with workspace := some w }) rfl rfl
      fun _ hp => hp
    exact hput.trans (reshaped_containerSetFloating h (s := ((s.modTree fun t =>
      t.modCon c fun l => { l with workspace := some w }).modDeco c fun d =>
        { d with border := s.config.floatingBorder,
                 borderThickness := s.config.floatingBorderThickness })) hput.shaped (hput.lt hc)
        fun hno => by cases hno)
  · exact reshaped_workspaceAddTiling h (s := s.modDeco c fun d =>
      { d with border := s.config.border, borderThickness := s.config.borderThickness }) hs hc w

omit h in
theorem reshaped_viewUpdateCsdFromClient (hs : s.tree.Shaped) (c : ConId) :
    Tree.Reshaped s.tree (viewUpdateCsdFromClient s c).tree := by
  have htree : (if (s.deco c).border ≠ .csd then
      s.modDeco c fun d =>
        { d with
          savedBorder := d.border
          border := if containerIsFloating s.tree c then .csd else d.border }
      else s).tree = s.tree := by
    split <;> rfl
  unfold viewUpdateCsdFromClient
  dsimp only
  rw [State.tree_modTree, htree]
  refine hs.modCon c ?_ rfl fun _ hp => hp
  cases (s.tree.con c).view <;> rfl

theorem thins_leaveForPopup (s : State) (c : ConId) :
    Thins Nobody Nobody s.core (leaveForPopup fo s c).core := by
  unfold leaveForPopup
  split
  · split
    · exact thins_containerSetFullscreen h s _ _
    · exact Thins.refl _
  · exact Thins.refl _

omit h in
theorem thins_arrangeAround (s : State) (c : ConId) :
    Thins Nobody Nobody s.core (arrangeAround s c).core := by
  unfold arrangeAround
  split
  · exact Thins.of_eq (onlyGeometry_arrangeContainer s _).core
  · exact thins_arrangeWorkspace s _
  · exact Thins.refl _

theorem thins_openFullscreen (s : State) (c : ConId) :
    Thins Nobody Nobody s.core (openFullscreen fo s c).core := by
  have hfull := thins_containerSetFullscreen h s c .workspace
  unfold openFullscreen
  dsimp only
  split
  · exact hfull.trans (thins_arrangeWorkspace _ _)
  · exact hfull

/-- A window that opens gets a column or floats. -/
theorem reshaped_viewMap (hs : s.tree.Shaped) (r : MapRequest) :
    Tree.Reshaped s.tree (viewMap fo s r).tree := by
  have hcreate : (containerCreate s (some r.view)).tree = s.tree.create (some r.view) := by
    unfold containerCreate
    exact congrArg Core.tree (core_emitNewNode _ _)
  have hnew : Tree.Reshaped s.tree (containerCreate s (some r.view)).tree := by
    rw [hcreate]
    exact hs.create _
  have hlt : s.tree.nextCon < (containerCreate s (some r.view)).tree.nextCon := by
    rw [hcreate]
    exact Nat.lt_succ_self _
  unfold viewMap
  dsimp only
  have hplace := hnew.trans (reshaped_placeView h hnew.shaped hlt r.workspace r.wantsFloating)
  set s₁ := placeView fo (containerCreate s (some r.view)) s.tree.nextCon r.workspace
    r.wantsFloating with hs₁
  have hcsd : Tree.Reshaped s.tree (if r.decoration then
      viewUpdateCsdFromClient s₁ s.tree.nextCon else s₁).tree := by
    split
    · exact hplace.trans (reshaped_viewUpdateCsdFromClient hplace.shaped _)
    · exact hplace
  have hpopup := hcsd.thins (thins_leaveForPopup h _ s.tree.nextCon)
  set s₂ := leaveForPopup fo (if r.decoration then
    viewUpdateCsdFromClient s₁ s.tree.nextCon else s₁) s.tree.nextCon with hs₂
  have hsized : Tree.Reshaped s.tree (if r.fullscreen then
      openFullscreen fo s₂ s.tree.nextCon else arrangeAround s₂ s.tree.nextCon).tree := by
    split
    · exact hpopup.thins (thins_openFullscreen h s₂ _)
    · exact hpopup.thins (thins_arrangeAround s₂ _)
  have hfocus : ∀ u : State, Tree.Reshaped s.tree u.tree → Tree.Reshaped s.tree
      (if shouldFocus u s.tree.nextCon r.noFocus ∧ r.takesInput then
        inputManagerSetFocus fo u (.container s.tree.nextCon) else u).tree := by
    intro u hu
    split
    · exact hu.thins (thins_inputManagerSetFocus h u _)
    · exact hu
  exact hfocus _ hsized

theorem reshaped_closeColumn (hs : s.tree.Shaped) (o : Option WsId) (p : ConId)
    (next : Option ConId) : Tree.Reshaped s.tree (closeColumn fo s o p next).1.tree := by
  have hgone := reshaped_columnRemove h hs p true
  unfold closeColumn
  dsimp only
  split
  · exact hgone
  · split
    · exact hgone
    · split <;> exact hgone

theorem reshaped_cleanUp (hs : s.tree.Shaped) (o : Option WsId) (q : Option ConId) (lone : Bool)
    (next : Option ConId) : Tree.Reshaped s.tree (cleanUp fo s o q lone next).1.tree := by
  unfold cleanUp
  cases q with
  | none => exact (thins_considerDestroy h s o).reshaped hs
  | some p =>
      dsimp only
      split
      · exact reshaped_closeColumn h hs o p next
      · exact (thins_containerReapEmpty h s p).reshaped hs

/-- A window that closes only leaves. -/
theorem reshaped_viewUnmap (hs : s.tree.Shaped) (c : ConId) :
    Tree.Reshaped s.tree (viewUnmap fo s c).tree := by
  have hgone := (thins_containerBeginDestroy h s c).reshaped hs
  have hclean := hgone.trans (reshaped_cleanUp h hgone.shaped (s.tree.con c).workspace
    (s.tree.con c).parent (aloneInColumn s c) (nextFocus s c))
  have harrange : ∀ (u : State) (o : Option WsId), Tree.Reshaped s.tree u.tree →
      Tree.Reshaped s.tree (arrangeAfterClose u o).tree := by
    intro u o hu
    unfold arrangeAfterClose
    split
    · exact hu.thins (thins_arrangeRoot (K := Nobody) (D := Nobody) u)
    · split
      · split
        · exact hu
        · exact hu.thins (thins_arrangeWorkspace (K := Nobody) (D := Nobody) u _)
      · exact hu
  unfold viewUnmap
  dsimp only
  refine harrange _ _ ?_
  split
  · split
    · exact hclean
    · exact hclean.thins (h.setFocusRaw _ _ _)
  · exact hclean

end Commands

end Swirl
