import Swirl.Tree.RowOperations

set_option autoImplicit false

/-! # Replacing and flattening keep the tree well formed

`container_replace` and `container_flatten`, with the scratchpad functions they use. A scratchpad
container is shown before it is replaced, which also puts everything below it on a workspace.
-/

namespace Swirl

open Lib

section Thinning

variable {fo : FocusOps} (h : FocusThins fo) {L M K : ConId → Prop} {s s' : State} {t : Tree}
  {c d p x : ConId} {w : WsId}

/-- Thinning out without detaching goes on from a move. -/
theorem Tree.Moved.thins (hm : Tree.Moved L M t s.tree) (hthins : Thins K Nobody s.core s'.core) :
    Tree.Moved L M t s'.tree :=
  hm.trans (Tree.Thins.moved hthins hm.wellFormed)

/-- A list may be put into another order after a move. -/
theorem Tree.Moved.modList {t' : Tree} (hm : Tree.Moved L M t t') {r : Tree.ListRef}
    {f : List ConId → List ConId} (hf : (f (t'.items r)).Perm (t'.items r)) :
    Tree.Moved L M t (t'.modList r f) := by
  refine hm.trans ⟨hm.wellFormed.modList hf, (Tree.rewired_modList t' r f).nextCon.ge, fun x _ => ?_⟩
  refine Tree.Aside.of_same ?_ (by rw [Tree.con_modList_workspace])
  funext e
  exact Tree.con_modList_parent t' r f e

include h

/-! ## Destroying -/

theorem moved_containerBeginDestroy (hs : s.tree.WellFormedBut L) (c : ConId) :
    Tree.Moved L (· = c) s.tree (containerBeginDestroy fo s c).tree := by
  have hbefore : Tree.Moved L (· = c) s.tree (beforeDetach fo s c).tree :=
    (Tree.Moved.refl hs).thins (thins_beforeDetach h s c)
  rw [containerBeginDestroy_eq]
  dsimp only
  split
  · rw [tree_containerDetach]
    exact hbefore.trans (Tree.moved_detach hbefore.wellFormed c)
  · exact hbefore

/-- Below a container without children is nothing, so nothing moves with it. -/
theorem moved_containerBeginDestroy_of_empty (hs : s.tree.WellFormedBut L)
    (hk : (s.tree.con c).children = []) :
    Tree.Moved L M s.tree (containerBeginDestroy fo s c).tree := by
  have hthins := thins_beforeDetach h s c
  have hbefore : Tree.Moved L M s.tree (beforeDetach fo s c).tree :=
    (Tree.Moved.refl hs).thins hthins
  have hempty : ((beforeDetach fo s c).tree.con c).children = [] := by
    have hsub := hthins.items_sublist (r := .children c) fun v hv => by cases hv
    exact List.sublist_nil.mp (hk ▸ hsub)
  rw [containerBeginDestroy_eq]
  dsimp only
  split
  · rw [tree_containerDetach]
    refine hbefore.trans ⟨hbefore.wellFormed.detach c, (Tree.rewired_detach _ c).nextCon.ge, ?_⟩
    intro x _
    refine Tree.aside_detach hbefore.wellFormed fun hb => ?_
    obtain ⟨e, he⟩ := hbefore.wellFormed.forest.exists_child hb
    rw [hempty] at he
    exact absurd he List.not_mem_nil
  · exact hbefore

theorem moved_reapEmpty (hs : s.tree.WellFormedBut L) (w : Option WsId) (n : Nat)
    (c : Option ConId) : Tree.Moved L M s.tree (reapEmpty fo w n s c).tree := by
  induction n generalizing s c with
  | zero =>
      cases c with
      | none => exact (Tree.Moved.refl hs).thins (thins_considerDestroy h s w)
      | some c => exact Tree.Moved.refl hs
  | succ n ih =>
      cases c with
      | none => exact (Tree.Moved.refl hs).thins (thins_considerDestroy h s w)
      | some c =>
          unfold reapEmpty
          split
          next hk =>
            have hdestroy : Tree.Moved L M s.tree (containerBeginDestroy fo s c).tree :=
              moved_containerBeginDestroy_of_empty h hs hk
            exact hdestroy.trans (ih hdestroy.wellFormed _)
          next => exact Tree.Moved.refl hs

theorem moved_containerReapEmpty (hs : s.tree.WellFormedBut L) (c : ConId) :
    Tree.Moved L M s.tree (containerReapEmpty fo s c).tree := by
  unfold containerReapEmpty
  split
  · exact Tree.Moved.refl hs
  · exact moved_reapEmpty h hs _ _ _

/-- A container without children is destroyed; the others stay where they are. -/
theorem containerBeginDestroy_placed (hs : s.tree.WellFormed) (hk : (s.tree.con c).children = [])
    (hxc : x ≠ c) : ((containerBeginDestroy fo s c).tree.con x).workspace.isSome =
      (s.tree.con x).workspace.isSome := by
  have hthins := thins_beforeDetach h s c
  have hwf : (beforeDetach fo s c).tree.WellFormed := Tree.Thins.wellFormedBut hthins hs
  have hkept : ((beforeDetach fo s c).tree.con x).workspace.isSome =
      (s.tree.con x).workspace.isSome := Tree.Thins.workspace_isSome hthins hs x
  have hempty : ((beforeDetach fo s c).tree.con c).children = [] := by
    have hsub := hthins.items_sublist (r := .children c) fun v hv => by cases hv
    exact List.sublist_nil.mp (hk ▸ hsub)
  rw [containerBeginDestroy_eq]
  dsimp only
  split
  · rw [tree_containerDetach, Tree.detach_workspace_outside hwf hxc, hkept]
    intro hb
    obtain ⟨e, he⟩ := hwf.forest.exists_child hb
    rw [hempty] at he
    exact absurd he List.not_mem_nil
  · exact hkept

/-- Reaping goes up from an empty container, so it leaves alone what is not above it. -/
theorem reapEmpty_placed (hs : s.tree.WellFormed) (w : Option WsId) (n : Nat) (o : Option ConId)
    (hx : ∀ d, o = some d → x ≠ d ∧ ¬ s.tree.HangsBelow d x) :
    ((reapEmpty fo w n s o).tree.con x).workspace.isSome = (s.tree.con x).workspace.isSome := by
  induction n generalizing s o with
  | zero =>
      cases o with
      | none => exact Tree.Thins.workspace_isSome (thins_considerDestroy h s w) hs x
      | some d => rfl
  | succ n ih =>
      cases o with
      | none => exact Tree.Thins.workspace_isSome (thins_considerDestroy h s w) hs x
      | some d =>
          obtain ⟨hxd, hdx⟩ := hx d rfl
          unfold reapEmpty
          split
          next hk =>
            have hmoved : Tree.Moved Nobody Nobody s.tree (containerBeginDestroy fo s d).tree :=
              moved_containerBeginDestroy_of_empty h hs hk
            rw [ih hmoved.wellFormed, containerBeginDestroy_placed h hs hk hxd]
            -- the parent of `d` is not at or below `x` either
            intro p hp
            have hdp : s.tree.HangsBelow d p := Under.of_parent hp
            refine ⟨?_, fun hb => ?_⟩
            · rintro rfl
              exact hdx hdp
            · exact hdx (hdp.trans ((hmoved.aside p (Tree.apart_nobody _ p)).above x hb))
          next => rfl

theorem containerReapEmpty_placed (hs : s.tree.WellFormed) (hxp : x ≠ p)
    (hpx : ¬ s.tree.HangsBelow p x) :
    ((containerReapEmpty fo s p).tree.con x).workspace.isSome =
      (s.tree.con x).workspace.isSome := by
  unfold containerReapEmpty
  split
  · rfl
  · refine reapEmpty_placed h hs _ _ _ ?_
    rintro d ⟨rfl⟩
    exact ⟨hxp, hpx⟩

/-! ## Showing a scratchpad container -/

omit h in
/-- `t'` comes from `t` by putting a container on a workspace as a floating one. -/
structure Tree.Floated (c : ConId) (t t' : Tree) : Prop extends Tree.Moved Nobody (· = c) t t' where
  loosens : ∀ e p, (t'.con e).parent = some p → (t.con e).parent = some p
  placed : ∀ x, x = c ∨ t.HangsBelow x c → (t'.con x).workspace.isSome

omit h in
theorem Tree.Floated.thins (hf : Tree.Floated c t s.tree)
    (hthins : Thins K Nobody s.core s'.core) : Tree.Floated c t s'.tree where
  toMoved := hf.toMoved.thins hthins
  loosens e p hp := hf.loosens e p ((hthins.parent_eq hf.wellFormed.linked e).symm.trans hp)
  placed x hx := (Tree.Thins.workspace_isSome hthins hf.wellFormed x).trans (hf.placed x hx)

omit h in
theorem Tree.Floated.modList {t' : Tree} (hf : Tree.Floated c t t') {r : Tree.ListRef}
    {f : List ConId → List ConId} (hperm : (f (t'.items r)).Perm (t'.items r)) :
    Tree.Floated c t (t'.modList r f) where
  toMoved := hf.toMoved.modList hperm
  loosens e p hp := hf.loosens e p ((Tree.con_modList_parent t' r f e).symm.trans hp)
  placed x hx := by
    rw [Tree.con_modList_workspace]
    exact hf.placed x hx

/-- A container that was taken out is put on a workspace with all that hangs below it. -/
theorem floated_workspaceAddFloating (hout : Tree.TakenOut Nobody c t s.tree)
    (hlt : c < t.nextCon) (w : WsId) : Tree.Floated c t (workspaceAddFloating fo s w c).tree := by
  have htree := tree_unpark s c
  have hout' : Tree.TakenOut Nobody c (unpark s c).tree (detachIfPlaced (unpark s c) c).tree :=
    takenOut_detachIfPlaced (htree.symm ▸ hout.wellFormed) fun _ => htree.symm ▸ hout.free.parent
  rw [htree] at hout'
  have hall := hout.trans hout'
  have htakes := Tree.takes_floating (detachIfPlaced (unpark s c) c).tree w c
  have hput := hall.attach hlt htakes
  have hfloat : Tree.Floated c t
      ((detachIfPlaced (unpark s c) c).attachLast (.floating w) c).tree := by
    unfold State.attachLast
    rw [tree_attach]
    refine ⟨hput.mono (fun _ hd => hd.1) fun _ hd => hd, fun e p hp => ?_, fun x hx => ?_⟩
    · rw [Tree.attach_parent] at hp
      split at hp
      next he =>
        have hnone : Tree.ListRef.parent ((detachIfPlaced (unpark s c) c).tree.con c).parent
            (.floating w) = none := hall.free.parent
        rw [hnone] at hp
        cases hp
      next => exact hall.loosens e p hp
    · have hws := Tree.attach_workspace_inside hall.wellFormed hall.free htakes
        (hx.imp_right (hall.below x))
      exact hws ▸ rfl
  unfold workspaceAddFloating
  exact hfloat.thins (thins_containerHandleFullscreenReparent h _ c)

omit h in
/-- Thinning out before the container is put on a workspace. -/
theorem Tree.Floated.after (hs : s.tree.WellFormed) (hthins : Thins K Nobody s.core s'.core)
    (hf : Tree.Floated c s'.tree t) : Tree.Floated c s.tree t where
  toMoved := ((Tree.Moved.refl hs).thins hthins).trans hf.toMoved
  loosens e p hp := (hthins.parent_eq hs.linked e).symm.trans (hf.loosens e p hp)
  placed x hx := by
    refine hf.placed x (hx.imp_right fun hb => hb.mono fun e p hp => ?_)
    exact (hthins.parent_eq hs.linked e).trans hp

omit h in
theorem Tree.toplevel_congr {t t' : Tree} (hparent : t'.parentOf = t.parentOf)
    (hnext : t'.nextCon = t.nextCon) (c : ConId) :
    containerToplevelAncestor t' c = containerToplevelAncestor t c := by
  unfold containerToplevelAncestor
  rw [Tree.ancestors_eq, Tree.ancestors_eq, hparent, hnext]

omit h in
theorem Thins.shownContainer (hthins : Thins K Nobody s.core s'.core) (hs : s.tree.WellFormed)
    (c : ConId) : shownContainer s' c = shownContainer s c := by
  have hws : (s'.tree.con c).workspace.isSome = (s.tree.con c).workspace.isSome :=
    Tree.Thins.workspace_isSome hthins hs c
  have htop : containerToplevelAncestor s'.tree c = containerToplevelAncestor s.tree c :=
    Tree.toplevel_congr (funext fun d => hthins.parent_eq hs.linked d) hthins.frame.nextCon c
  unfold Swirl.shownContainer
  rw [hws, htop]

omit h in
/-- The shown container is taken out of its place. -/
theorem takenOut_leaveShown (hs : s.tree.WellFormed) (c : ConId) :
    Tree.TakenOut Nobody (shownContainer s c) s.tree (leaveShown s c).tree := by
  unfold shownContainer leaveShown
  cases hw : (s.tree.con c).workspace with
  | none =>
      have htop := hs.forest.toplevel_parent c
      have hnone := (hs.workspace_toplevel c).trans hw
      simp only [Option.isSome_none, Bool.false_eq_true, if_false]
      exact Tree.takenOut_of_free hs (hs.free_of_nowhere htop hnone)
  | some w =>
      have hdet := Tree.takenOut_detach hs c
      simp only [Option.isSome_some, if_true]
      rw [← tree_containerDetach] at hdet
      split
      · exact hdet
      · exact hdet

omit h in
theorem shownContainer_lt (hs : s.tree.WellFormed) (hlt : c < s.tree.nextCon) :
    shownContainer s c < s.tree.nextCon := by
  unfold shownContainer
  split
  · exact hlt
  · exact toplevel_lt hs hlt

omit h in
theorem tree_fixShown (s : State) (w : WsId) (c : ConId) : (fixShown s w c).tree = s.tree := by
  unfold fixShown setContainerTransform
  dsimp only
  rw [(OnlyGeometry.modGeo _ c _).tree]
  split
  · exact (onlyGeometry_floatingFixCoordinates s c _ _).tree
  · rfl

omit h in
/-- `container_raise_floating` puts a floating list into another order, or does nothing. -/
theorem tree_containerRaiseFloating (s : State) (d : ConId) :
    (containerRaiseFloating s d).tree = s.tree ∨
      ∃ w c, (containerRaiseFloating s d).tree =
        s.tree.modList (.floating w) fun l => listMoveToEnd l c := by
  unfold containerRaiseFloating
  dsimp only
  split
  · split
    · exact Or.inr ⟨_, _, rfl⟩
    · exact Or.inl rfl
  · exact Or.inl rfl

omit h in
theorem floated_containerRaiseFloating (hf : Tree.Floated c t s.tree) (d : ConId) :
    Tree.Floated c t (containerRaiseFloating s d).tree := by
  rcases tree_containerRaiseFloating s d with heq | ⟨w, e, heq⟩
  · rw [heq]
    exact hf
  · rw [heq]
    refine hf.modList ?_
    exact listMoveToEnd_perm _ _

omit h in
theorem wellFormed_containerRaiseFloating (hs : s.tree.WellFormed) (d : ConId) :
    (containerRaiseFloating s d).tree.WellFormed ∧ ∀ x,
      ((containerRaiseFloating s d).tree.con x).workspace = (s.tree.con x).workspace := by
  rcases tree_containerRaiseFloating s d with heq | ⟨w, e, heq⟩
  · rw [heq]
    exact ⟨hs, fun _ => rfl⟩
  · rw [heq]
    refine ⟨hs.modList ?_, Tree.con_modList_workspace _ _ _⟩
    exact listMoveToEnd_perm _ _

/-- **`root_scratchpad_show` puts its container on a workspace.** -/
theorem floated_rootScratchpadShow (hs : s.tree.WellFormed) (hlt : c < s.tree.nextCon)
    (hw : seatGetFocusedWorkspace s s.currentSeat = some w) :
    Tree.Floated (shownContainer s c) s.tree (rootScratchpadShow fo s c).tree := by
  have hthins : Thins Nobody Nobody s.core
      (disableFullscreenGlobal fo (disableWsFullscreen fo s w)).core :=
    (thins_disableWsFullscreen h s w).trans (thins_disableFullscreenGlobal h _)
  unfold rootScratchpadShow
  rw [hw]
  dsimp only
  set s₁ := disableFullscreenGlobal fo (disableWsFullscreen fo s w) with hs₁
  have hwf : s₁.tree.WellFormed := Tree.Thins.wellFormedBut hthins hs
  have hlt₁ : c < s₁.tree.nextCon := hlt.trans_le hthins.frame.nextCon.ge
  rw [← Thins.shownContainer hthins hs c]
  refine Tree.Floated.after hs hthins ?_
  have hadd := floated_workspaceAddFloating h (takenOut_leaveShown hwf c)
    (shownContainer_lt hwf hlt₁) w
  have hfix : Tree.Floated (shownContainer s₁ c) s₁.tree
      (fixShown (workspaceAddFloating fo (leaveShown s₁ c) w (shownContainer s₁ c)) w
        (shownContainer s₁ c)).tree := by
    rw [tree_fixShown]
    exact hadd
  refine floated_containerRaiseFloating ?_ _
  refine Tree.Floated.thins ?_ (thins_considerDestroy h _ _)
  exact (hfix.thins (thins_arrangeWorkspace (K := Nobody) (D := Nobody) _ w)).thins
    (h.setFocus _ _ _)

/-! ## Into the scratchpad and out of it -/

omit h in
/-- Nothing moves where lists, parents and workspaces stay. -/
theorem Tree.Moved.of_links {t t' : Tree} (ht : t.WellFormedBut L)
    (hitems : ∀ r, t'.items r = t.items r) (hparent : ∀ c, (t'.con c).parent = (t.con c).parent)
    (hws : ∀ c, (t'.con c).workspace = (t.con c).workspace) (hnext : t'.nextCon = t.nextCon) :
    Tree.Moved L M t t' :=
  ⟨ht.congr hitems hparent hws hnext, hnext.ge,
    fun x _ => Tree.Aside.of_same (funext hparent) (congrArg Option.isSome (hws x))⟩

omit h in
theorem thins_rootScratchpadRemoveContainer (s : State) (c : ConId) :
    Thins (· = c) Nobody s.core (rootScratchpadRemoveContainer s c).core := by
  unfold rootScratchpadRemoveContainer
  split
  · exact Thins.single (Thin.unscratch s.core rfl)
  · exact Thins.refl _

omit h in
/-- A container is marked and listed as one of the scratchpad. -/
theorem moved_setScratchpad {t : Tree} (ht : t.WellFormedBut L) (c : ConId) (l : List ConId) :
    Tree.Moved L M t { t.modCon c fun k => { k with scratchpad := true } with scratchpad := l } := by
  refine Tree.Moved.of_links ht (fun r => ?_) (fun d => ?_) (fun d => ?_) rfl
  · have hitems := Tree.items_modCon t c (fun k => { k with scratchpad := true }) rfl r
    cases r <;> exact hitems
  · by_cases hd : d = c
    · subst hd
      simp [Tree.modCon]
    · simp [Tree.modCon, hd]
  · by_cases hd : d = c
    · subst hd
      simp [Tree.modCon]
    · simp [Tree.modCon, hd]

omit h in
theorem tree_decorateFloating (s : State) (c : ConId) : (decorateFloating s c).tree = s.tree := by
  unfold decorateFloating
  split
  · split <;> rfl
  · rfl

theorem moved_leaveFloatingParent (hm : Tree.Moved L M t s.tree) (c p : ConId) (b : Bool) :
    Tree.Moved L M t (leaveFloatingParent fo s c p b).tree := by
  have hreap : ∀ u : State, Tree.Moved L M t u.tree →
      Tree.Moved L M t (containerReapEmpty fo u p).tree :=
    fun u hu => hu.trans (moved_containerReapEmpty h hu.wellFormed p)
  unfold leaveFloatingParent
  dsimp only
  split
  · exact hreap _ hm
  · exact hreap _ hm

omit h in
/-- The container floats on the workspace, and leaves its parent when it had one. -/
theorem floatContainer_cases (s : State) (w : WsId) (c : ConId) :
    ∃ u : State, u.tree = (workspaceAddFloating fo (containerDetach s c) w c).tree ∧
      ((s.tree.con c).parent = none ∧ (floatContainer fo s w c).tree = u.tree ∨
        ∃ p b, (s.tree.con c).parent = some p ∧
          (floatContainer fo s w c).tree = (leaveFloatingParent fo u c p b).tree) := by
  refine ⟨containerFloatingResizeAndCenter (containerFloatingSetDefaultSize (decorateFloating
      (workspaceAddFloating fo (containerDetach s c) w c) c) c) c, ?_, ?_⟩
  · rw [(onlyGeometry_containerFloatingResizeAndCenter _ c).tree,
      (onlyGeometry_containerFloatingSetDefaultSize _ c).tree, tree_decorateFloating]
  · -- the freed width only changes geometry
    have heven : ∀ u : State, (if 0 < (freedColumn s c).2 ∧ 0 ≤ (freedColumn s c).1 then
        workspaceEvenFreed u w (freedColumn s c).1 (freedColumn s c).2 else u).tree = u.tree := by
      intro u
      split
      · exact (onlyGeometry_workspaceEvenFreed u w _ _).tree
      · rfl
    unfold floatContainer
    cases hp : (s.tree.con c).parent with
    | none => exact Or.inl ⟨rfl, heven _⟩
    | some p => exact Or.inr ⟨p, _, rfl, heven _⟩

theorem moved_floatContainer (hs : s.tree.WellFormed) (hlt : c < s.tree.nextCon) (w : WsId) :
    Tree.Moved Nobody (· = c) s.tree (floatContainer fo s w c).tree := by
  have hout : Tree.TakenOut Nobody c s.tree (containerDetach s c).tree := by
    rw [tree_containerDetach]
    exact Tree.takenOut_detach hs c
  have hadd := (floated_workspaceAddFloating h hout hlt w).toMoved
  obtain ⟨u, hu, hcases⟩ := @floatContainer_cases fo s w c
  rw [← hu] at hadd
  rcases hcases with ⟨-, htree⟩ | ⟨p, b, -, htree⟩
  · rw [htree]
    exact hadd
  · rw [htree]
    exact moved_leaveFloatingParent h hadd c p b

/-- The container is then on a workspace. -/
theorem floatContainer_placed (hs : s.tree.WellFormed) (hlt : c < s.tree.nextCon) (w : WsId) :
    ((floatContainer fo s w c).tree.con c).workspace.isSome := by
  have hout : Tree.TakenOut Nobody c s.tree (containerDetach s c).tree := by
    rw [tree_containerDetach]
    exact Tree.takenOut_detach hs c
  have hadd := floated_workspaceAddFloating h hout hlt w
  obtain ⟨u, hu, hcases⟩ := @floatContainer_cases fo s w c
  rw [← hu] at hadd
  have hself : (u.tree.con c).workspace.isSome := hadd.placed c (Or.inl rfl)
  rcases hcases with ⟨-, htree⟩ | ⟨p, b, hp, htree⟩
  · rw [htree]
    exact hself
  · have hcp : s.tree.HangsBelow c p := Under.of_parent hp
    have hne : c ≠ p := by
      rintro rfl
      exact hs.forest.not_below_self c hcp
    have hpc : ¬ u.tree.HangsBelow p c := fun hb =>
      hs.forest.not_below_self c (hcp.trans (hb.mono fun e q hq => hadd.loosens e q hq))
    have hreap : ∀ v : State, v.tree = u.tree →
        ((containerReapEmpty fo v p).tree.con c).workspace.isSome := by
      intro v hv
      rw [containerReapEmpty_placed h (hv.symm ▸ hadd.wellFormed) hne (hv.symm ▸ hpc), hv]
      exact hself
    rw [htree]
    unfold leaveFloatingParent
    dsimp only
    split
    · exact hreap _ rfl
    · exact hreap _ rfl

theorem moved_containerSetFloating (hs : s.tree.WellFormed) (hlt : c < s.tree.nextCon) :
    Tree.Moved Nobody (· = c) s.tree (containerSetFloating fo s c true).tree := by
  unfold containerSetFloating
  split
  · exact Tree.Moved.refl hs
  · split
    · exact Tree.Moved.refl hs
    · simp only [if_true]
      exact moved_floatContainer h hs hlt _

theorem thins_disableFullscreen (s : State) (c : ConId) :
    Thins Nobody Nobody s.core (disableFullscreen fo s c).core := by
  unfold disableFullscreen
  split
  · exact thins_containerFullscreenDisable h s c
  · exact Thins.refl _

theorem thins_focusAfterScratchpad (s : State) (w : WsId) (parent : Option ConId) :
    Thins Nobody Nobody s.core (focusAfterScratchpad fo s w parent).core := by
  have hnone : ∀ (u : State) (node : Option Node), Thins Nobody Nobody u.core
      (fo.setFocus (arrangeWorkspace u w) (arrangeWorkspace u w).currentSeat node).core :=
    fun u node => (thins_arrangeWorkspace u w).trans (h.setFocus _ _ node)
  unfold focusAfterScratchpad
  cases parent with
  | none => exact hnone s _
  | some p =>
      refine (Thins.of_eq (onlyGeometry_arrangeContainer s p).core).trans ?_
      dsimp only
      split
      · exact h.setFocus _ _ _
      · exact hnone _ _

/-- **`root_scratchpad_add_container` keeps the tree well formed.** -/
theorem moved_rootScratchpadAddContainer (hs : s.tree.WellFormed) (hlt : c < s.tree.nextCon)
    (w : Option WsId) : Tree.Moved Nobody (· = c) s.tree (rootScratchpadAddContainer fo s c w).tree := by
  unfold rootScratchpadAddContainer
  split
  next old _ hold =>
    dsimp only
    set s₁ := disableFullscreen fo (setContainerTransform s old c) c with hs₁
    have h₁ : Tree.Moved Nobody (· = c) s.tree s₁.tree :=
      (Tree.Moved.refl hs).thins (thins_disableFullscreen h (setContainerTransform s old c) c)
    have hlt₁ := hlt.trans_le h₁.nextCon
    set s₂ := if containerIsFloating s₁.tree c then s₁ else
      containerFloatingMoveToCenter
        (containerFloatingSetDefaultSize (containerSetFloating fo s₁ c true) c) c with hs₂
    have h₂ : Tree.Moved Nobody (· = c) s.tree s₂.tree := by
      rw [hs₂]
      split
      · exact h₁
      · rw [(onlyGeometry_containerFloatingMoveToCenter _ c).tree,
          (onlyGeometry_containerFloatingSetDefaultSize _ c).tree]
        exact h₁.trans (moved_containerSetFloating h h₁.wellFormed hlt₁)
    set s₃ := (containerDetach s₂ c).modTree fun t =>
      { t.modCon c fun k => { k with scratchpad := true } with
        scratchpad := listAdd t.scratchpad c } with hs₃
    have h₃ : Tree.Moved Nobody (· = c) s.tree s₃.tree := by
      have hdet := h₂.trans (Tree.moved_detach h₂.wellFormed c)
      rw [hs₃, State.tree_modTree, tree_containerDetach]
      exact hdet.trans (moved_setScratchpad hdet.wellFormed c _)
    have hlt₃ := hlt.trans_le h₃.nextCon
    cases w with
    | none => exact h₃.thins (thins_focusAfterScratchpad h s₃ old _)
    | some w =>
        have hdetach : s₃.tree.Detachable c := by
          intro _
          rw [hs₃]
          simp [Tree.modCon]
        have hadd := moved_workspaceAddFloating h h₃.wellFormed hdetach hlt₃ w
        exact h₃.trans (hadd.mono (fun _ hd => hd.1) fun _ hd => hd)
  next => exact Tree.Moved.refl hs

/-! ## `container_replace` -/

omit h in
/-- The replacement can be put in the place of the container: it can be detached, or the container
has no place, or it gets one together with the replacement when it is shown. -/
def CanReplace (t : Tree) (c d : ConId) : Prop :=
  t.Detachable d ∨
    ((t.con c).parent = none ∧ (t.con c).workspace = none ∧
      ((t.con c).scratchpad = true → t.HangsBelow d c))

omit h in
/-- The containers that `container_replace` moves. -/
def Replaced (s : State) (c d : ConId) : ConId → Prop :=
  fun x => x = shownContainer s c ∨ x = c ∨ x = d

omit h in
/-- A tree in which the replacement can go beside the container. -/
structure Ready (s : State) (c d : ConId) (t : Tree) : Prop where
  moved : Tree.Moved Nobody (Replaced s c d) s.tree t
  apart : ¬ t.HangsBelow c d
  place : t.Detachable d ∨ (t.con c).parent = none ∧ (t.con c).workspace = none

omit h in
theorem ready_refl (hs : s.tree.WellFormed) (hcan : CanReplace s.tree c d)
    (hcd : ¬ s.tree.HangsBelow c d) : Ready s c d s.tree :=
  ⟨Tree.Moved.refl hs, hcd, hcan.imp_right fun hc => ⟨hc.1, hc.2.1⟩⟩

omit h in
/-- Thinning out without detaching leaves both containers where they are. -/
theorem Ready.thins {u v : State} (hr : Ready s c d u.tree) (hthins : Thins K Nobody u.core v.core) :
    Ready s c d v.tree := by
  have hwf := hr.moved.wellFormed
  have haside : ∀ x, Tree.Aside x u.tree v.tree := Tree.Thins.aside hthins hwf
  refine ⟨hr.moved.thins hthins, fun hb => hr.apart ((haside c).above d hb), ?_⟩
  refine hr.place.imp (haside d).detachable ?_
  rintro ⟨hp, hw⟩
  have hws : (v.tree.con c).workspace.isSome = (u.tree.con c).workspace.isSome :=
    Tree.Thins.workspace_isSome hthins hwf c
  refine ⟨(hthins.parent_eq hwf.linked c).trans hp, ?_⟩
  rw [hw] at hws
  simpa using hws

omit h in
/-- Showing the container puts it and everything below it on a workspace. -/
theorem ready_of_floated (hcan : CanReplace s.tree c d)
    (hcd : ¬ s.tree.HangsBelow c d) (hscratch : (s.tree.con c).scratchpad = true)
    (hf : Tree.Floated (shownContainer s c) s.tree t) : Ready s c d t := by
  refine ⟨hf.toMoved.mono (fun _ hl => hl) fun x hx => Or.inl hx, fun hb => hcd ?_, Or.inl ?_⟩
  · exact hb.mono fun e p hp => hf.loosens e p hp
  · by_cases hd : d = shownContainer s c ∨ s.tree.HangsBelow d (shownContainer s c)
    · intro hnone
      have hplaced := hf.placed d hd
      rw [hnone] at hplaced
      cases hplaced
    · have hne : d ≠ shownContainer s c := fun he => hd (Or.inl he)
      have hbelow : ¬ s.tree.HangsBelow d (shownContainer s c) := fun hb => hd (Or.inr hb)
      refine (hf.aside d (Tree.Apart.of_single hne hbelow)).detachable (hcan.resolve_right ?_)
      rintro ⟨hp, hw, hin⟩
      -- a hidden container without a parent is the one that is shown
      have hshown : shownContainer s c = c := by
        unfold shownContainer
        rw [hw]
        exact Tree.toplevel_of_top hp
      exact hbelow (hshown.symm ▸ hin hscratch)

theorem moved_replaceLinks (hs : s.tree.WellFormed) (hlt : d < s.tree.nextCon) (hne : c ≠ d)
    (hcd : ¬ s.tree.HangsBelow c d)
    (hplace : s.tree.Detachable d ∨ (s.tree.con c).parent = none ∧
      (s.tree.con c).workspace = none) :
    Tree.Moved Nobody (fun x => x = c ∨ x = d) s.tree (replaceLinks fo s c d).tree := by
  unfold replaceLinks
  split
  next hin =>
    have hd : s.tree.Detachable d := by
      refine hplace.resolve_right ?_
      rintro ⟨hp, hw⟩
      rw [hp, hw] at hin
      simp at hin
    have hadd : Tree.Moved Nobody (fun x => x = c ∨ x = d) s.tree
        (containerAddSibling fo s c d true).tree :=
      (moved_containerAddSibling h hs hd hlt ⟨hne, hcd⟩ true).mono (fun _ hl => hl)
        fun _ hx => Or.inr hx
    dsimp only
    rw [(OnlyGeometry.modGeo _ d _).tree, tree_containerDetach]
    exact hadd.trans ((Tree.moved_detach hadd.wellFormed c).mono (fun _ hl => hl)
      fun _ hx => Or.inl hx)
  next => exact Tree.Moved.refl hs

theorem thins_takeFullscreen (s : State) (d : ConId) (mode : FullscreenMode) :
    Thins Nobody Nobody s.core (takeFullscreen fo s d mode).core := by
  cases mode with
  | none => exact Thins.refl _
  | workspace => exact thins_containerFullscreenWorkspace h s d
  | global => exact thins_containerFullscreenGlobal h s d

/-- The part of `container_replace` before the links are exchanged. -/
theorem ready_beforeReplace (hs : s.tree.WellFormed) (hltc : c < s.tree.nextCon)
    (hcan : CanReplace s.tree c d) (hcd : ¬ s.tree.HangsBelow c d) :
    Ready s c d (if (s.tree.con c).scratchpad then
      rootScratchpadRemoveContainer (rootScratchpadShow fo (disableFullscreen fo s c) c) c
      else disableFullscreen fo s c).tree := by
  have hthins := thins_disableFullscreen h s c
  have hready := (ready_refl hs hcan hcd).thins hthins
  split
  next hscratch =>
    set s₁ := disableFullscreen fo s c with hs₁
    have hshow : Ready s c d (rootScratchpadShow fo s₁ c).tree := by
      cases hw : seatGetFocusedWorkspace s₁ s₁.currentSeat with
      | none =>
          have hnoop : rootScratchpadShow fo s₁ c = s₁ := by
            unfold rootScratchpadShow
            rw [hw]
          rw [hnoop]
          exact hready
      | some w =>
          have hf := floated_rootScratchpadShow h hready.moved.wellFormed
            (hltc.trans_le hready.moved.nextCon) hw
          rw [Thins.shownContainer hthins hs c] at hf
          exact ready_of_floated hcan hcd hscratch (Tree.Floated.after hs hthins hf)
    exact hshow.thins (thins_rootScratchpadRemoveContainer _ c)
  next => exact hready

/-- **`container_replace` keeps the tree well formed**, when the replacement can be put in the
place of the container. -/
theorem moved_containerReplace (hs : s.tree.WellFormed) (hltc : c < s.tree.nextCon)
    (hltd : d < s.tree.nextCon) (hne : c ≠ d) (hcd : ¬ s.tree.HangsBelow c d)
    (hcan : CanReplace s.tree c d) :
    Tree.Moved Nobody (Replaced s c d) s.tree (containerReplace fo s c d).tree := by
  have hready := ready_beforeReplace h hs hltc hcan hcd
  unfold containerReplace
  dsimp only
  refine Tree.Moved.thins ?_ (thins_takeFullscreen h _ d _)
  generalize (if (s.tree.con c).scratchpad then
      rootScratchpadRemoveContainer (rootScratchpadShow fo (disableFullscreen fo s c) c) c
      else disableFullscreen fo s c) = s₂ at hready ⊢
  have hlinks : Tree.Moved Nobody (Replaced s c d) s.tree (replaceLinks fo s₂ c d).tree :=
    hready.moved.trans ((moved_replaceLinks h hready.moved.wellFormed
      (hltd.trans_le hready.moved.nextCon) hne hready.apart hready.place).mono (fun _ hl => hl)
        fun _ hx => Or.inr hx)
  split
  · exact hlinks.trans ((moved_rootScratchpadAddContainer h hlinks.wellFormed
      (hltd.trans_le hlinks.nextCon) _).mono (fun _ hl => hl) fun _ hx => Or.inr (Or.inr hx))
  · exact hlinks

/-! ## `container_flatten` -/

omit h in
/-- A container that can be detached can be replaced by its child. -/
theorem canReplace_child (hs : s.tree.WellFormed) (hc : s.tree.Detachable c)
    (hd : (s.tree.con d).parent = some c) : CanReplace s.tree c d := by
  cases hw : (s.tree.con c).workspace with
  | none => exact Or.inr ⟨hc hw, hw, fun _ => Under.of_parent hd⟩
  | some w =>
      refine Or.inl fun hnone => ?_
      rw [hs.below d c hd, hw] at hnone
      cases hnone

/-- The loop of `container_flatten` goes up from a container that can be detached to its parent,
which can be detached too. -/
theorem wellFormed_flattenLoop (n : Nat) (o : Option ConId) (hs : s.tree.WellFormed)
    (ho : ∀ c, o = some c → c < s.tree.nextCon ∧
      ((s.tree.con c).children.length = 1 → s.tree.Detachable c)) :
    (flattenLoop fo n s o).tree.WellFormed := by
  induction n generalizing s o with
  | zero => exact hs
  | succ n ih =>
      cases o with
      | none => exact hs
      | some c =>
          obtain ⟨hlt, hc⟩ := ho c rfl
          unfold flattenLoop
          split
          next d hk =>
            have hc : s.tree.Detachable c := hc (hk ▸ rfl)
            have hd : (s.tree.con d).parent = some c :=
              hs.linked.of_children (hk ▸ List.mem_singleton_self d)
            have hbelow : s.tree.HangsBelow d c := Under.of_parent hd
            have hltd : d < s.tree.nextCon := by
              by_contra hge
              have hnone := (hs.unused d (Nat.not_lt.mp hge)).1
              rw [hd] at hnone
              cases hnone
            have hne : c ≠ d := by
              rintro rfl
              exact hs.forest.not_below_self c hbelow
            have hcd : ¬ s.tree.HangsBelow c d :=
              fun hb => hs.forest.not_below_self c (hb.trans hbelow)
            have hreplace := moved_containerReplace h hs hlt hltd hne hcd
              (canReplace_child hs hc hd)
            have hdestroy : Tree.Moved Nobody (Replaced s c d) (containerReplace fo s c d).tree
                (containerBeginDestroy fo (containerReplace fo s c d) c).tree :=
              (moved_containerBeginDestroy h hreplace.wellFormed c).mono (fun _ hl => hl)
                fun _ hx => Or.inr (Or.inl hx)
            have hmoved := hreplace.trans hdestroy
            refine ih _ hmoved.wellFormed fun p hp => ?_
            -- the parent is above all that moves, so it is left aside
            have hcp : s.tree.HangsBelow c p := Under.of_parent hp
            have hplaced : (s.tree.con c).workspace ≠ none := by
              intro hnone
              have htop := hc hnone
              rw [hp] at htop
              cases htop
            have hshown : shownContainer s c = c := by
              unfold shownContainer
              rw [if_pos (Option.isSome_iff_ne_none.mpr hplaced)]
            have hapart : s.tree.Apart (Replaced s c d) p := by
              have hself := hs.forest.not_below_self
              have hpc : p ≠ c ∧ ¬ s.tree.HangsBelow p c := by
                refine ⟨?_, fun hb => hself p (hb.trans hcp)⟩
                rintro rfl
                exact hself p hcp
              rintro x (rfl | rfl | rfl)
              · rw [hshown]
                exact hpc
              · exact hpc
              · refine ⟨?_, fun hb => hself p (hb.trans (hbelow.trans hcp))⟩
                rintro rfl
                exact hself p (hbelow.trans hcp)
            refine ⟨(hs.forest.above_lt hcp).trans_le hmoved.nextCon, fun _ => ?_⟩
            refine (hmoved.aside p hapart).detachable fun hnone => absurd ?_ hplaced
            rw [hs.below c p hp, hnone]
          next => exact hs

/-- **`container_flatten` keeps the tree well formed**, when a container that it replaces can be
detached. -/
theorem wellFormed_containerFlatten (hs : s.tree.WellFormed) (hlt : c < s.tree.nextCon)
    (hc : (s.tree.con c).view = none → (s.tree.con c).children.length = 1 → s.tree.Detachable c) :
    (containerFlatten fo s c).tree.WellFormed := by
  unfold containerFlatten
  split
  next => exact hs
  next hview =>
    refine wellFormed_flattenLoop h _ _ hs ?_
    rintro d ⟨rfl⟩
    exact ⟨hlt, hc (by simpa using hview)⟩

end Thinning

end Swirl
