import Swirl.Tree.RowOperations

set_option autoImplicit false

/-! # Dropping a window

`workspace_insert_window` on workspaces of columns. A window that is dropped beside another window,
or beside a column, ends up in exactly one column, every other window keeps its column, and no
`list_insert` is out of range. The index of a drop into a column is counted from the target when
the target is a window of the column, and from the end of the column when the target is the column
itself; `after` is added in both cases, which is one too many in the second.
-/

namespace Swirl

open Lib

/-! ## What a step leaves alone -/

/-- Only the containers in `D` may have another parent, and no list insertion went wrong. -/
structure Rehung (D : ConId → Prop) (s s' : State) : Prop where
  faults : s'.faults = s.faults
  parent : ∀ x, ¬ D x → (s'.tree.con x).parent = (s.tree.con x).parent

section Rehung

variable {D : ConId → Prop} {K : ConId → Prop} {s s' s'' : State} {c p : ConId} {i : Int}

theorem Rehung.refl (s : State) : Rehung D s s := ⟨rfl, fun _ _ => rfl⟩

theorem Rehung.trans (h : Rehung D s s') (h' : Rehung D s' s'') : Rehung D s s'' :=
  ⟨h'.faults.trans h.faults, fun x hx => (h'.parent x hx).trans (h.parent x hx)⟩

theorem Rehung.of_nobody (h : Rehung Nobody s s') : Rehung D s s' :=
  ⟨h.faults, fun x _ => h.parent x id⟩

theorem Rehung.of_geometry (h : OnlyGeometry s s') : Rehung D s s' := by
  refine ⟨congrArg Core.faults h.core, fun x _ => ?_⟩
  rw [h.tree]

theorem Rehung.of_thins (h : Thins K Nobody s.core s'.core) (hs : s.tree.Linked) :
    Rehung D s s' :=
  ⟨h.frame.faults, fun x _ => h.parent_eq hs x⟩

theorem rehung_containerDetach (s : State) (c : ConId) : Rehung (· = c) s (containerDetach s c) := by
  refine ⟨?_, fun x hx => ?_⟩
  · exact congrArg Core.faults (core_containerDetach s c)
  · rw [tree_containerDetach, Tree.detach_parent, if_neg hx]

theorem rehung_unpark (s : State) (c : ConId) : Rehung D s (unpark s c) := by
  refine ⟨?_, fun x _ => by rw [tree_unpark]⟩
  unfold unpark workspaceMinimizedRemove
  split
  · split <;> rfl
  · rfl

/-- A container is put into a list, where the list can take it. -/
theorem rehung_attach {r : Tree.ListRef} (hi : InsertOk (s.tree.items r) i)
    (hbare : ∀ p, r = .children p → (s.tree.con p).view = none) (c : ConId) :
    Rehung (· = c) s (s.attach r i c) := by
  refine ⟨congrArg Core.faults (core_attach c hi hbare), fun x hx => ?_⟩
  rw [tree_attach, Tree.attach_parent, if_neg hx]

/-- A container that has no parent before and after is no exception. -/
theorem Rehung.of_top (h : Rehung (· = c) s s') (hc : (s.tree.con c).parent = none)
    (hc' : (s'.tree.con c).parent = none) : Rehung D s s' := by
  refine ⟨h.faults, fun x _ => ?_⟩
  by_cases hx : x = c
  · rw [hx, hc, hc']
  · exact h.parent x hx

end Rehung

/-! ## New columns and the row -/

section Rows

variable {fo : FocusOps} (h : FocusThins fo) {D L : ConId → Prop} {s : State} {c d p : ConId}
  {w : WsId} {i : Int}

theorem rehung_createColumn (hs : s.tree.WellFormed) (w : Option WsId) :
    Rehung D s (createColumn s w) := by
  refine ⟨?_, fun x _ => ?_⟩
  · show (containerCreate s none).faults = s.faults
    unfold containerCreate
    exact congrArg Core.faults (core_emitNewNode _ _)
  · rw [tree_createColumn]
    by_cases hx : x = s.tree.nextCon
    · subst hx
      rw [(Tree.fresh_createLoose hs w).free.parent, (hs.unused _ le_rfl).1]
    · rw [Tree.createLoose_con w hx]

include h

/-- A container becomes the last child of one that is not a view. -/
theorem rehung_containerAddChild (hs : s.tree.WellFormedBut L) (hc : s.tree.Detachable c)
    (hlt : c < s.tree.nextCon) (hp : p ≠ c ∧ ¬ s.tree.HangsBelow p c ∧ p < s.tree.nextCon)
    (hbare : (s.tree.con p).view = none) :
    Rehung (· = c) s (containerAddChild fo s p c) ∧
      ((containerAddChild fo s p c).tree.con c).parent = some p := by
  have htaken := takenOut_detachIfPlaced hs hc
  have hleft : Rehung (· = c) s (detachIfPlaced s c) := by
    unfold detachIfPlaced
    split
    · exact rehung_containerDetach s c
    · exact Rehung.refl s
  have hview : ((detachIfPlaced s c).tree.con p).view = none := by
    rw [← hbare]
    unfold detachIfPlaced
    split
    · rw [tree_containerDetach]
      exact (Tree.rewired_detach s.tree c).view p
    · rfl
  unfold containerAddChild
  dsimp only
  generalize detachIfPlaced s c = u at htaken hleft hview ⊢
  have hput : Rehung (· = c) u (u.attachLast (.children p) c) :=
    rehung_attach (insertOk_length _) (fun q hq => by cases hq; exact hview) c
  have hwf : (u.attachLast (.children p) c).tree.Linked := by
    unfold State.attachLast
    rw [tree_attach]
    exact (htaken.attach hlt (htaken.takes (insertOk_length _) fun q hq => by
      cases hq
      exact hp)).wellFormed.linked
  have hparent : ((u.attachLast (.children p) c).tree.con c).parent = some p := by
    unfold State.attachLast
    rw [tree_attach, Tree.attach_parent, if_pos rfl]
    rfl
  have hthins := thins_containerHandleFullscreenReparent h (u.attachLast (.children p) c) c
  refine ⟨((hleft.trans hput).trans (.of_thins hthins hwf)).trans
    (.of_geometry (onlyGeometry_containerFitVerticalChildren _ _ c)), ?_⟩
  rw [(onlyGeometry_containerFitVerticalChildren _ _ c).tree]
  exact (hthins.parent_eq hwf c).trans hparent

/-- A view gets a column of its own. -/
theorem rehung_workspaceCreateNewColumnAt (hs : s.tree.WellFormed) (hc : s.tree.Detachable c)
    (hlt : c < s.tree.nextCon) (w : WsId) (i : Int) :
    Rehung (· = c) s (workspaceCreateNewColumnAt fo s w c i) ∧
      ((workspaceCreateNewColumnAt fo s w c i).tree.con c).parent = some s.tree.nextCon := by
  have hcol := Tree.fresh_createLoose hs (some w)
  rw [← tree_createColumn] at hcol
  have hcon : (createColumn s (some w)).tree.con c = s.tree.con c := by
    rw [tree_createColumn, Tree.createLoose_con _ hlt.ne]
  have hdetach : (createColumn s (some w)).tree.Detachable c := by
    unfold Tree.Detachable
    rw [hcon]
    exact hc
  have hview : ((createColumn s (some w)).tree.con s.tree.nextCon).view = none := by
    rw [tree_createColumn]
    simp [Tree.createLoose, Tree.modCon, Tree.create_con]
  obtain ⟨hadd, hparent⟩ := rehung_containerAddChild h hcol.wellFormed hdetach (hlt.trans hcol.lt)
    ⟨hlt.ne', Tree.not_hangsBelow_of_top hcol.free.parent, hcol.lt⟩ hview
  unfold workspaceCreateNewColumnAt workspaceCreateNewColumn
  dsimp only
  refine ⟨((rehung_createColumn hs _).trans hadd).trans ?_, ?_⟩
  · exact (Rehung.of_geometry (onlyGeometry_columnSetWidthPx _ _ _)).trans
      (.of_geometry (OnlyGeometry.modGeo _ c _))
  · rw [(OnlyGeometry.modGeo _ c _).tree, (onlyGeometry_columnSetWidthPx _ _ _).tree]
    exact hparent

/-- A container from outside comes into a row. -/
theorem rehung_placeInRow_of_fresh (hs : s.tree.Fresh c) (w : WsId) (i : Int) :
    Rehung D s (placeInRow fo s w c i) := by
  have hok := insertOk_clampIndex (s.tree.ws w).tiling i
  have hput : Rehung (· = c) s (s.attach (.tiling w) (clampIndex i (s.tree.ws w).tiling.length) c) :=
    rehung_attach (r := .tiling w) hok (fun p hp => by cases hp) c
  rw [placeInRow_of_fresh hs]
  refine (hput.of_top hs.free.parent ?_).trans
    (.of_thins (thins_containerHandleFullscreenReparent h _ c) ?_)
  · rw [tree_attach, Tree.attach_parent, if_pos rfl]
    exact hs.free.parent
  · rw [tree_attach]
    exact (hs.attach w hok).linked

theorem rehung_placeInRow_of_mem (hs : s.tree.WellFormed) (hc : c ∈ (s.tree.ws w).tiling)
    (i : Int) : Rehung D s (placeInRow fo s w c i) := by
  rcases placeInRow_of_mem hs hc i with ⟨-, heq⟩ | ⟨-, hok, heq⟩
  · rw [heq]
    exact Rehung.refl s
  · rw [heq]
    set u := s.modTree fun t => t.modList (.tiling w) fun l => l.erase c with hu
    have hparent : ∀ x, (u.tree.con x).parent = (s.tree.con x).parent := by
      intro x
      rw [hu, State.tree_modTree, Tree.con_modList_parent]
    have hitems : (u.tree.ws w).tiling = (s.tree.ws w).tiling.erase c := by
      show u.tree.items (.tiling w) = _
      rw [hu, State.tree_modTree, Tree.items_modList_self]
      rfl
    have hput : Rehung (· = c) u (u.attach (.tiling w) (moveIndex (s.tree.ws w).tiling c i) c) :=
      rehung_attach (by rw [← hitems] at hok; exact hok) (fun p hp => by cases hp) c
    have htop : (u.tree.con c).parent = none := (hparent c).trans (hs.linked.of_tiling hc).1
    have herase : Rehung D s u := ⟨rfl, fun x _ => hparent x⟩
    refine (herase.trans (hput.of_top htop ?_)).trans
      (.of_thins (thins_containerHandleFullscreenReparent h _ c) ?_)
    · rw [tree_attach, Tree.attach_parent, if_pos rfl]
      exact htop
    · rw [tree_attach]
      exact (hs.reinsert hc hok).linked

/-- A column that hangs nowhere, or on another workspace, comes into a row. -/
theorem rehung_settle_of_fresh (hs : s.tree.Fresh c) (w : WsId) (i : Int) :
    Rehung D s (placeInRow fo
      (match (s.tree.con c).workspace with
        | some w' => if w' ≠ w then containerDetach s c else s
        | none => s) w c i) := by
  split
  · split
    · have hout : (containerDetach s c).tree.Fresh c := by
        rw [tree_containerDetach]
        exact hs.detach
      exact ((rehung_containerDetach s c).of_top hs.free.parent hout.free.parent).trans
        (rehung_placeInRow_of_fresh h hout w i)
    · exact rehung_placeInRow_of_fresh h hs w i
  · exact rehung_placeInRow_of_fresh h hs w i

/-- `workspace_insert_column`, of a window that hangs nowhere. -/
theorem rehung_workspaceInsertColumn_view (hs : s.tree.WellFormed) (hc : s.tree.Free c)
    (hlt : c < s.tree.nextCon) (hv : (s.tree.con c).view.isSome) (w : WsId) (i : Int) :
    Rehung (· = c) s (workspaceInsertColumn fo s w c i) ∧
      ((workspaceInsertColumn fo s w c i).tree.con c).parent.isSome := by
  have htree := tree_unpark s c
  have hleave : leaveParent fo (unpark s c) c = unpark s c := by
    unfold leaveParent
    rw [htree, hc.parent]
  unfold workspaceInsertColumn
  dsimp only
  rw [hleave, htree]
  simp only [if_pos hv]
  have hs₀ : (unpark s c).tree.WellFormed := htree.symm ▸ hs
  have hdet : (unpark s c).tree.Detachable c := fun _ => htree.symm ▸ hc.parent
  have hlt₀ : c < (unpark s c).tree.nextCon := htree.symm ▸ hlt
  obtain ⟨hcol, hparent⟩ := rehung_workspaceCreateNewColumnAt h hs₀ hdet hlt₀ w i
  have hfresh := fresh_workspaceCreateNewColumnAt h hs₀ hdet hlt₀ w i
  rw [htree] at hfresh hparent
  generalize workspaceCreateNewColumnAt fo (unpark s c) w c i = u at hcol hparent hfresh ⊢
  have hsettle : Rehung Nobody u _ := rehung_settle_of_fresh h hfresh w i
  refine ⟨((rehung_unpark s c).trans hcol).trans hsettle.of_nobody, ?_⟩
  exact congrArg Option.isSome ((hsettle.parent c id).trans hparent)

/-- `workspace_insert_column`, of a column. -/
theorem rehung_workspaceInsertColumn_column (hs : s.tree.WellFormed) {v : WsId}
    (hc : c ∈ (s.tree.ws v).tiling) (hv : (s.tree.con c).view = none) (w : WsId) (i : Int) :
    Rehung D s (workspaceInsertColumn fo s w c i) := by
  have htree := tree_unpark s c
  obtain ⟨htop, hws⟩ := hs.linked.of_tiling hc
  have hlt := hs.lt_of_workspace hws
  have hleave : leaveParent fo (unpark s c) c = unpark s c := by
    unfold leaveParent
    rw [htree, htop]
  unfold workspaceInsertColumn
  dsimp only
  rw [hleave, htree]
  simp only [hv, Option.isSome_none, Bool.false_eq_true, if_false]
  rw [htree, hws]
  dsimp only
  refine (rehung_unpark s c).trans ?_
  split
  next =>
    have hout : (containerDetach (unpark s c) c).tree.Fresh c := by
      rw [tree_containerDetach, htree]
      exact Tree.fresh_detach hs c hlt
    exact ((rehung_containerDetach _ c).of_top (htree.symm ▸ htop) hout.free.parent).trans
      (rehung_placeInRow_of_fresh h hout w i)
  next hvw =>
    obtain rfl := not_not.mp hvw
    exact rehung_placeInRow_of_mem h (htree.symm ▸ hs) (htree.symm ▸ hc) i

/-! ## The paths of a drop -/

omit h in
theorem rehung_listInsertAt {r : Tree.ListRef} (hi : InsertOk (s.tree.items r) i)
    (hbare : ∀ p, r = .children p → (s.tree.con p).view = none) (c : ConId) :
    Rehung D s (s.listInsertAt r i c) := by
  unfold State.listInsertAt
  rw [core_checkInsert hi hbare]
  refine ⟨rfl, fun x _ => ?_⟩
  rw [State.tree_modTree, Tree.con_modList_parent]

omit h in
theorem rehung_modList (s : State) (r : Tree.ListRef) (f : List ConId → List ConId) :
    Rehung D s (s.modTree fun t => t.modList r f) := by
  refine ⟨rfl, fun x _ => ?_⟩
  rw [State.tree_modTree, Tree.con_modList_parent]

omit h in
theorem rehung_reorderWindow (s : State) {col : ConId} (hbare : (s.tree.con col).view = none)
    (a b : ConId) (edge : Edge) (after : Bool) :
    Rehung D s (reorderWindow s col a b edge after) := by
  unfold reorderWindow
  dsimp only
  split
  · exact Rehung.refl s
  · split
    · exact rehung_modList s _ _
    · have hdel := rehung_modList (D := D) s (.children col)
        fun l => listDel l (listFind (s.tree.con col).children a)
      have hview : ((s.modTree fun t => t.modList (.children col) fun l =>
          listDel l (listFind (s.tree.con col).children a)).tree.con col).view = none :=
        ((Tree.rewired_modList s.tree (.children col) _).view col).trans hbare
      generalize (s.modTree fun t => t.modList (.children col) fun l =>
        listDel l (listFind (s.tree.con col).children a)) = u at hdel hview ⊢
      split
      next hfound =>
        have hmem := listFind_nonneg.mp hfound
        have hlast := listFind_lt_length hmem
        refine hdel.trans (rehung_listInsertAt ?_ (fun p hp => by cases hp; exact hview) a)
        show InsertOk (u.tree.con col).children _
        constructor <;> split <;> omega
      next => exact hdel

omit h in
/-- The index of a drop into a column is in range unless the target is no window of the column and
the drop is after it. -/
theorem insertOk_insertIntoColumn (l : List ConId) (d : ConId) (after : Bool) :
    InsertOk l ((if listFind l d < 0 then (if after then (l.length : Int) else 0)
      else listFind l d) + if after then 1 else 0) ↔ (after = true → d ∈ l) := by
  by_cases hd : d ∈ l
  · have hfound := listFind_nonneg.mpr hd
    have hlast := listFind_lt_length hd
    refine iff_of_true ?_ fun _ => hd
    rw [if_neg (by omega)]
    constructor <;> split <;> omega
  · have hnone := listFind_of_not_mem hd
    rw [hnone]
    cases after with
    | true =>
        refine iff_of_false ?_ fun hmem => hd (hmem rfl)
        rintro ⟨-, hle⟩
        simp at hle
    | false => exact iff_of_true ⟨by simp, by simp⟩ fun hmem => absurd hmem (by simp)

omit h in
theorem rehung_insertIntoColumn {col : ConId} (hbare : (s.tree.con col).view = none)
    {after : Bool} (hlast : after = true → d ∈ (s.tree.con col).children) :
    Rehung (· = c) s (insertIntoColumn s col c d after) ∧
      ((insertIntoColumn s col c d after).tree.con c).parent = some col := by
  have hok := (insertOk_insertIntoColumn (s.tree.con col).children d after).mpr hlast
  unfold insertIntoColumn
  dsimp only
  have hput := rehung_attach (r := .children col) hok (fun p hp => by cases hp; exact hbare) c
  refine ⟨hput.trans (.of_geometry (onlyGeometry_containerFitVerticalChildren _ _ c)), ?_⟩
  rw [(onlyGeometry_containerFitVerticalChildren _ _ c).tree, tree_attach, Tree.attach_parent,
    if_pos rfl]
  rfl

omit h in
/-- An insertion out of range is recorded. -/
theorem insertIntoColumn_faults {col : ConId} (hd : d ∉ (s.tree.con col).children) :
    (insertIntoColumn s col c d true).faults ≠ s.faults := by
  have hbad : ¬ InsertOk (s.tree.con col).children
      ((if listFind (s.tree.con col).children d < 0 then
        (if true then ((s.tree.con col).children.length : Int) else 0)
        else listFind (s.tree.con col).children d) + if true then 1 else 0) :=
    fun hok => hd ((insertOk_insertIntoColumn _ d true).mp hok rfl)
  unfold insertIntoColumn
  dsimp only
  generalize ((if listFind (s.tree.con col).children d < 0 then
    (if true then ((s.tree.con col).children.length : Int) else 0)
    else listFind (s.tree.con col).children d) + if true then 1 else 0) = j at hbad ⊢
  have hfaults : ∀ u : State, (containerFitVerticalChildren u (some col) c).faults = u.faults :=
    fun u => congrArg Core.faults (onlyGeometry_containerFitVerticalChildren u _ c).core
  rw [hfaults]
  show (s.checkInsert (.children col) j).faults ≠ s.faults
  have hcheck : ∀ u : State, u.tree = s.tree → s.faults.length ≤ u.faults.length →
      (if InsertOk (u.tree.items (.children col)) j then u
        else u.fault (.insertRange j (u.tree.items (.children col)).length)).faults ≠ s.faults := by
    intro u hu hlen heq
    rw [if_neg (by rw [hu]; exact hbad)] at heq
    have hlonger := congrArg List.length heq
    unfold State.fault at hlonger
    rw [List.length_append, List.length_singleton] at hlonger
    omega
  unfold State.checkInsert
  dsimp only
  split
  · refine hcheck _ rfl ?_
    show s.faults.length ≤ (s.faults ++ [_]).length
    simp
  · exact hcheck s rfl le_rfl

/-- Destroying a top-level container changes no parent. -/
theorem rehung_containerBeginDestroy_top (hs : s.tree.Linked) (hc : (s.tree.con c).parent = none) :
    Rehung D s (containerBeginDestroy fo s c) := by
  have hthins := thins_beforeDetach h s c
  have hbefore : Rehung D s (beforeDetach fo s c) := .of_thins hthins hs
  have htop : ((beforeDetach fo s c).tree.con c).parent = none := (hthins.parent_eq hs c).trans hc
  rw [containerBeginDestroy_eq]
  dsimp only
  split
  · refine hbefore.trans ((rehung_containerDetach _ c).of_top htop ?_)
    rw [tree_containerDetach, Tree.detach_parent_self]
  · exact hbefore

/-- An empty column goes. -/
theorem rehung_reapOldParent (hs : s.tree.Linked) (hp : (s.tree.con p).parent = none) :
    Rehung D s (reapOldParent fo s (some p)) := by
  have hdestroy : Rehung D s (containerBeginDestroy fo s p) :=
    rehung_containerBeginDestroy_top h hs hp
  have hlinked : (containerBeginDestroy fo s p).tree.Linked :=
    (thins_containerBeginDestroy h s p).linked hs
  have hempty : ∀ (w : Option WsId) (n : Nat) (u : State), u.tree.Linked →
      Rehung D u (reapEmpty fo w n u none) := by
    intro w n u hu
    cases n with
    | zero => exact .of_thins (thins_considerDestroy h u w) hu
    | succ n => exact .of_thins (thins_considerDestroy h u w) hu
  unfold reapOldParent
  dsimp only
  split
  next hk =>
    unfold containerReapEmpty
    split
    · exact Rehung.refl s
    · rw [reapEmpty, if_pos hk, hp]
      exact hdestroy.trans (hempty _ _ _ hlinked)
  next => exact Rehung.refl s

end Rows

/-! ## The drop -/

/-- A workspace whose row holds columns of windows only. -/
structure ColumnRow (t : Tree) (w : WsId) : Prop where
  bare : ∀ col ∈ (t.ws w).tiling, (t.con col).view = none
  filled : ∀ col ∈ (t.ws w).tiling, (t.con col).children ≠ []
  views : ∀ col ∈ (t.ws w).tiling, ∀ d ∈ (t.con col).children, (t.con d).view.isSome

/-- What a drop is to do: insert in range, put the window into one column and leave the others. -/
structure Drops (s s' : State) (view : ConId) : Prop where
  inRange : s'.faults = s.faults
  placed : ∃! p, view ∈ (s'.tree.con p).children
  others : ∀ x, x ≠ view → (s.tree.con x).view.isSome →
    ∀ p, x ∈ (s'.tree.con p).children ↔ x ∈ (s.tree.con p).children

theorem drops_of_rehung {s s' : State} {view : ConId} (hs : s.tree.WellFormed)
    (hs' : s'.tree.WellFormed) (h : Rehung (· = view) s s')
    (hplaced : (s'.tree.con view).parent.isSome) : Drops s s' view := by
  have hagree : ∀ {t : Tree}, t.WellFormed → ∀ x p, x ∈ (t.con p).children ↔
      (t.con x).parent = some p := fun ht x p => ⟨ht.linked.of_children, ht.child x p⟩
  obtain ⟨p, hp⟩ := Option.isSome_iff_exists.mp hplaced
  refine ⟨h.faults, ⟨p, (hagree hs' view p).mpr hp, fun q hq => ?_⟩, fun x hx _ p => ?_⟩
  · exact Option.some.inj (((hagree hs' view q).mp hq).symm.trans hp)
  · rw [hagree hs', hagree hs, h.parent x hx]

section Drop

variable {t : Tree} {s : State} {w v : WsId} {view target col : ConId}

/-- The top-level ancestor of a window of a column is the column. -/
theorem Tree.WellFormedBut.toplevel_of_child {L : ConId → Prop} (h : t.WellFormedBut L)
    (hcol : (t.con col).parent = none) (hv : view ∈ (t.con col).children) :
    containerToplevelAncestor t view = col := by
  have hp := h.linked.of_children hv
  have htop := h.forest.toplevel_parent view
  rcases h.forest.toplevel_above view with heq | hb
  · rw [heq, hp] at htop
    cases htop
  · rcases hb.down hp with heq | hbelow
    · exact heq.symm
    · exact absurd hbelow (Tree.not_hangsBelow_of_top hcol)

/-- What a drop is about: a window of a column, and a window or a column of the workspace. -/
structure Draggable (t : Tree) (w : WsId) (view target : ConId) : Prop where
  source : ∃ v col, ColumnRow t v ∧ col ∈ (t.ws v).tiling ∧ view ∈ (t.con col).children
  row : ColumnRow t w
  onto : target ∈ (t.ws w).tiling ∨ ∃ col ∈ (t.ws w).tiling, target ∈ (t.con col).children

/-- The column of the target, which is on the workspace and is the target or has it as a child. -/
theorem Draggable.targetColumn (hd : Draggable t w view target) (ht : t.WellFormed) :
    containerToplevelAncestor t target ∈ (t.ws w).tiling ∧
      (target ∉ (t.ws w).tiling →
        target ∈ (t.con (containerToplevelAncestor t target)).children) := by
  rcases hd.onto with htop | ⟨col, hcol, hmem⟩
  · rw [Tree.toplevel_of_top (ht.linked.of_tiling htop).1]
    exact ⟨htop, fun h => absurd htop h⟩
  · rw [ht.toplevel_of_child (ht.linked.of_tiling hcol).1 hmem]
    exact ⟨hcol, fun _ => hmem⟩

/-- In range, a drop moves the dragged window only. -/
theorem rehung_workspaceInsertWindow {fo : FocusOps} (h : FocusThins fo)
    (hs : s.tree.WellFormed) (hd : Draggable s.tree w view target) {edge : Edge} {after : Bool}
    (hok : ¬ (target ∈ (s.tree.ws w).tiling ∧ edge.intoColumn = true ∧ after = true)) :
    Rehung (· = view) s (workspaceInsertWindow fo s w view target edge after) ∧
      ((workspaceInsertWindow fo s w view target edge after).tree.con view).parent.isSome := by
  obtain ⟨htcol, htarget⟩ := hd.targetColumn hs
  obtain ⟨v, col, hrow, hcol, hview⟩ := hd.source
  obtain ⟨hcoltop, hcolws⟩ := hs.linked.of_tiling hcol
  have hparent := hs.linked.of_children hview
  have hlt : view < s.tree.nextCon := hs.lt_of_workspace ((hs.below view col hparent).trans hcolws)
  have hkept : ∀ {u : State}, Rehung Nobody s u →
      Rehung (· = view) s u ∧ (u.tree.con view).parent.isSome := by
    intro u hu
    refine ⟨hu.of_nobody, ?_⟩
    rw [hu.parent view id, hparent]
    rfl
  unfold workspaceInsertWindow
  rw [hs.toplevel_of_child hcoltop hview]
  split
  next => exact hkept (Rehung.refl s)
  next hne =>
    dsimp only
    split
    next => exact hkept (rehung_reorderWindow s (hrow.bare col hcol) _ _ _ _)
    next hcols =>
      split
      next => exact hkept (rehung_workspaceInsertColumn_column h hs hcol (hrow.bare col hcol) w _)
      next =>
        -- the window leaves its column, which may be empty then
        have hout : (containerDetach s view).tree.Fresh view := by
          rw [tree_containerDetach]
          exact Tree.fresh_detach hs view hlt
        have hwf : (containerDetach s view).tree.WellFormed := by
          rw [tree_containerDetach]
          exact hs.detach view
        have hne' : col ≠ view := by
          rintro rfl
          rw [hcoltop] at hparent
          cases hparent
        have hreap : ∀ {u : State}, Rehung (· = view) (containerDetach s view) u →
            (u.tree.con view).parent.isSome → u.tree.Linked →
            Rehung (· = view) s (reapOldParent fo u (s.tree.con view).parent) ∧
              ((reapOldParent fo u (s.tree.con view).parent).tree.con view).parent.isSome := by
          intro u hu hplaced hlinked
          have hall := (rehung_containerDetach s view).trans hu
          have htop : (u.tree.con col).parent = none := (hall.parent col hne').trans hcoltop
          have hlast : Rehung Nobody u (reapOldParent fo u (some col)) :=
            rehung_reapOldParent h hlinked htop
          rw [hparent]
          refine ⟨hall.trans hlast.of_nobody, ?_⟩
          rw [hlast.parent view id]
          exact hplaced
        split
        next hedge =>
          have hmem : after = true → target ∈ (s.tree.con
              (containerToplevelAncestor s.tree target)).children :=
            fun ha => htarget fun hrow => hok ⟨hrow, hedge, ha⟩
          have htoptarget := (hs.linked.of_tiling htcol).1
          have hne'' : containerToplevelAncestor s.tree target ≠ view := by
            intro he
            rw [he, hparent] at htoptarget
            cases htoptarget
          have hbare : ((containerDetach s view).tree.con
              (containerToplevelAncestor s.tree target)).view = none := by
            rw [tree_containerDetach, (Tree.rewired_detach s.tree view).view]
            exact hd.row.bare _ htcol
          have hlast : after = true → target ∈ ((containerDetach s view).tree.con
              (containerToplevelAncestor s.tree target)).children := by
            intro ha
            rw [tree_containerDetach]
            show target ∈ (s.tree.detach view).items (.children _)
            rw [Tree.detach_items hs.linked]
            exact (List.mem_erase_of_ne (Ne.symm hne)).mpr (hmem ha)
          obtain ⟨hput, hplaced⟩ := rehung_insertIntoColumn (c := view) hbare hlast
          refine hreap hput (by rw [hplaced]; rfl) ?_
          refine (wellFormed_insertIntoColumn hwf hout.free hout.lt ?_ ?_ hlast).linked
          · rw [tree_containerDetach, (Tree.rewired_detach s.tree view).nextCon]
            exact hs.lt_of_workspace (hs.linked.of_tiling htcol).2
          · refine Tree.Apart.of_single hne'' (Tree.not_hangsBelow_of_top ?_)
            rw [tree_containerDetach, Tree.detach_parent, htoptarget, ite_self]
        next =>
          have hv : ((containerDetach s view).tree.con view).view.isSome := by
            rw [tree_containerDetach, (Tree.rewired_detach s.tree view).view]
            exact hrow.views col hcol view hview
          obtain ⟨hput, hplaced⟩ := rehung_workspaceInsertColumn_view h hwf hout.free hout.lt hv w
            (dropIndex (containerDetach s view) w (containerToplevelAncestor s.tree target) after)
          refine hreap hput hplaced ?_
          exact (wellFormed_workspaceInsertColumn h hwf hout.lt
            (fun _ => hout.free.unlisted (.floating w)) _).linked

/-- A drop into a column after something that is no window of it is out of range. -/
theorem workspaceInsertWindow_faults {fo : FocusOps} (h : FocusThins fo)
    (hs : s.tree.WellFormed) (hd : Draggable s.tree w view target) {edge : Edge}
    (htarget : target ∈ (s.tree.ws w).tiling) (hedge : edge.intoColumn = true) :
    (workspaceInsertWindow fo s w view target edge true).faults ≠ s.faults := by
  obtain ⟨v, col, hrow, hcol, hview⟩ := hd.source
  obtain ⟨hcoltop, -⟩ := hs.linked.of_tiling hcol
  have hparent := hs.linked.of_children hview
  have htop := (hs.linked.of_tiling htarget).1
  have hne : view ≠ target := by
    rintro rfl
    rw [htop] at hparent
    cases hparent
  have hout : target ∉ ((containerDetach s view).tree.con target).children := by
    intro hmem
    have hp := (tree_containerDetach s view ▸ hs.detach view).linked.of_children hmem
    rw [tree_containerDetach, Tree.detach_parent, htop, ite_self] at hp
    cases hp
  unfold workspaceInsertWindow
  rw [hs.toplevel_of_child hcoltop hview, Tree.toplevel_of_top htop, if_neg hne]
  dsimp only
  rw [if_neg fun hcols => hcols.2 hcols.1.symm, if_neg fun hsolo => by simp [hedge] at hsolo]
  simp only [hedge, if_true]
  have hput : (insertIntoColumn (containerDetach s view) target view target true).faults ≠
      s.faults := by
    have hdetach := (rehung_containerDetach s view).faults
    rw [← hdetach]
    exact insertIntoColumn_faults hout
  generalize insertIntoColumn (containerDetach s view) target view target true = u at hput ⊢
  rw [hparent]
  unfold reapOldParent
  dsimp only
  split
  · rw [← core_faults, (thins_containerReapEmpty h u col).frame.faults]
    exact hput
  · exact hput

/-- **A drop does what it is to do unless it goes into a column after the column itself.** -/
theorem workspaceInsertWindow_drops_iff (n : Nat) (s : State) (w : WsId) (view target : ConId)
    (edge : Edge) (after : Bool) (hs : s.tree.WellFormed)
    (hd : Draggable s.tree w view target) :
    Drops s (workspaceInsertWindow (focusOps n) s w view target edge after) view ↔
      ¬ (target ∈ (s.tree.ws w).tiling ∧ edge.intoColumn = true ∧ after = true) := by
  have h := focusThins_focusOps n
  constructor
  · rintro hdrops ⟨htarget, hedge, rfl⟩
    exact workspaceInsertWindow_faults h hs hd htarget hedge hdrops.inRange
  · intro hok
    obtain ⟨htcol, htarget⟩ := hd.targetColumn hs
    obtain ⟨v, col, hrow, hcol, hview⟩ := hd.source
    obtain ⟨hcoltop, hcolws⟩ := hs.linked.of_tiling hcol
    have hparent := hs.linked.of_children hview
    have hlt : view < s.tree.nextCon :=
      hs.lt_of_workspace ((hs.below view col hparent).trans hcolws)
    have hlttarget : target < s.tree.nextCon := by
      rcases hd.onto with htop | ⟨tcol, htcol, hmem⟩
      · exact hs.lt_of_workspace (hs.linked.of_tiling htop).2
      · exact hs.lt_of_workspace ((hs.below target tcol (hs.linked.of_children hmem)).trans
          (hs.linked.of_tiling htcol).2)
    obtain ⟨hmoved, hplaced⟩ := rehung_workspaceInsertWindow h hs hd hok
    refine drops_of_rehung hs (wellFormed_workspaceInsertWindow h hs hlt hlttarget ?_ ?_) hmoved
      hplaced
    · rintro - ⟨hedge, -⟩ ha
      exact htarget fun htop => hok ⟨htop, hedge, ha⟩
    · rintro - - - hfloat
      rw [hs.toplevel_of_child hcoltop hview] at hfloat
      have hlists : Tree.ListRef.tiling v = .floating w := hs.linked.unique hcol hfloat
      cases hlists

end Drop

theorem draggable_twoColumns : Draggable (twoColumns .tabbed).tree 0 1 2 := by
  have hrow : ColumnRow (twoColumns .tabbed).tree 0 :=
    ⟨by decide +kernel, by decide +kernel, by decide +kernel⟩
  exact ⟨⟨0, 0, hrow, by decide +kernel, by decide +kernel⟩, hrow, Or.inl (by decide +kernel)⟩

/-- Before the column the window is put into it. -/
theorem workspaceInsertWindow_drops_top :
    Drops (twoColumns .tabbed)
      (workspaceInsertWindow (focusOps 1) (twoColumns .tabbed) 0 1 2 .top false) 1 :=
  (workspaceInsertWindow_drops_iff 1 (twoColumns .tabbed) 0 1 2 .top false
    (wellFormed_twoColumns .tabbed) (draggable_twoColumns)).mpr fun h => by cases h.2.2

/-- At the bottom of a tabbed column the window is inserted behind the end. -/
theorem workspaceInsertWindow_overshoots : Draggable (twoColumns .tabbed).tree 0 1 2 ∧
    ¬ Drops (twoColumns .tabbed)
      (workspaceInsertWindow (focusOps 1) (twoColumns .tabbed) 0 1 2 .bottom true) 1 := by
  refine ⟨draggable_twoColumns, fun h => absurd h.inRange ?_⟩
  decide +kernel

end Swirl
