import Swirl.Tree.RowOperations
import Swirl.Commands.Move

set_option autoImplicit false

/-! # Rows hold columns and columns hold windows

The shape of the tiled part of the tree: what stands in the row of a workspace is a container
without a view, and what stands in a child list is a window. The steps of thinning out only take
containers out of lists, so they keep the shape whatever they take. What puts a container into a
list keeps it when the container is of the kind the list holds, which is what the functions of
`container.c` and `workspace.c` see to by wrapping a view into a new column.
-/

namespace Swirl

namespace Tree

variable {t t' t'' : Tree} {c : ConId}

/-- Rows hold columns and columns hold windows. The other fields say that a parent is a column with
a name in use, and that the lists hold names in use. -/
structure Shaped (t : Tree) : Prop where
  row : ∀ w c, c ∈ (t.ws w).tiling → (t.con c).view = none
  stack : ∀ p c, c ∈ (t.con p).children → (t.con c).view.isSome
  up : ∀ c p, (t.con c).parent = some p →
    (t.con c).view.isSome ∧ (t.con p).view = none ∧ p < t.nextCon
  used : ∀ r c, c ∈ t.items r → c < t.nextCon

/-- A shaped tree that came from `t`: the containers of `t` are what they were. -/
structure Reshaped (t t' : Tree) : Prop where
  shaped : t'.Shaped
  view : ∀ c, c < t.nextCon → (t'.con c).view.isSome = (t.con c).view.isSome
  nextCon : t.nextCon ≤ t'.nextCon

theorem Reshaped.refl (h : t.Shaped) : Reshaped t t := ⟨h, fun _ _ => rfl, le_rfl⟩

theorem Reshaped.trans (h : Reshaped t t') (h' : Reshaped t' t'') : Reshaped t t'' where
  shaped := h'.shaped
  view c hc := (h'.view c (hc.trans_le h.nextCon)).trans (h.view c hc)
  nextCon := h.nextCon.trans h'.nextCon

theorem Reshaped.lt (h : Reshaped t t') (hc : c < t.nextCon) : c < t'.nextCon :=
  hc.trans_le h.nextCon

theorem Reshaped.window (h : Reshaped t t') (hc : c < t.nextCon) (hv : (t.con c).view.isSome) :
    (t'.con c).view.isSome := by
  rw [h.view c hc]
  exact hv

theorem Reshaped.column (h : Reshaped t t') (hc : c < t.nextCon) (hv : (t.con c).view = none) :
    (t'.con c).view = none := by
  have hsome := h.view c hc
  rw [hv] at hsome
  exact Option.not_isSome_iff_eq_none.mp (by simp [hsome])

/-! ## The edits -/

/-- What only takes containers out of lists and parents away keeps the shape. -/
theorem Shaped.mono (h : t.Shaped)
    (hview : ∀ c, (t'.con c).view.isSome = (t.con c).view.isSome)
    (hitems : ∀ r c, c ∈ t'.items r → c ∈ t.items r)
    (hparent : ∀ c p, (t'.con c).parent = some p → (t.con c).parent = some p)
    (hnext : t'.nextCon = t.nextCon) : Reshaped t t' := by
  have hnone : ∀ c, (t.con c).view = none → (t'.con c).view = none := by
    intro c hc
    rw [← Option.not_isSome_iff_eq_none, hview c, hc]
    simp
  refine ⟨⟨?_, ?_, ?_, ?_⟩, fun c _ => hview c, hnext.ge⟩
  · intro w c hc
    exact hnone c (h.row w c (hitems (.tiling w) c hc))
  · intro p c hc
    rw [hview c]
    exact h.stack p c (hitems (.children p) c hc)
  · intro c p hp
    obtain ⟨hwindow, hcolumn, hlt⟩ := h.up c p (hparent c p hp)
    exact ⟨(hview c).trans hwindow, hnone p hcolumn, hnext ▸ hlt⟩
  · intro r c hc
    rw [hnext]
    exact h.used r c (hitems r c hc)

/-- A list is written with members it had. -/
theorem Shaped.modList (h : t.Shaped) {r : ListRef} {f : List ConId → List ConId}
    (hf : ∀ c ∈ f (t.items r), c ∈ t.items r) : Reshaped t (t.modList r f) := by
  have hrewired := rewired_modList t r f
  refine h.mono (fun c => congrArg Option.isSome (hrewired.view c)) ?_ ?_ hrewired.nextCon
  · intro r' c hc
    by_cases hr : r' = r
    · subst hr
      rw [items_modList_self] at hc
      exact hf c hc
    · rwa [items_modList_ne t r r' f hr] at hc
  · intro c p hp
    rwa [con_modList_parent] at hp

/-- The links of a container are written, but for its view, its children and its parent. -/
theorem Shaped.modCon (h : t.Shaped) (c : ConId) {f : Links → Links}
    (hview : (f (t.con c)).view.isSome = (t.con c).view.isSome)
    (hchildren : (f (t.con c)).children = (t.con c).children)
    (hparent : ∀ p, (f (t.con c)).parent = some p → (t.con c).parent = some p) :
    Reshaped t (t.modCon c f) := by
  refine h.mono ?_ ?_ ?_ rfl
  · intro d
    by_cases hd : d = c
    · subst hd
      simpa [Tree.modCon] using hview
    · simp [Tree.modCon, hd]
  · intro r d hd
    rwa [items_modCon t c f hchildren r] at hd
  · intro d p hp
    by_cases hd : d = c
    · subst hd
      refine hparent p ?_
      simpa [Tree.modCon] using hp
    · simpa [Tree.modCon, hd] using hp

theorem Shaped.detach (h : t.Shaped) (c : ConId) : Reshaped t (t.detach c) := by
  have hrewired := rewired_detach t c
  refine h.mono (fun d => congrArg Option.isSome (hrewired.view d))
    (fun r d hd => (detach_items_sublist t c r).subset hd) ?_ hrewired.nextCon
  intro d p hp
  rw [detach_parent] at hp
  split at hp
  · cases hp
  · exact hp

/-- A container is of the kind a list holds: columns in a row, windows below a column. -/
def ListRef.Holds (t : Tree) (c : ConId) : ListRef → Prop
  | .tiling _ => (t.con c).view = none
  | .floating _ => True
  | .children p => (t.con c).view.isSome ∧ (t.con p).view = none ∧ p < t.nextCon

/-- A list gets a member of the kind it holds. -/
theorem Shaped.insert (h : t.Shaped) {r : ListRef} (i : Int) (hc : c < t.nextCon)
    (hr : r.Holds t c) : Reshaped t (t.modList r fun l => listInsert l i c) := by
  have hrewired := rewired_modList t r fun l => listInsert l i c
  have hmem : ∀ r' d, d ∈ (t.modList r fun l => listInsert l i c).items r' →
      (d = c ∧ r' = r) ∨ d ∈ t.items r' := by
    intro r' d hd
    by_cases heq : r' = r
    · subst heq
      rw [items_modList_self] at hd
      exact (mem_of_mem_listInsert hd).imp (fun he => ⟨he, rfl⟩) id
    · rw [items_modList_ne t r r' _ heq] at hd
      exact Or.inr hd
  refine ⟨⟨?_, ?_, ?_, ?_⟩, fun d _ => congrArg Option.isSome (hrewired.view d), hrewired.nextCon.ge⟩
  · intro w d hd
    rw [hrewired.view]
    rcases hmem (.tiling w) d hd with ⟨hdc, heq⟩ | hold
    · subst hdc
      subst heq
      exact hr
    · exact h.row w d hold
  · intro p d hd
    rw [hrewired.view]
    rcases hmem (.children p) d hd with ⟨hdc, heq⟩ | hold
    · subst hdc
      subst heq
      exact hr.1
    · exact h.stack p d hold
  · intro d p hp
    rw [con_modList_parent] at hp
    rw [hrewired.view, hrewired.view, hrewired.nextCon]
    exact h.up d p hp
  · intro r' d hd
    rw [hrewired.nextCon]
    rcases hmem r' d hd with ⟨hdc, -⟩ | hold
    · exact hdc ▸ hc
    · exact h.used r' d hold

/-- **A container may be put into a list that holds its kind.** -/
theorem Shaped.attach (h : t.Shaped) {r : ListRef} (i : Int) (hc : c < t.nextCon)
    (hr : r.Holds t c) : Reshaped t (t.attach r i c) := by
  have hins := (h.insert i hc hr).shaped
  have hlist := rewired_modList t r fun l => listInsert l i c
  have hrewired := rewired_attach t r i c
  have hview : ∀ d, ((t.attach r i c).con d).view =
      ((t.modList r fun l => listInsert l i c).con d).view :=
    fun d => (hrewired.view d).trans (hlist.view d).symm
  have hitems : ∀ r', (t.attach r i c).items r' ⊆
      (t.modList r fun l => listInsert l i c).items r' := by
    intro r'
    rw [attach_items]
    split
    next heq => rw [heq, items_modList_self]; exact List.Subset.refl _
    next hne => rw [items_modList_ne t r r' _ hne]; exact List.Subset.refl _
  refine ⟨⟨?_, ?_, ?_, ?_⟩, fun d _ => congrArg Option.isSome (hrewired.view d), hrewired.nextCon.ge⟩
  · intro w d hd
    rw [hview]
    exact hins.row w d (hitems (.tiling w) hd)
  · intro p d hd
    rw [hview]
    exact hins.stack p d (hitems (.children p) hd)
  · intro d p hp
    rw [hrewired.view, hrewired.view, hrewired.nextCon]
    rw [attach_parent] at hp
    split at hp
    next hdc =>
      subst hdc
      cases r with
      | tiling w => exact h.up d p hp
      | floating w => exact h.up d p hp
      | children q =>
          obtain rfl := Option.some.inj hp
          exact hr
    next => exact h.up d p hp
  · intro r' d hd
    rw [hrewired.nextCon, ← hlist.nextCon]
    exact hins.used r' d (hitems r' hd)

/-- A new container stands in no list. -/
theorem Shaped.create (h : t.Shaped) (view : Option View) : Reshaped t (t.create view) := by
  have hother : ∀ c, c ≠ t.nextCon → (t.create view).con c = t.con c := by
    intro c hc
    rw [create_con, if_neg hc]
  have hself : (t.create view).con t.nextCon = { Links.blank with view } := by
    rw [create_con, if_pos rfl]
  have hchildren : ∀ p c, c ∈ ((t.create view).con p).children → c ∈ (t.con p).children := by
    intro p c hc
    by_cases hp : p = t.nextCon
    · subst hp
      rw [hself] at hc
      cases hc
    · rwa [hother p hp] at hc
  have hused : ∀ r c, c ∈ (t.create view).items r → c ∈ t.items r := by
    intro r c hc
    cases r with
    | tiling w => exact hc
    | floating w => exact hc
    | children p => exact hchildren p c hc
  refine ⟨⟨?_, ?_, ?_, ?_⟩, fun c hc => by rw [hother c hc.ne], Nat.le_succ _⟩
  · intro w c hc
    rw [hother c (h.used (.tiling w) c hc).ne]
    exact h.row w c hc
  · intro p c hc
    have hold := hchildren p c hc
    rw [hother c (h.used (.children p) c hold).ne]
    exact h.stack p c hold
  · intro c p hp
    by_cases hc : c = t.nextCon
    · subst hc
      rw [hself] at hp
      cases hp
    · rw [hother c hc] at hp ⊢
      obtain ⟨hwindow, hcolumn, hlt⟩ := h.up c p hp
      rw [hother p hlt.ne]
      exact ⟨hwindow, hcolumn, hlt.trans (Nat.lt_succ_self _)⟩
  · intro r c hc
    exact (h.used r c (hused r c hc)).trans (Nat.lt_succ_self _)

/-! ## The ancestor at the top -/

/-- A column hangs below nothing. -/
theorem Shaped.parent_of_column (h : t.Shaped) (hc : (t.con c).view = none) :
    (t.con c).parent = none := by
  cases hp : (t.con c).parent with
  | none => rfl
  | some p =>
      have hwindow := (h.up c p hp).1
      rw [hc] at hwindow
      cases hwindow

/-- The parent chain is at most one step long. -/
theorem Shaped.ancestors (h : t.Shaped) (c : ConId) :
    t.ancestors c = (t.con c).parent.toList := by
  have hnone : ∀ n d, (t.con d).parent = none → t.ancestorsWithin n d = [] := by
    intro n d hd
    cases n with
    | zero => rfl
    | succ n => rw [ancestorsWithin, hd]
  unfold Tree.ancestors
  cases hp : (t.con c).parent with
  | none => exact hnone _ c hp
  | some p =>
      obtain ⟨-, hcolumn, hlt⟩ := h.up c p hp
      obtain ⟨n, hn⟩ := Nat.exists_eq_succ_of_ne_zero (Nat.ne_zero_of_lt hlt)
      rw [hn, ancestorsWithin, hp]
      dsimp only
      rw [hnone n p (h.parent_of_column hcolumn)]
      rfl

theorem Shaped.toplevel (h : t.Shaped) (c : ConId) :
    containerToplevelAncestor t c = (t.con c).parent.getD c := by
  unfold containerToplevelAncestor
  rw [h.ancestors]
  cases (t.con c).parent <;> rfl

theorem Shaped.toplevel_parent (h : t.Shaped) (c : ConId) :
    (t.con (containerToplevelAncestor t c)).parent = none := by
  rw [h.toplevel]
  cases hp : (t.con c).parent with
  | none => exact hp
  | some p => exact h.parent_of_column (h.up c p hp).2.1

theorem Shaped.toplevel_lt (h : t.Shaped) (hc : c < t.nextCon) :
    containerToplevelAncestor t c < t.nextCon := by
  rw [h.toplevel]
  cases hp : (t.con c).parent with
  | none => exact hc
  | some p => exact (h.up c p hp).2.2

end Tree

/-! ## Thinning out -/

section Thins

variable {K D : ConId → Prop} {k k' : Core} {s s' : State}

theorem Thin.reshaped (h : Thin K D k k') (hk : k.tree.Shaped) :
    Tree.Reshaped k.tree k'.tree := by
  cases h with
  | refloat v w c hc =>
      rw [Core.refloat_tree]
      have hdetach := hk.detach c
      exact hdetach.trans (hdetach.shaped.attach _
        (hdetach.lt (hk.used (.floating v) c hc)) trivial)
  | unpark c => exact Tree.Reshaped.refl hk
  | endWorkspace w _ _ =>
      refine hk.mono (fun c => by rw [Core.endWorkspace_con]) ?_ ?_ ?_
      · intro r c hc
        rwa [Core.endWorkspace_items] at hc
      · intro c p hp
        rwa [Core.endWorkspace_con] at hp
      · exact (frame_endWorkspace k w).nextCon
  | @kill c _ =>
      exact hk.modCon c (f := fun l => { l with destroying := true }) rfl rfl fun _ hp => hp
  | detach _ => exact hk.detach _
  | @unscratch c _ =>
      have hcon := hk.modCon c (f := fun l => { l with scratchpad := false }) rfl rfl
        fun _ hp => hp
      have hlist : Tree.Reshaped _ (k.unscratch c).tree :=
        hcon.shaped.mono (fun _ => rfl) (fun r _ hd => by cases r <;> exact hd)
          (fun _ _ hp => hp) rfl
      exact hcon.trans hlist
  | measure w single =>
      rw [Core.measure_tree]
      exact Tree.Reshaped.refl hk

/-- **Thinning out keeps the shape.** -/
theorem Thins.reshaped (h : Thins K D s.core s'.core) (hs : s.tree.Shaped) :
    Tree.Reshaped s.tree s'.tree := by
  refine h.invariant (I := fun j => Tree.Reshaped s.tree j.tree) ?_ (Tree.Reshaped.refl hs)
  intro a b ha hab
  exact ha.trans (hab.reshaped ha.shaped)

theorem OnlyGeometry.reshaped (h : OnlyGeometry s s') (hs : s.tree.Shaped) :
    Tree.Reshaped s.tree s'.tree := by
  rw [h.tree]
  exact Tree.Reshaped.refl hs

theorem Tree.Reshaped.thins {t : Tree} (h : Tree.Reshaped t s.tree)
    (hthins : Thins K D s.core s'.core) : Tree.Reshaped t s'.tree :=
  h.trans (hthins.reshaped h.shaped)

theorem Tree.Reshaped.geometry {t : Tree} (h : Tree.Reshaped t s.tree) (hgeo : OnlyGeometry s s') :
    Tree.Reshaped t s'.tree :=
  h.trans (hgeo.reshaped h.shaped)

end Thins

/-! ## Into a list and out of it -/

section Functions

variable {fo : FocusOps} (h : FocusThins fo) {s : State} {t : Tree} {c d p : ConId} {w : WsId}

theorem reshaped_containerDetach (hs : s.tree.Shaped) (c : ConId) :
    Tree.Reshaped s.tree (containerDetach s c).tree := by
  rw [tree_containerDetach]
  exact hs.detach c

theorem reshaped_detachIfPlaced (hs : s.tree.Shaped) (c : ConId) :
    Tree.Reshaped s.tree (detachIfPlaced s c).tree := by
  unfold detachIfPlaced
  split
  · exact reshaped_containerDetach hs c
  · exact Tree.Reshaped.refl hs

theorem reshaped_unpark (hs : s.tree.Shaped) (c : ConId) :
    Tree.Reshaped s.tree (unpark s c).tree := by
  rw [tree_unpark]
  exact Tree.Reshaped.refl hs

theorem Tree.Reshaped.attach {r : Tree.ListRef} (hm : Tree.Reshaped t s.tree) (i : Int)
    (hc : c < s.tree.nextCon) (hr : r.Holds s.tree c) : Tree.Reshaped t (s.attach r i c).tree := by
  rw [tree_attach]
  exact hm.trans (hm.shaped.attach i hc hr)

theorem Tree.Reshaped.modList {r : Tree.ListRef} {f : List ConId → List ConId}
    (hm : Tree.Reshaped t s.tree) (hf : ∀ c ∈ f (s.tree.items r), c ∈ s.tree.items r) :
    Tree.Reshaped t (s.modTree fun u => u.modList r f).tree :=
  hm.trans (hm.shaped.modList hf)

include h

/-- A window may become the child of a column. -/
theorem reshaped_containerInsertChild (hs : s.tree.Shaped) (hc : c < s.tree.nextCon)
    (hv : (s.tree.con c).view.isSome) (hp : (s.tree.con p).view = none) (hlt : p < s.tree.nextCon)
    (i : Int) : Tree.Reshaped s.tree (containerInsertChild fo s p c i).tree := by
  have hout := reshaped_detachIfPlaced hs c
  have hput : Tree.Reshaped s.tree ((detachIfPlaced s c).attach (.children p) i c).tree :=
    hout.attach i (hout.lt hc) ⟨hout.window hc hv, hout.column hlt hp, hout.lt hlt⟩
  have hfull := hput.thins (thins_containerHandleFullscreenReparent h _ c)
  exact hfull.geometry (onlyGeometry_containerFitVerticalChildren _ (some p) c)

theorem reshaped_containerAddChild (hs : s.tree.Shaped) (hc : c < s.tree.nextCon)
    (hv : (s.tree.con c).view.isSome) (hp : (s.tree.con p).view = none)
    (hlt : p < s.tree.nextCon) : Tree.Reshaped s.tree (containerAddChild fo s p c).tree :=
  reshaped_containerInsertChild h hs hc hv hp hlt _

theorem reshaped_workspaceAddFloating (hs : s.tree.Shaped) (hc : c < s.tree.nextCon) (w : WsId) :
    Tree.Reshaped s.tree (workspaceAddFloating fo s w c).tree := by
  have hpool := reshaped_unpark hs c
  have hout := hpool.trans (reshaped_detachIfPlaced hpool.shaped c)
  have hput : Tree.Reshaped s.tree ((detachIfPlaced (unpark s c) c).attachLast (.floating w) c).tree :=
    hout.attach _ (hout.lt hc) trivial
  exact hput.thins (thins_containerHandleFullscreenReparent h _ c)

/-- A column may stand in a row. -/
theorem reshaped_workspaceInsertTilingDirect (hs : s.tree.Shaped) (hc : c < s.tree.nextCon)
    (hv : (s.tree.con c).view = none) (w : WsId) (i : Int) :
    Tree.Reshaped s.tree (workspaceInsertTilingDirect fo s w c i).tree := by
  have hput : Tree.Reshaped s.tree (s.attach (.tiling w) i c).tree :=
    (Tree.Reshaped.refl hs).attach i hc hv
  exact hput.thins (thins_containerHandleFullscreenReparent h _ c)

/-! ## New columns -/

/-- The tree has the new container, and it is a column. -/
structure Tree.NewColumn (t t' : Tree) : Prop extends Tree.Reshaped t t' where
  isColumn : (t'.con t.nextCon).view = none
  isUsed : t.nextCon < t'.nextCon

omit h in
theorem Tree.NewColumn.then {t' t'' : Tree} (hn : Tree.NewColumn t t')
    (hm : Tree.Reshaped t' t'') : Tree.NewColumn t t'' where
  toReshaped := hn.toReshaped.trans hm
  isColumn := hm.column hn.isUsed hn.isColumn
  isUsed := hm.lt hn.isUsed

omit h in
theorem newColumn_createColumn (hs : s.tree.Shaped) (w : Option WsId) :
    Tree.NewColumn s.tree (createColumn s w).tree := by
  have hcreate := hs.create none
  have hloose : Tree.Reshaped (s.tree.create none) (s.tree.createLoose w) :=
    hcreate.shaped.modCon s.tree.nextCon rfl rfl fun _ hp => hp
  have hcolumn : ((s.tree.create none).con s.tree.nextCon).view = none := by
    rw [Tree.create_con, if_pos rfl]
  have hlt : s.tree.nextCon < (s.tree.create none).nextCon := Nat.lt_succ_self _
  rw [tree_createColumn]
  exact (Tree.NewColumn.mk hcreate hcolumn hlt).then hloose

/-- A window gets a column of its own. -/
theorem newColumn_workspaceCreateNewColumnAt (hs : s.tree.Shaped) (hc : c < s.tree.nextCon)
    (hv : (s.tree.con c).view.isSome) (w : WsId) (i : Int) :
    Tree.NewColumn s.tree (workspaceCreateNewColumnAt fo s w c i).tree := by
  have hnew := newColumn_createColumn hs (some w)
  have hadd := hnew.then (reshaped_containerAddChild h hnew.shaped (hnew.lt hc)
    (hnew.window hc hv) hnew.isColumn hnew.isUsed)
  unfold workspaceCreateNewColumnAt workspaceCreateNewColumn
  exact hadd.then ((onlyGeometry_columnSetWidthPx _ _ _).trans (.modGeo _ c _)
    |>.reshaped hadd.shaped)

/-! ## Columns that do not fit -/

/-- Windows may become children of a column, one after the other. -/
theorem reshaped_addChildren {l : List ConId} (hs : s.tree.Shaped)
    (hl : ∀ c ∈ l, c < s.tree.nextCon ∧ (s.tree.con c).view.isSome)
    (hp : (s.tree.con p).view = none) (hlt : p < s.tree.nextCon) :
    Tree.Reshaped s.tree (l.foldl (fun s c => containerAddChild fo s p c) s).tree := by
  induction l generalizing s with
  | nil => exact Tree.Reshaped.refl hs
  | cons c l ih =>
      obtain ⟨hc, hv⟩ := hl c List.mem_cons_self
      have hadd := reshaped_containerAddChild h hs hc hv hp hlt
      refine hadd.trans (ih hadd.shaped ?_ (hadd.column hlt hp) (hadd.lt hlt))
      intro d hd
      obtain ⟨hdlt, hdv⟩ := hl d (List.mem_cons_of_mem c hd)
      exact ⟨hadd.lt hdlt, hadd.window hdlt hdv⟩

/-- The windows of a column that is merged away go into a column. -/
theorem reshaped_mergeColumn {src dst : ConId} (hs : s.tree.Shaped)
    (hsrc : src ∈ (s.tree.ws w).tiling) (hdst : dst ∈ (s.tree.ws w).tiling) (gaps : Int) :
    Tree.Reshaped s.tree (mergeColumn fo gaps w s src dst).tree := by
  have hbare : mergedViews s.tree src = (s.tree.con src).children := by
    unfold mergedViews
    rw [hs.row w src hsrc]
    rfl
  have hwindows : ∀ c ∈ (s.tree.con src).children,
      c < s.tree.nextCon ∧ (s.tree.con c).view.isSome :=
    fun c hc => ⟨hs.used (.children src) c hc, hs.stack src c hc⟩
  have hadd := reshaped_addChildren h hs hwindows (hs.row w dst hdst)
    (hs.used (.tiling w) dst hdst)
  unfold mergeColumn
  rw [hbare]
  have htabs := hadd.geometry (onlyGeometry_stackToTabs gaps w _ dst)
  exact htabs.thins (thins_containerBeginDestroy h _ src)

theorem reshaped_fixOverflowLoop (hs : s.tree.Shaped) (k : OverflowLimits) (w : WsId) (n : Nat) :
    Tree.Reshaped s.tree (fixOverflowLoop fo k w n s).tree := by
  induction n generalizing s with
  | zero => exact Tree.Reshaped.refl hs
  | succ n ih =>
      rw [fixOverflowLoop]
      split
      · exact Tree.Reshaped.refl hs
      · dsimp only
        split
        next src dst hsrc hdst =>
          have hmerge := reshaped_mergeColumn h hs (List.mem_of_getElem? hsrc)
            (List.mem_of_getElem? hdst) k.gaps
          exact hmerge.trans (ih hmerge.shaped)
        next => exact Tree.Reshaped.refl hs

theorem reshaped_workspaceFixOverflow (hs : s.tree.Shaped) (w : WsId) :
    Tree.Reshaped s.tree (workspaceFixOverflow fo s w).tree := by
  unfold workspaceFixOverflow
  split
  · exact Tree.Reshaped.refl hs
  · exact (reshaped_fixOverflowLoop h hs _ w _).thins
      (thins_arrangeWorkspace (K := Nobody) (D := Nobody) _ w)

end Functions

end Swirl
