import Swirl.Tree.Operations
import Swirl.Tree.SwapColumns

set_option autoImplicit false

/-! # The operations on rows keep the tree well formed

New columns, `workspace_fix_overflow`, `workspace_insert_column`, a dropped window and the two
exchanges. A column is made with a workspace and put into its row later; until then it is loose,
which is what `Fresh` is about.
-/

namespace Swirl

open Lib

namespace Tree

/-! ## A container before it is put into a row -/

/-- A container that hangs nowhere yet, and is the only one that may be loose. -/
structure Fresh (c : ConId) (t : Tree) : Prop where
  wellFormed : t.WellFormedBut (· = c)
  free : t.Free c
  lt : c < t.nextCon

section Fresh

variable {t : Tree} {k k' : Core} {K D : ConId → Prop} {c : ConId}

theorem Fresh.of_free (h : t.WellFormed) (hc : t.Free c) (hlt : c < t.nextCon) : t.Fresh c :=
  ⟨h.mono fun _ hl => hl.elim, hc, hlt⟩

/-- A container that hangs nowhere can be put into any row. -/
theorem Fresh.attach (h : t.Fresh c) (w : WsId) {i : Int} (hi : InsertOk (t.ws w).tiling i) :
    (t.attach (.tiling w) i c).WellFormed := by
  have htakes : t.Takes (.tiling w) i c := ⟨hi, fun _ hp => by cases hp⟩
  exact (h.wellFormed.attach h.free h.lt htakes).mono fun _ hd => hd.2 hd.1

theorem Thins.fresh (h : Thins K D k k') (hk : k.tree.Fresh c) : k'.tree.Fresh c where
  wellFormed := Thins.wellFormedBut h hk.wellFormed
  free := Thins.free h hk.free
  lt := hk.lt.trans_le h.frame.nextCon.ge

theorem Fresh.detach (h : t.Fresh c) : (t.detach c).Fresh c :=
  ⟨h.wellFormed.detach c, h.free.detach c, h.lt.trans_le (rewired_detach t c).nextCon.ge⟩

/-- A detached container is one that hangs nowhere. -/
theorem fresh_detach (h : t.WellFormed) (c : ConId) (hlt : c < t.nextCon) :
    (t.detach c).Fresh c :=
  .of_free (h.detach c) (free_detach h c) (hlt.trans_le (rewired_detach t c).nextCon.ge)

end Fresh

/-! ## A new column -/

/-- A tree with a new column for a workspace. -/
def createLoose (t : Tree) (w : Option WsId) : Tree :=
  (t.create none).modCon t.nextCon fun k => { k with workspace := w }

theorem createLoose_con {t : Tree} {c : ConId} (w : Option WsId) (hc : c ≠ t.nextCon) :
    (t.createLoose w).con c = t.con c := by
  simp [createLoose, modCon, create_con, hc]

theorem fresh_createLoose {t : Tree} (h : t.WellFormed) (w : Option WsId) :
    (t.createLoose w).Fresh t.nextCon := by
  have hchildren : ((t.create none).con t.nextCon).children = [] := by
    rw [create_con, if_pos rfl]
    rfl
  have hlt : t.nextCon < (t.create none).nextCon := Nat.lt_succ_self _
  have hloose := (h.create none).loosen (free_create h none) hchildren hlt w
  refine ⟨hloose.mono fun d hd => hd.resolve_left id, ?_, hlt⟩
  refine (free_create h none).congr (items_modCon _ _ _ rfl) fun d => ?_
  by_cases hd : d = t.nextCon
  · subst hd
    simp [createLoose, modCon]
  · simp [createLoose, modCon, hd]

end Tree

theorem tree_createColumn (s : State) (w : Option WsId) :
    (createColumn s w).tree = s.tree.createLoose w := by
  have hcreate : (containerCreate s none).tree = s.tree.create none := by
    unfold containerCreate
    exact congrArg Core.tree (core_emitNewNode _ _)
  unfold createColumn Tree.createLoose
  rw [State.tree_modTree]
  show ((containerCreate s none).tree.modCon _ _) = _
  rw [hcreate]

section Rows

variable {fo : FocusOps} (h : FocusThins fo) {s : State} {a b c d p x : ConId} {w v : WsId}
  {i : Int}

include h

/-- What hangs nowhere stays so while another container is put below a third. -/
theorem free_containerAddChild (hx : s.tree.Free x) (hxc : x ≠ c) :
    (containerAddChild fo s p c).tree.Free x := by
  have hout : (detachIfPlaced s c).tree.Free x := by
    unfold detachIfPlaced
    split
    · rw [tree_containerDetach]
      exact hx.detach c
    · exact hx
  unfold containerAddChild
  rw [(onlyGeometry_containerFitVerticalChildren _ _ _).tree]
  refine Tree.Thins.free (thins_containerHandleFullscreenReparent h _ c) ?_
  show (State.tree (State.attach _ _ _ c)).Free x
  rw [tree_attach]
  exact hout.attach hxc

/-- A view goes into a new column. -/
theorem fresh_addToColumn (hs : s.tree.WellFormed) (hc : s.tree.Detachable c)
    (hlt : c < s.tree.nextCon) (w : Option WsId) :
    (containerAddChild fo (createColumn s w) s.tree.nextCon c).tree.Fresh s.tree.nextCon := by
  have hne : s.tree.nextCon ≠ c := hlt.ne'
  have hcol := Tree.fresh_createLoose hs w
  rw [← tree_createColumn] at hcol
  have hcon : ((createColumn s w).tree.con c) = s.tree.con c := by
    rw [tree_createColumn, Tree.createLoose_con w hlt.ne]
  have hdetach : (createColumn s w).tree.Detachable c := by
    unfold Tree.Detachable
    rw [hcon]
    exact hc
  have hadd := moved_containerAddChild h hcol.wellFormed hdetach (hlt.trans hcol.lt)
    ⟨hne, Tree.not_hangsBelow_of_top hcol.free.parent, hcol.lt⟩
  exact ⟨hadd.wellFormed.mono fun _ hd => hd.1, free_containerAddChild h hcol.free hne,
    hcol.lt.trans_le hadd.nextCon⟩

theorem fresh_workspaceCreateNewColumnAt (hs : s.tree.WellFormed) (hc : s.tree.Detachable c)
    (hlt : c < s.tree.nextCon) (w : WsId) (i : Int) :
    (workspaceCreateNewColumnAt fo s w c i).tree.Fresh s.tree.nextCon := by
  unfold workspaceCreateNewColumnAt workspaceCreateNewColumn
  dsimp only
  rw [(OnlyGeometry.modGeo _ c _).tree, (onlyGeometry_columnSetWidthPx _ _ _).tree]
  exact fresh_addToColumn h hs hc hlt (some w)

theorem wellFormed_workspaceInsertTilingDirect (hs : s.tree.Fresh c)
    (hi : InsertOk (s.tree.ws w).tiling i) :
    (workspaceInsertTilingDirect fo s w c i).tree.WellFormed := by
  unfold workspaceInsertTilingDirect
  refine Tree.Thins.wellFormedBut (thins_containerHandleFullscreenReparent h _ c) ?_
  show (State.tree (State.attach _ _ _ c)).WellFormed
  rw [tree_attach]
  exact hs.attach w hi

/-! ## `workspace_fix_overflow` -/

omit h in
/-- The containers of a list can be put below another one after the other. -/
structure Joins (t : Tree) (p : ConId) (l : List ConId) : Prop where
  parent : p < t.nextCon
  each : ∀ c ∈ l, c < t.nextCon ∧ t.Detachable c ∧ t.Apart (· = c) p
  apart : l.Pairwise fun c d => t.Apart (· = c) d

omit h in
/-- Once the first one has joined, the others can. -/
theorem Joins.tail {t t' : Tree} {l : List ConId} (hl : Joins t p (c :: l))
    (hmoved : Tree.Moved Nobody (· = c) t t') : Joins t' p l := by
  obtain ⟨-, -, hp⟩ := hl.each c List.mem_cons_self
  obtain ⟨hapart, hrest⟩ := List.pairwise_cons.mp hl.apart
  have hpa := hmoved.aside p hp
  -- the remaining ones are apart from `c`, so they are left aside
  refine ⟨hl.parent.trans_le hmoved.nextCon, fun d hd => ?_, ?_⟩
  · obtain ⟨hdlt, hdd, hdp⟩ := hl.each d (List.mem_cons_of_mem c hd)
    have hda := hmoved.aside d (hapart d hd)
    exact ⟨hdlt.trans_le hmoved.nextCon, hda.detachable hdd, hpa.apart hdp⟩
  · refine hrest.imp_of_mem fun {d e} hd he hde => ?_
    exact (hmoved.aside e (hapart e he)).apart hde

/-- The first one joins. -/
theorem Joins.moved_head {l : List ConId} (hs : s.tree.WellFormed) (hl : Joins s.tree p (c :: l)) :
    Tree.Moved Nobody (· = c) s.tree (containerAddChild fo s p c).tree := by
  obtain ⟨hlt, hc, hp⟩ := hl.each c List.mem_cons_self
  exact (moved_containerAddChild h hs hc hlt ⟨(hp c rfl).1, (hp c rfl).2, hl.parent⟩).mono
    (fun _ hd => hd.1) fun _ hd => hd

theorem wellFormed_addChildren {l : List ConId} (hs : s.tree.WellFormed) (hl : Joins s.tree p l) :
    (l.foldl (fun s c => containerAddChild fo s p c) s).tree.WellFormed := by
  induction l generalizing s with
  | nil => exact hs
  | cons c l ih =>
      have hadd := hl.moved_head h hs
      exact ih hadd.wellFormed (hl.tail hadd)

omit h in
/-- A column of the row can take the views of another one. -/
theorem joins_mergedViews (hs : s.tree.WellFormed) (ha : a ∈ (s.tree.ws w).tiling)
    (hb : b ∈ (s.tree.ws w).tiling) (hab : a ≠ b) : Joins s.tree b (mergedViews s.tree a) := by
  have hla := hs.linked.of_tiling ha
  have hlb := hs.linked.of_tiling hb
  have htop : ∀ c, c ≠ b → s.tree.Apart (· = c) b := by
    rintro c hcb d rfl
    exact ⟨hcb.symm, Tree.not_hangsBelow_of_top hlb.1⟩
  unfold mergedViews
  split
  · refine ⟨hs.lt_of_workspace hlb.2, fun c hc => ?_, List.pairwise_singleton _ _⟩
    obtain rfl := List.mem_singleton.mp hc
    exact ⟨hs.lt_of_workspace hla.2, fun hnone => absurd (hla.2.symm.trans hnone) (by simp), htop c hab⟩
  · have hchild : ∀ c ∈ (s.tree.con a).children,
        (s.tree.con c).parent = some a ∧ (s.tree.con c).workspace = some w := by
      intro c hc
      have hp := hs.linked.of_children hc
      exact ⟨hp, (hs.below c a hp).trans hla.2⟩
    refine ⟨hs.lt_of_workspace hlb.2, fun c hc => ?_, ?_⟩
    · obtain ⟨hp, hcw⟩ := hchild c hc
      refine ⟨hs.lt_of_workspace hcw, fun hnone => absurd (hcw.symm.trans hnone) (by simp), htop c ?_⟩
      rintro rfl
      exact absurd (hp.symm.trans hlb.1) (by simp)
    · -- siblings do not hang below each other
      refine (hs.linked.nodup (.children a)).pairwise_of_forall_ne ?_
      rintro c hc d hd hcd e rfl
      refine ⟨hcd.symm, fun hb => ?_⟩
      rcases hb.down (hchild d hd).1 with rfl | hb
      · exact absurd ((hchild a hc).1.symm.trans hla.1) (by simp)
      · exact Tree.not_hangsBelow_of_top hla.1 hb

theorem wellFormed_mergeColumn (hs : s.tree.WellFormed) (gaps : Int)
    (ha : a ∈ (s.tree.ws w).tiling) (hb : b ∈ (s.tree.ws w).tiling) (hab : a ≠ b) :
    (mergeColumn fo gaps w s a b).tree.WellFormed := by
  unfold mergeColumn
  refine Tree.Thins.wellFormedBut (thins_containerBeginDestroy h _ a) ?_
  rw [core_tree, (onlyGeometry_stackToTabs gaps w _ b).tree]
  exact wellFormed_addChildren h hs (joins_mergedViews hs ha hb hab)

omit h in
/-- The last column and the one it is merged into differ. -/
theorem merged_ne {l : List ConId} (hl : l.Nodup) (hlen : 1 < l.length)
    (ha : l[l.length - 1]? = some a) (hb : l[mergeTarget l.length]? = some b) : a ≠ b := by
  rintro rfl
  obtain ⟨hi, hia⟩ := List.getElem?_eq_some_iff.mp ha
  obtain ⟨hj, hjb⟩ := List.getElem?_eq_some_iff.mp hb
  have heq : l.length - 1 = mergeTarget l.length := hl.getElem_inj_iff.mp (hia.trans hjb.symm)
  unfold mergeTarget at heq
  split at heq <;> omega

theorem wellFormed_fixOverflowLoop (hs : s.tree.WellFormed) (k : OverflowLimits) (w : WsId)
    (n : Nat) : (fixOverflowLoop fo k w n s).tree.WellFormed := by
  induction n generalizing s with
  | zero => exact hs
  | succ n ih =>
      unfold fixOverflowLoop
      split
      next => exact hs
      next hfits =>
        dsimp only
        split
        next a b ha hb =>
          have hlen : 1 < (s.tree.ws w).tiling.length := by
            by_contra hle
            exact hfits (Or.inl (Nat.not_lt.mp hle))
          have hnodup : (s.tree.ws w).tiling.Nodup := hs.linked.nodup (.tiling w)
          exact ih (wellFormed_mergeColumn h hs _ (List.mem_of_getElem? ha)
            (List.mem_of_getElem? hb) (merged_ne hnodup hlen ha hb))
        next => exact hs

theorem wellFormed_workspaceFixOverflow (hs : s.tree.WellFormed) (w : WsId) :
    (workspaceFixOverflow fo s w).tree.WellFormed := by
  unfold workspaceFixOverflow
  split
  · exact hs
  · exact Tree.Thins.wellFormedBut (thins_arrangeWorkspace (K := Nobody) (D := Nobody) _ w)
      (wellFormed_fixOverflowLoop h hs _ w _)

/-! ## Into the row -/

/-- A container that leaves its old place can be put into a row, when it can be detached. -/
theorem free_leaveOldPlace (hs : s.tree.WellFormed) (hc : s.tree.Detachable c) :
    (leaveOldPlace fo s c).tree.WellFormed ∧ (leaveOldPlace fo s c).tree.Free c ∧
      s.tree.nextCon ≤ (leaveOldPlace fo s c).tree.nextCon := by
  unfold leaveOldPlace
  split
  · have hout := takenOut_detachIfPlaced hs hc
    have hdet : detachIfPlaced s c = containerDetach s c := if_pos (by assumption)
    rw [hdet] at hout
    dsimp only
    split
    next p _ =>
      have hthins := thins_containerReapEmpty h (containerDetach s c) p
      exact ⟨Tree.Thins.wellFormedBut hthins hout.wellFormed, Tree.Thins.free hthins hout.free,
        hout.nextCon.trans hthins.frame.nextCon.ge⟩
    next => exact ⟨hout.wellFormed, hout.free, hout.nextCon⟩
  next hw =>
    have hnone : (s.tree.con c).workspace = none := by simpa using hw
    exact ⟨hs, hs.free_of_nowhere (hc hnone) hnone, le_rfl⟩

omit h in
theorem insertOk_addTilingIndex (s : State) (w : WsId) {f : Int} (hf : 0 ≤ f) :
    InsertOk (s.tree.ws w).tiling (addTilingIndex s w f) := by
  unfold addTilingIndex
  constructor
  · dsimp only
    split <;> omega
  · dsimp only
    split <;> omega

omit h in
theorem focusedColumnIndex_nonneg (s : State) (w : WsId) : 0 ≤ focusedColumnIndex s w := by
  unfold focusedColumnIndex
  dsimp only
  split
  · split <;> omega
  · omega

omit h in
theorem clearParent_of_top (hc : (s.tree.con c).parent = none) : clearParent s c = s := by
  have hsame : (s.tree.modCon c fun k => { k with parent := none }) = s.tree := by
    unfold Tree.modCon
    rw [← hc, Function.update_eq_self]
  unfold clearParent State.modTree
  dsimp only
  rw [hsame]

theorem wellFormed_addColumn (hs : s.tree.WellFormed) (hc : s.tree.Free c)
    (hlt : c < s.tree.nextCon) (w : WsId) : (addColumn fo s w c).tree.WellFormed := by
  have hidx := focusedColumnIndex_nonneg s w
  unfold addColumn
  dsimp only
  split
  · have hfresh := fresh_workspaceCreateNewColumnAt h hs (fun _ => hc.parent) hlt w (-1)
    rw [(onlyGeometry_workspaceFitNewColumn _ w _ _).tree]
    exact wellFormed_workspaceInsertTilingDirect h hfresh (insertOk_addTilingIndex _ w hidx)
  · rw [clearParent_of_top hc.parent]
    exact wellFormed_workspaceInsertTilingDirect h (.of_free hs hc hlt)
      (insertOk_addTilingIndex s w hidx)

theorem wellFormed_workspaceAddTiling (hs : s.tree.WellFormed) (hc : s.tree.Detachable c)
    (hlt : c < s.tree.nextCon) (w : WsId) : (workspaceAddTiling fo s w c).tree.WellFormed := by
  have htree := tree_unpark s c
  obtain ⟨hleft, hfree, hnext⟩ := free_leaveOldPlace h (s := unpark s c) (htree.symm ▸ hs)
    (htree.symm ▸ hc)
  rw [htree] at hnext
  exact wellFormed_workspaceFixOverflow h
    (wellFormed_addColumn h hleft hfree (hlt.trans_le hnext) w) w

omit h in
theorem insertOk_clampIndex {α : Type} (l : List α) (i : Int) :
    InsertOk l (clampIndex i l.length) := by
  unfold clampIndex
  constructor <;> omega

omit h in
/-- A container from outside the row is put into it. -/
theorem placeInRow_of_fresh (hs : s.tree.Fresh c) (w : WsId) (i : Int) :
    placeInRow fo s w c i = containerHandleFullscreenReparent fo
      (s.attach (.tiling w) (clampIndex i (s.tree.ws w).tiling.length) c) c := by
  have hout : c ∉ (s.tree.ws w).tiling := hs.free.unlisted (.tiling w)
  have hcur : listFind (s.tree.ws w).tiling c = -1 := listFind_of_not_mem hout
  have hsame : (s.modTree fun t => t.modList (.tiling w) fun l => listDel l (-1)) = s := by
    unfold State.modTree Tree.modList Tree.modWs listDel
    simp
  unfold placeInRow
  dsimp only
  rw [hcur, if_neg (by omega), if_neg (by omega), hsame, clearParent_of_top]
  rw [tree_attach, Tree.attach_parent, if_pos rfl]
  exact hs.free.parent

theorem wellFormed_placeInRow_of_fresh (hs : s.tree.Fresh c) (w : WsId) (i : Int) :
    (placeInRow fo s w c i).tree.WellFormed := by
  rw [placeInRow_of_fresh hs]
  refine Tree.Thins.wellFormedBut (thins_containerHandleFullscreenReparent h _ c) ?_
  rw [core_tree, tree_attach]
  exact hs.attach w (insertOk_clampIndex _ i)

omit h in
/-- Where a column is put back into its row, once it is taken out. -/
def moveIndex (l : List ConId) (c : ConId) (i : Int) : Int :=
  if listFind l c < clampIndex i l.length then clampIndex i l.length - 1 else clampIndex i l.length

omit h in
/-- A column moves within its row, if it is not there already. -/
theorem placeInRow_of_mem (hs : s.tree.WellFormed) (hc : c ∈ (s.tree.ws w).tiling) (i : Int) :
    (listFind (s.tree.ws w).tiling c = clampIndex i (s.tree.ws w).tiling.length ∧
        placeInRow fo s w c i = s) ∨
      (listFind (s.tree.ws w).tiling c ≠ clampIndex i (s.tree.ws w).tiling.length ∧
        InsertOk ((s.tree.ws w).tiling.erase c) (moveIndex (s.tree.ws w).tiling c i) ∧
        placeInRow fo s w c i = containerHandleFullscreenReparent fo
          ((s.modTree fun t => t.modList (.tiling w) fun l => l.erase c).attach (.tiling w)
            (moveIndex (s.tree.ws w).tiling c i) c) c) := by
  have hcur := listFind_nonneg.mpr hc
  have hlast := listFind_lt_length hc
  have hlen : ((s.tree.ws w).tiling.erase c).length + 1 = (s.tree.ws w).tiling.length := by
    rw [List.length_erase_of_mem hc]
    omega
  have hclamp := insertOk_clampIndex (s.tree.ws w).tiling i
  unfold placeInRow moveIndex
  dsimp only
  generalize clampIndex i (s.tree.ws w).tiling.length = j at hclamp ⊢
  obtain ⟨hj, hjlen⟩ := hclamp
  by_cases hsame : listFind (s.tree.ws w).tiling c = j
  · rw [if_pos ⟨hcur, hsame⟩]
    exact Or.inl ⟨hsame, rfl⟩
  · have hok : InsertOk ((s.tree.ws w).tiling.erase c)
        (if listFind (s.tree.ws w).tiling c < j then j - 1 else j) := by
      constructor <;> split <;> omega
    have hdel : (s.tree.modList (.tiling w) fun l => listDel l (listFind (s.tree.ws w).tiling c)) =
        s.tree.modList (.tiling w) fun l => l.erase c :=
      Tree.modList_congr (listDel_listFind _ c)
    have hmod : (s.modTree fun t => t.modList (.tiling w) fun l =>
        listDel l (listFind (s.tree.ws w).tiling c)) =
        s.modTree fun t => t.modList (.tiling w) fun l => l.erase c :=
      congrArg (fun t => { s with tree := t }) hdel
    refine Or.inr ⟨hsame, hok, ?_⟩
    rw [if_neg fun h => hsame h.2, hmod, clearParent_of_top]
    · simp only [hcur, true_and]
    · rw [tree_attach, Tree.attach_parent, if_pos rfl, State.tree_modTree, Tree.con_modList_parent]
      exact (hs.linked.of_tiling hc).1

theorem wellFormed_placeInRow_of_mem (hs : s.tree.WellFormed) (hc : c ∈ (s.tree.ws w).tiling)
    (i : Int) : (placeInRow fo s w c i).tree.WellFormed := by
  rcases placeInRow_of_mem hs hc i with ⟨-, heq⟩ | ⟨-, hok, heq⟩
  · rw [heq]
    exact hs
  · rw [heq]
    refine Tree.Thins.wellFormedBut (thins_containerHandleFullscreenReparent h _ c) ?_
    rw [core_tree, tree_attach]
    exact hs.reinsert hc hok

/-! ## `workspace_insert_column` -/

/-- What `leaveParent` does to a container that has a parent. -/
theorem fresh_leaveParent (hs : s.tree.WellFormed) (hp : (s.tree.con c).parent = some p) :
    (leaveParent fo s c).tree.Fresh c := by
  have hlt : c < s.tree.nextCon := by
    by_contra hge
    have hnone := (hs.unused c (Nat.not_lt.mp hge)).1
    rw [hp] at hnone
    cases hnone
  have hout : (containerDetach s c).tree.Fresh c := by
    rw [tree_containerDetach]
    exact Tree.fresh_detach hs c hlt
  unfold leaveParent
  rw [hp]
  dsimp only
  split
  · exact Tree.Thins.fresh (thins_containerReapEmpty h _ p) hout
  · exact hout

theorem wellFormed_leaveParent (hs : s.tree.WellFormed) (c : ConId) :
    (leaveParent fo s c).tree.WellFormed ∧ s.tree.nextCon ≤ (leaveParent fo s c).tree.nextCon := by
  unfold leaveParent
  split
  · exact ⟨hs, le_rfl⟩
  next p _ =>
    have hout : (containerDetach s c).tree.WellFormed := by
      rw [tree_containerDetach]
      exact hs.detach c
    have hnext : s.tree.nextCon ≤ (containerDetach s c).tree.nextCon := by
      rw [tree_containerDetach, (Tree.rewired_detach s.tree c).nextCon]
    dsimp only
    split
    · have hthins := thins_containerReapEmpty h (containerDetach s c) p
      exact ⟨Tree.Thins.wellFormedBut hthins hout, hnext.trans hthins.frame.nextCon.ge⟩
    · exact ⟨hout, hnext⟩

theorem leaveParent_view (s : State) (c d : ConId) :
    ((leaveParent fo s c).tree.con d).view = (s.tree.con d).view := by
  unfold leaveParent
  split
  next => rfl
  next p _ =>
    have hview : ((containerDetach s c).tree.con d).view = (s.tree.con d).view := by
      rw [tree_containerDetach]
      exact (Tree.rewired_detach s.tree c).view d
    dsimp only
    split
    · exact ((thins_containerReapEmpty h (containerDetach s c) p).frame.view d).trans hview
    · exact hview

/-- The column comes from another workspace or from nowhere. -/
theorem wellFormed_settle_of_fresh (hs : s.tree.Fresh c) (w : WsId) (i : Int) :
    (placeInRow fo
      (match (s.tree.con c).workspace with
        | some w' => if w' ≠ w then containerDetach s c else s
        | none => s) w c i).tree.WellFormed := by
  refine wellFormed_placeInRow_of_fresh h ?_ w i
  split
  · split
    · rw [tree_containerDetach]
      exact hs.detach
    · exact hs
  · exact hs

/-- **`workspace_insert_column` keeps the tree well formed**, except for a container without a view
that floats on the workspace it is put on. -/
theorem wellFormed_workspaceInsertColumn (hs : s.tree.WellFormed) (hlt : c < s.tree.nextCon)
    (hc : (s.tree.con c).view = none → c ∉ (s.tree.ws w).floating) (i : Int) :
    (workspaceInsertColumn fo s w c i).tree.WellFormed := by
  have htree := tree_unpark s c
  have hs₀ : (unpark s c).tree.WellFormed := htree.symm ▸ hs
  obtain ⟨hs₁, hnext⟩ := wellFormed_leaveParent h hs₀ c
  have hview := leaveParent_view h (unpark s c) c c
  have hout : (leaveParent fo (unpark s c) c).tree.Fresh c ∨
      leaveParent fo (unpark s c) c = unpark s c ∧ (s.tree.con c).parent = none := by
    cases hp : (s.tree.con c).parent with
    | some p => exact Or.inl (fresh_leaveParent h hs₀ (htree.symm ▸ hp))
    | none =>
        right
        refine ⟨?_, rfl⟩
        unfold leaveParent
        rw [htree, hp]
  rw [htree] at hnext hview
  unfold workspaceInsertColumn
  dsimp only
  by_cases hv : (s.tree.con c).view.isSome = true
  · -- a view gets a column of its own
    rw [hview]
    simp only [if_pos hv]
    refine wellFormed_settle_of_fresh h ?_ w i
    refine fresh_workspaceCreateNewColumnAt h hs₁ ?_ (hlt.trans_le hnext) w i
    intro hnone
    rcases hout with hfresh | ⟨hsame, hp⟩
    · exact hfresh.free.parent
    · rw [hsame, htree]
      exact hp
  · rw [hview]
    simp only [if_neg hv]
    have hbare : (s.tree.con c).view = none := by simpa using hv
    rcases hout with hfresh | ⟨hsame, hp⟩
    · exact wellFormed_settle_of_fresh h hfresh w i
    · rw [hsame]
      cases hw : (s.tree.con c).workspace with
      | none =>
          have hfree := hs.free_of_nowhere hp hw
          refine wellFormed_settle_of_fresh h ?_ w i
          rw [htree]
          exact .of_free hs hfree hlt
      | some v =>
          rw [htree, hw]
          dsimp only
          by_cases hvw : v = w
          · -- the container stays on its workspace, where it must be in the row
            subst hvw
            rw [if_neg (fun hne => hne rfl)]
            refine wellFormed_placeInRow_of_mem h hs₀ ?_ i
            rw [htree]
            exact (hs.top c v id hp hw).resolve_right (hc hbare)
          · rw [if_pos hvw]
            refine wellFormed_placeInRow_of_fresh h ?_ w i
            rw [tree_containerDetach, htree]
            exact Tree.fresh_detach hs c hlt

/-! ## `workspace_insert_window` -/

omit h in
/-- Within a column the windows change places. -/
theorem wellFormed_reorderWindow (hs : s.tree.WellFormed) (hab : a ≠ b) (col : ConId) (edge : Edge)
    (after : Bool) : (reorderWindow s col a b edge after).tree.WellFormed := by
  unfold reorderWindow
  dsimp only
  split
  next => exact hs
  next hfound =>
    have ha : a ∈ (s.tree.con col).children := listFind_nonneg.mp (by omega)
    have hb : b ∈ (s.tree.con col).children := listFind_nonneg.mp (by omega)
    split
    next =>
      rw [State.tree_modTree]
      exact Tree.WellFormedBut.modList hs (r := .children col) (listSwap_perm _ _ _)
    next =>
      -- `a` is taken out and put back beside `b`
      set s' := s.modTree fun t =>
        t.modList (.children col) fun l => listDel l (listFind (s.tree.con col).children a) with hs'
      have hitems : (s'.tree.con col).children = (s.tree.con col).children.erase a := by
        show s'.tree.items (.children col) = _
        rw [hs', State.tree_modTree, Tree.items_modList_self]
        exact listDel_listFind _ a
      have hmem : b ∈ (s'.tree.con col).children := by
        rw [hitems]
        exact (List.mem_erase_of_ne hab.symm).mpr hb
      have hfind := listFind_nonneg.mpr hmem
      have hlast := listFind_lt_length hmem
      rw [if_pos hfind]
      have htree : (s'.listInsertAt (.children col)
          (listFind (s'.tree.con col).children b + if after then 1 else 0) a).tree =
          (s'.tree.modList (.children col) fun l =>
            listInsert l (listFind (s'.tree.con col).children b + if after then 1 else 0) a) :=
        tree_listInsertAt s' _ _ a
      rw [htree]
      have hok : InsertOk (s'.tree.con col).children
          (listFind (s'.tree.con col).children b + if after then 1 else 0) := by
        constructor <;> split <;> omega
      generalize (listFind (s'.tree.con col).children b + if after then 1 else 0) = i at hok ⊢
      refine hs.perm (fun r => ?_) (fun d => ?_) (fun d => ?_) rfl
      · by_cases hr : r = .children col
        · subst hr
          rw [Tree.items_modList_self]
          refine (listInsert_perm hok).trans ?_
          rw [hitems]
          exact (List.perm_cons_erase ha).symm
        · rw [Tree.items_modList_ne _ _ _ _ hr]
          exact .of_eq (Tree.items_modList_ne s.tree _ _ _ hr)
      · rw [Tree.con_modList_parent, hs', State.tree_modTree, Tree.con_modList_parent]
      · rw [Tree.con_modList_workspace, hs', State.tree_modTree, Tree.con_modList_workspace]

omit h in
/-- A window goes into a column beside one of its windows, or first. -/
theorem wellFormed_insertIntoColumn (hs : s.tree.WellFormed) (hc : s.tree.Free c)
    (hlt : c < s.tree.nextCon) {col : ConId} (hcol : col < s.tree.nextCon)
    (hapart : s.tree.Apart (· = c) col) {after : Bool}
    (hlast : after = true → d ∈ (s.tree.con col).children) :
    (insertIntoColumn s col c d after).tree.WellFormed := by
  have hbound : listFind (s.tree.con col).children d < (s.tree.con col).children.length ∨
      listFind (s.tree.con col).children d = -1 := by
    by_cases hd : d ∈ (s.tree.con col).children
    · exact Or.inl (listFind_lt_length hd)
    · exact Or.inr (listFind_of_not_mem hd)
  have hfound : after = true → 0 ≤ listFind (s.tree.con col).children d :=
    fun ha => listFind_nonneg.mpr (hlast ha)
  unfold insertIntoColumn
  dsimp only
  rw [(onlyGeometry_containerFitVerticalChildren _ _ _).tree, tree_attach]
  refine (hs.attach hc hlt ⟨?_, ?_⟩).mono fun _ hd => hd.1
  · show InsertOk (s.tree.con col).children _
    cases after with
    | true =>
        have hin := hfound rfl
        constructor <;> simp only [if_true] <;> split <;> omega
    | false => constructor <;> simp only [Bool.false_eq_true, if_false] <;> split <;> omega
  · intro p hp
    cases hp
    exact ⟨(hapart c rfl).1, (hapart c rfl).2, hcol⟩

/-- The end of `workspace_insert_window` only thins out. -/
theorem wellFormed_reapOldParent (hs : s.tree.WellFormed) (p : Option ConId) :
    (reapOldParent fo s p).tree.WellFormed := by
  unfold reapOldParent
  split
  · split
    · exact Tree.Thins.wellFormedBut (thins_containerReapEmpty h s _) hs
    · exact hs
  · exact hs

omit h in
/-- The drop of `workspace_insert_window` that goes into the column of the target. -/
def DropsInto (s : State) (view target : ConId) (edge : Edge) : Prop :=
  edge.intoColumn = true ∧
    ¬ (containerToplevelAncestor s.tree view = containerToplevelAncestor s.tree target ∧
      target ≠ containerToplevelAncestor s.tree view)

omit h in
/-- The drop of `workspace_insert_window` that moves the column of the window. -/
def MovesColumn (s : State) (view target : ConId) (edge : Edge) : Prop :=
  containerToplevelAncestor s.tree view ≠ containerToplevelAncestor s.tree target ∧
    edge.intoColumn = false ∧
      (s.tree.con (containerToplevelAncestor s.tree view)).children = [view]

omit h in
instance (s : State) (view target : ConId) (edge : Edge) :
    Decidable (DropsInto s view target edge) := inferInstanceAs (Decidable (_ ∧ _))

omit h in
instance (s : State) (view target : ConId) (edge : Edge) :
    Decidable (MovesColumn s view target edge) := inferInstanceAs (Decidable (_ ∧ _))

omit h in
theorem toplevel_lt (hs : s.tree.WellFormed) (hlt : c < s.tree.nextCon) :
    containerToplevelAncestor s.tree c < s.tree.nextCon := by
  rcases hs.forest.toplevel_above c with heq | hbelow
  · rwa [heq]
  · exact hs.forest.above_lt hbelow

/-- **`workspace_insert_window` keeps the tree well formed**, when a window that goes into a column
goes beside one of its windows, and a column that moves is not a floating container of the
workspace. -/
theorem wellFormed_workspaceInsertWindow (hs : s.tree.WellFormed) (hlt : c < s.tree.nextCon)
    (hltd : d < s.tree.nextCon) {edge : Edge} {after : Bool}
    (hinto : c ≠ d → DropsInto s c d edge → after = true →
      d ∈ (s.tree.con (containerToplevelAncestor s.tree d)).children)
    (hmove : c ≠ d → MovesColumn s c d edge →
      (s.tree.con (containerToplevelAncestor s.tree c)).view = none →
        containerToplevelAncestor s.tree c ∉ (s.tree.ws w).floating) :
    (workspaceInsertWindow fo s w c d edge after).tree.WellFormed := by
  unfold workspaceInsertWindow
  split
  next => exact hs
  next hcd =>
    dsimp only
    split
    next => exact wellFormed_reorderWindow hs hcd _ edge after
    next hcols =>
      split
      next hsolo =>
        exact wellFormed_workspaceInsertColumn h hs (toplevel_lt hs hlt) (hmove hcd hsolo) _
      next =>
        refine wellFormed_reapOldParent h ?_ _
        have hout : (containerDetach s c).tree.Fresh c := by
          rw [tree_containerDetach]
          exact Tree.fresh_detach hs c hlt
        have hwf : (containerDetach s c).tree.WellFormed := by
          rw [tree_containerDetach]
          exact hs.detach c
        split
        next hedge =>
          -- the column of the target is not the window, so it can take the window
          have htop := hs.forest.toplevel_parent d
          have hne : containerToplevelAncestor s.tree d ≠ c := by
            intro he
            have htopc : containerToplevelAncestor s.tree c = c :=
              Tree.toplevel_of_top (he ▸ htop)
            exact hcols ⟨htopc.trans he.symm, fun hd => hcd (htopc ▸ hd).symm⟩
          refine wellFormed_insertIntoColumn hwf hout.free hout.lt ?_ ?_ ?_
          · exact (toplevel_lt hs hltd).trans_le
              (by rw [tree_containerDetach, (Tree.rewired_detach s.tree c).nextCon])
          · refine Tree.Apart.of_single hne (Tree.not_hangsBelow_of_top ?_)
            rw [tree_containerDetach, Tree.detach_parent, htop, ite_self]
          · intro ha
            have hmem := hinto hcd ⟨hedge, hcols⟩ ha
            rw [tree_containerDetach]
            show d ∈ (s.tree.detach c).items (.children _)
            rw [Tree.detach_items hs.linked]
            exact (List.mem_erase_of_ne (Ne.symm hcd)).mpr hmem
        next =>
          exact wellFormed_workspaceInsertColumn h hwf hout.lt
            (fun _ => hout.free.unlisted (.floating w)) _

/-! ## The exchanges -/

omit h in
/-- A tree in which two containers are on workspaces. -/
def BothPlaced (a b : ConId) (t : Tree) : Prop :=
  (t.con a).workspace.isSome ∧ (t.con b).workspace.isSome

omit h in
instance (a b : ConId) (t : Tree) : Decidable (BothPlaced a b t) :=
  inferInstanceAs (Decidable (_ ∧ _))

omit h in
theorem Thins.bothPlaced_iff {K : ConId → Prop} {u u' : State}
    (hthins : Thins K Nobody u.core u'.core) (hu : u.tree.WellFormed) :
    BothPlaced a b u'.tree ↔ BothPlaced a b u.tree := by
  have hws : ∀ c, (u'.tree.con c).workspace.isSome = (u.tree.con c).workspace.isSome :=
    Tree.Thins.workspace_isSome hthins hu
  unfold BothPlaced
  rw [hws, hws]

omit h in
/-- Two containers that were both detached are put into lists of workspaces. -/
theorem wellFormed_exchange {t : Tree} (ht : t.WellFormed) (hlta : a < t.nextCon)
    (hltb : b < t.nextCon) (hab : a ≠ b) {ra rb : Tree.ListRef} {ia ib : Int}
    (hra : ra.parent none = none ∧ ∀ u, (ra.workspace u).isSome)
    (hrb : rb.parent none = none ∧ ∀ u, (rb.workspace u).isSome)
    (hia : InsertOk (((t.detach a).detach b).items ra) ia)
    (hib : InsertOk ((((t.detach a).detach b).attach ra ia a).items rb) ib) :
    ((((t.detach a).detach b).attach ra ia a).attach rb ib b).WellFormed ∧
      BothPlaced a b ((((t.detach a).detach b).attach ra ia a).attach rb ib b) := by
  have htop : ∀ {r : Tree.ListRef}, r.parent none = none → ∀ p, r ≠ .children p := by
    rintro r hr p rfl
    cases hr
  have hnext : ((t.detach a).detach b).nextCon = t.nextCon :=
    ((Tree.rewired_detach _ b).nextCon).trans (Tree.rewired_detach t a).nextCon
  have hout := (ht.detach a).detach b
  have hfreea : ((t.detach a).detach b).Free a := (Tree.free_detach ht a).detach b
  have hfreeb : ((t.detach a).detach b).Free b := Tree.free_detach (ht.detach a) b
  have htakesa : ((t.detach a).detach b).Takes ra ia a :=
    ⟨hia, fun p hp => absurd hp (htop hra.1 p)⟩
  have hput := hout.attach hfreea (hnext ▸ hlta) htakesa
  have hfreeb' : (((t.detach a).detach b).attach ra ia a).Free b := hfreeb.attach hab.symm
  have htakesb : (((t.detach a).detach b).attach ra ia a).Takes rb ib b :=
    ⟨hib, fun p hp => absurd hp (htop hrb.1 p)⟩
  have hltb' : b < (((t.detach a).detach b).attach ra ia a).nextCon := by
    rw [(Tree.rewired_attach _ _ _ _).nextCon, hnext]
    exact hltb
  refine ⟨(hput.attach hfreeb' hltb' htakesb).mono fun _ hd => hd.1.1, ?_, ?_⟩
  · have hparent : ((((t.detach a).detach b).attach ra ia a).con a).parent = none := by
      rw [Tree.attach_parent, if_pos rfl, hfreea.parent, hra.1]
    rw [Tree.attach_workspace_outside hput hfreeb' htakesb hab
      (Tree.not_hangsBelow_of_top hparent),
      Tree.attach_workspace_inside hout hfreea htakesa (Or.inl rfl)]
    exact hra.2 _
  · rw [Tree.attach_workspace_inside hput hfreeb' htakesb (Or.inl rfl)]
    exact hrb.2 _

theorem wellFormed_reparentBoth (hs : s.tree.WellFormed) (hp : BothPlaced a b s.tree) :
    (containerHandleFullscreenReparent fo (containerHandleFullscreenReparent fo s a) b).tree.WellFormed
      ∧ BothPlaced a b
        (containerHandleFullscreenReparent fo (containerHandleFullscreenReparent fo s a) b).tree := by
  have hfirst := thins_containerHandleFullscreenReparent h s a
  have hsecond :=
    thins_containerHandleFullscreenReparent h (containerHandleFullscreenReparent fo s a) b
  have hboth := hfirst.trans hsecond
  exact ⟨Tree.Thins.wellFormedBut hboth hs, (Thins.bothPlaced_iff hboth hs).mpr hp⟩

/-- **`workspace_swap_columns` keeps the tree well formed**, and two containers on workspaces stay
on workspaces. -/
theorem wellFormed_workspaceSwapColumns (hs : s.tree.WellFormed) (a b : ConId) :
    (workspaceSwapColumns fo s a b).tree.WellFormed ∧
      (BothPlaced a b s.tree → BothPlaced a b (workspaceSwapColumns fo s a b).tree) := by
  unfold workspaceSwapColumns
  split
  next => exact ⟨hs, id⟩
  next hab =>
    split
    next wa wb ha hb =>
      dsimp only
      split
      next => exact ⟨hs, id⟩
      next hfound =>
        have hma : a ∈ (s.tree.ws wa).tiling := listFind_nonneg.mp (by omega)
        have hmb : b ∈ (s.tree.ws wb).tiling := listFind_nonneg.mp (by omega)
        split
        next hw =>
          subst hw
          rw [tree_swapColumnsSame hs.linked hma hmb hab]
          refine ⟨hs.modList ?_, fun hp => ?_⟩
          · exact map_swap_perm (hs.linked.nodup (.tiling wa)) hma hmb
          · unfold BothPlaced
            rw [Tree.con_modList_workspace, Tree.con_modList_workspace]
            exact hp
        next hw =>
          unfold swapColumnsAcross
          dsimp only
          have hok : InsertOk (((s.tree.detach a).detach b).items (.tiling wb))
              (min (listFind (s.tree.ws wa).tiling a)
                (((s.tree.detach a).detach b).ws wb).tiling.length) := by
            show InsertOk (((s.tree.detach a).detach b).ws wb).tiling _
            constructor <;> omega
          have hok' : InsertOk ((((s.tree.detach a).detach b).attach (.tiling wb)
              (min (listFind (s.tree.ws wa).tiling a)
                (((s.tree.detach a).detach b).ws wb).tiling.length) a).items (.tiling wa))
              (min (listFind (s.tree.ws wb).tiling b)
                (((s.tree.detach a).detach b).ws wa).tiling.length) := by
            rw [Tree.attach_items, if_neg fun he => hw (Tree.ListRef.tiling.inj he)]
            show InsertOk (((s.tree.detach a).detach b).ws wa).tiling _
            constructor <;> omega
          have hput := wellFormed_exchange hs (hs.lt_of_workspace ha) (hs.lt_of_workspace hb) hab
            ⟨rfl, fun _ => rfl⟩ ⟨rfl, fun _ => rfl⟩ hok hok'
          rw [← tree_containerDetach s a, ← tree_containerDetach, ← tree_attach, ← tree_attach,
            ← tree_swapWidths _ a b] at hput
          have hall := wellFormed_reparentBoth h hput.1 hput.2
          exact ⟨hall.1, fun _ => hall.2⟩
    next => exact ⟨hs, id⟩

omit h in
theorem tree_swapPositions (s : State) (a b : ConId) : (swapPositions s a b).tree = s.tree := rfl

/-- **`workspace_swap_floating` keeps the tree well formed**, and two containers on workspaces stay
on workspaces. -/
theorem wellFormed_workspaceSwapFloating (hs : s.tree.WellFormed) (a b : ConId) :
    (workspaceSwapFloating fo s a b).tree.WellFormed ∧
      (BothPlaced a b s.tree → BothPlaced a b (workspaceSwapFloating fo s a b).tree) := by
  unfold workspaceSwapFloating
  split
  next => exact ⟨hs, id⟩
  next hab =>
    split
    next wa wb ha hb =>
      split
      next => exact ⟨hs, id⟩
      next hw =>
        dsimp only
        have hok : InsertOk (((s.tree.detach a).detach b).items (.floating wb)) _ :=
          insertOk_length _
        have hok' : InsertOk ((((s.tree.detach a).detach b).attach (.floating wb)
            (((s.tree.detach a).detach b).items (.floating wb)).length a).items (.floating wa)) _ :=
          insertOk_length _
        have hput := wellFormed_exchange hs (hs.lt_of_workspace ha) (hs.lt_of_workspace hb) hab
          ⟨rfl, fun _ => rfl⟩ ⟨rfl, fun _ => rfl⟩ hok hok'
        rw [← tree_containerDetach s a, ← tree_containerDetach, ← tree_attach, ← tree_attach,
          ← tree_swapPositions _ a b] at hput
        have hall := wellFormed_reparentBoth h hput.1 hput.2
        exact ⟨hall.1, fun _ => hall.2⟩
    next => exact ⟨hs, id⟩

end Rows

end Swirl
