import Swirl.Tree.ShapeCommands
import Swirl.Input.FocusModes

set_option autoImplicit false

/-! # `release` and `take` are inverse

`cmd_release` moves the windows below the focused one to a column of their own, from the last one
up, each to the front. `cmd_take` moves the windows of the next column to the end of the column,
from the first one down, and destroys the column this leaves empty. So the second undoes the
first, and the first changes no order of windows.
-/

namespace Swirl

open Lib

/-! ## What moving windows leaves alone -/

/-- Only containers in `M` are moved. -/
structure Steady (M : ConId → Prop) (s s' : State) : Prop where
  linked : s'.tree.Linked
  /-- What hangs nowhere stays so, on the workspace it was created for. -/
  loose : ∀ x, ¬ M x → s.tree.Free x →
    s'.tree.Free x ∧ (s'.tree.con x).workspace = (s.tree.con x).workspace
  view : ∀ x, (s'.tree.con x).view = (s.tree.con x).view
  scratchpad : ∀ x, (s.tree.con x).scratchpad = false → (s'.tree.con x).scratchpad = false
  nextCon : s'.tree.nextCon = s.tree.nextCon
  windowed : KeepsWindowed s s'

namespace Tree

/-- The lists other than the floating ones. -/
def ListRef.IsTiled (r : ListRef) : Prop := ∀ w, r ≠ .floating w

theorem ListRef.isTiled_tiling (w : WsId) : (ListRef.tiling w).IsTiled := fun _ h => by cases h

theorem ListRef.isTiled_children (c : ConId) : (ListRef.children c).IsTiled :=
  fun _ h => by cases h

variable {t t' : Tree} {K D : ConId → Prop} {k k' : Core} {c x : ConId}

theorem Rewired.scratchpad (h : Rewired t t') (c : ConId) :
    (t'.con c).scratchpad = (t.con c).scratchpad := by
  rw [← h.con c]

/-- Nothing that thins out puts a container into the scratchpad. -/
theorem Thin.scratchpad (h : Thin K D k k') (hx : (k.tree.con x).scratchpad = false) :
    (k'.tree.con x).scratchpad = false := by
  cases h with
  | refloat v w d _ =>
      rw [Core.refloat_tree]
      exact (((rewired_detach k.tree d).trans (rewired_attach _ _ _ d)).scratchpad x).trans hx
  | unpark d => exact hx
  | endWorkspace w _ _ =>
      rw [Core.endWorkspace_con]
      exact hx
  | @kill d hd =>
      by_cases hxd : x = d
      · subst hxd
        simpa [Core.kill, modCon] using hx
      · simpa [Core.kill, modCon, Function.update_of_ne hxd] using hx
  | detach _ => exact ((rewired_detach k.tree _).scratchpad x).trans hx
  | @unscratch d hd =>
      by_cases hxd : x = d
      · subst hxd
        simp [Core.unscratch, modCon]
      · simpa [Core.unscratch, modCon, Function.update_of_ne hxd] using hx
  | measure w single =>
      rw [Core.measure_tree]
      exact hx

/-- A container that hangs nowhere keeps its workspace: only floating containers move. -/
theorem Thin.loose (h : Thin K Nobody k k') (hk : k.tree.Linked) (hx : k.tree.Free x) :
    (k'.tree.con x).workspace = (k.tree.con x).workspace := by
  cases h with
  | refloat v w d hd =>
      have hxd : x ≠ d := fun he => hx.unlisted (.floating v) (he ▸ hd)
      have hout : ((k.tree.detach d).con x).parent = none := by
        rw [detach_parent, if_neg hxd]
        exact hx.parent
      rw [Core.refloat_tree, attach_workspace_of_top (hk.detach d) hxd hout,
        detach_workspace_of_top hk hxd hx.parent]
  | unpark d => rfl
  | endWorkspace w _ _ => rw [Core.endWorkspace_con]
  | kill _ => rw [Core.kill_workspace]
  | detach hd => exact hd.elim
  | unscratch _ => rw [Core.unscratch_workspace]
  | measure w single => rw [Core.measure_tree]

/-- A container that hangs nowhere but names a workspace can be listed in its row. -/
theorem Linked.insert_tiling (ht : t.Linked) (hc : t.Free c) {w : WsId}
    (hw : (t.con c).workspace = some w) (i : Int) :
    (t.modList (.tiling w) fun l => listInsert l i c).Linked := by
  have hitems : ∀ r x, x ∈ (t.modList (.tiling w) fun l => listInsert l i c).items r →
      (x = c ∧ r = .tiling w) ∨ x ∈ t.items r := by
    intro r x hx
    by_cases hr : r = .tiling w
    · subst hr
      rw [items_modList_self] at hx
      rcases mem_of_mem_listInsert hx with rfl | hx
      · exact Or.inl ⟨rfl, rfl⟩
      · exact Or.inr hx
    · rw [items_modList_ne t _ r _ hr] at hx
      exact Or.inr hx
  refine ⟨fun r x hx => ?_, fun v x hx hf => ?_, fun r => ?_⟩
  · rcases hitems r x hx with ⟨rfl, rfl⟩ | hold
    · exact ⟨hc.parent, hw⟩
    · have hl := ht.link r x hold
      cases r with
      | tiling v => exact hl
      | floating v => exact hl
      | children p =>
          show ((t.modList _ _).con x).parent = some p
          rw [con_modList_parent]
          exact hl
  · have hold : x ∈ t.items (.floating v) := by
      rcases hitems (.floating v) x hf with ⟨-, hr⟩ | hold
      · cases hr
      · exact hold
    rcases hitems (.tiling v) x hx with ⟨rfl, -⟩ | htiled
    · exact hc.unlisted _ hold
    · exact ht.apart v x htiled hold
  · by_cases hr : r = .tiling w
    · subst hr
      rw [items_modList_self]
      exact listInsert_nodup (ht.nodup _) (hc.unlisted _)
    · rw [items_modList_ne t _ r _ hr]
      exact ht.nodup r

end Tree

namespace Steady

variable {M M' : ConId → Prop} {K : ConId → Prop} {s s' s'' : State} {c : ConId}

theorem refl (hs : s.tree.Linked) : Steady M s s :=
  ⟨hs, fun _ _ hx => ⟨hx, rfl⟩, fun _ => rfl, fun _ hx => hx, rfl, .refl s⟩

theorem trans (h : Steady M s s') (h' : Steady M s' s'') : Steady M s s'' where
  linked := h'.linked
  loose x hm hx := by
    obtain ⟨hfree, hws⟩ := h.loose x hm hx
    obtain ⟨hfree', hws'⟩ := h'.loose x hm hfree
    exact ⟨hfree', hws'.trans hws⟩
  view x := (h'.view x).trans (h.view x)
  scratchpad x hx := h'.scratchpad x (h.scratchpad x hx)
  nextCon := h'.nextCon.trans h.nextCon
  windowed := h.windowed.trans h'.windowed

theorem mono (h : Steady M s s') (hM : ∀ x, M x → M' x) : Steady M' s s' :=
  { h with loose := fun x hx hfree => h.loose x (fun hm => hx (hM x hm)) hfree }

theorem of_tree (hs : s.tree.Linked) (htree : s'.tree = s.tree) (hw : KeepsWindowed s s') :
    Steady M s s' := by
  refine ⟨htree ▸ hs, fun x _ hx => ⟨htree ▸ hx, by rw [htree]⟩, fun x => by rw [htree],
    fun x hx => ?_, by rw [htree], hw⟩
  rw [htree]
  exact hx

theorem of_geometry (hs : s.tree.Linked) (h : OnlyGeometry s s') : Steady M s s' :=
  of_tree hs h.tree (.of_geometry h)

theorem of_thins (hs : s.tree.Linked) (h : Thins K Nobody s.core s'.core)
    (hw : KeepsWindowed s s') : Steady M s s' := by
  refine ⟨h.linked hs, fun x _ hx => ⟨Tree.Thins.free h hx, ?_⟩, h.frame.view, fun x hx => ?_,
    h.frame.nextCon, hw⟩
  · have hstep := h.invariant (I := fun j => j.tree.Linked ∧ j.tree.Free x ∧
      (j.tree.con x).workspace = (s.tree.con x).workspace) ?_ ⟨hs, hx, rfl⟩
    · exact hstep.2.2
    · rintro a b ⟨ha, hfree, hws⟩ hab
      exact ⟨hab.linked ha, Tree.Thin.free hab hfree, (Tree.Thin.loose hab ha hfree).trans hws⟩
  · exact h.invariant (I := fun j => (j.tree.con x).scratchpad = false)
      (fun _ _ ha hab => Tree.Thin.scratchpad hab ha) hx

theorem detach (hs : s.tree.Linked) (c : ConId) : Steady (· = c) s (containerDetach s c) := by
  have hrewired := Tree.rewired_detach s.tree c
  refine ⟨?_, fun x hxc hx => ?_, fun x => ?_, fun x hx => ?_, ?_,
    .of_mode (mode_containerDetach s c)⟩ <;> rw [tree_containerDetach]
  · exact hs.detach c
  · exact ⟨hx.detach c, Tree.detach_workspace_of_top hs hxc hx.parent⟩
  · exact hrewired.view x
  · exact (hrewired.scratchpad x).trans hx
  · exact hrewired.nextCon

/-- A container that hangs nowhere is put into a list. -/
theorem attach (hs : s.tree.Linked) (hc : s.tree.Free c) (r : Tree.ListRef) (i : Int) :
    Steady (· = c) s (s.attach r i c) := by
  have hrewired := Tree.rewired_attach s.tree r i c
  refine ⟨?_, fun x hxc hx => ?_, fun x => ?_, fun x hx => ?_, ?_,
    .of_mode (congrArg (fun f => f.mode) (full_attach s r i c))⟩ <;> rw [tree_attach]
  · exact hs.attach hc.unlisted hc.parent r i
  · exact ⟨hx.attach hxc, Tree.attach_workspace_of_top hs hxc hx.parent⟩
  · exact hrewired.view x
  · exact (hrewired.scratchpad x).trans hx
  · exact hrewired.nextCon

end Steady

/-! ## One window -/

section Moves

variable {fo : FocusOps} (h : FocusThins fo) (hw : FocusKeepsWindowed fo) {s : State}
  {c dst src : ConId}

theorem free_containerDetach (hs : s.tree.Linked) (c : ConId) :
    (containerDetach s c).tree.Free c := by
  rw [tree_containerDetach]
  exact ⟨Tree.detach_parent_self s.tree c, Tree.not_mem_items_detach hs c⟩

theorem detachIfPlaced_containerDetach (s : State) (c : ConId) :
    detachIfPlaced (containerDetach s c) c = containerDetach s c := by
  unfold detachIfPlaced
  rw [tree_containerDetach, Tree.detach_workspace_self]
  rfl

include h hw

/-- A window is put into a list, where it leaves every other one. -/
theorem steady_put (hs : s.tree.Linked) (c dst : ConId) (i : Int) :
    Steady (· = c) s (containerFitVerticalChildren (containerHandleFullscreenReparent fo
        ((containerDetach s c).attach (.children dst) i c) c) (some dst) c) ∧
      ∀ r : Tree.ListRef, r.IsTiled →
        (containerFitVerticalChildren (containerHandleFullscreenReparent fo
          ((containerDetach s c).attach (.children dst) i c) c) (some dst) c).tree.items r =
        if r = .children dst then listInsert ((s.tree.items r).erase c) i c
        else (s.tree.items r).erase c := by
  have hout := Steady.detach hs c
  have hput := hout.trans (Steady.attach hout.linked (free_containerDetach hs c) (.children dst) i)
  set u := (containerDetach s c).attach (.children dst) i c with hu
  have hthins := thins_containerHandleFullscreenReparent h u c
  have hfull := hput.trans (Steady.of_thins hput.linked hthins
    (keepsWindowed_containerHandleFullscreenReparent hw u c))
  have hgeo := onlyGeometry_containerFitVerticalChildren (containerHandleFullscreenReparent fo u c)
    (some dst) c
  refine ⟨hfull.trans (.of_geometry hfull.linked hgeo), fun r hr => ?_⟩
  have hitems : (containerHandleFullscreenReparent fo u c).tree.items r = u.tree.items r :=
    hthins.items_eq hput.linked hr
  rw [hgeo.tree, hitems, hu, tree_attach, Tree.attach_items, tree_containerDetach]
  simp only [Tree.detach_items hs]
  split
  next hdst => rw [hdst]
  next => rfl

/-- `container_detach`, then `container_add_child`. -/
theorem steady_moveLast (hs : s.tree.Linked) (c dst : ConId) :
    Steady (· = c) s (containerAddChild fo (containerDetach s c) dst c) ∧
      ∀ r : Tree.ListRef, r.IsTiled →
        (containerAddChild fo (containerDetach s c) dst c).tree.items r =
          if r = .children dst then (s.tree.items r).erase c ++ [c]
          else (s.tree.items r).erase c := by
  have hlast := steady_put h hw hs c dst ((containerDetach s c).tree.items (.children dst)).length
  unfold containerAddChild State.attachLast
  rw [detachIfPlaced_containerDetach]
  refine ⟨hlast.1, fun r hr => (hlast.2 r hr).trans ?_⟩
  split
  next hdst =>
    rw [hdst, tree_containerDetach, Tree.detach_items hs]
    have hend := listInsert_append ((s.tree.items (.children dst)).erase c) [] c
    rwa [List.append_nil] at hend
  next => rfl

/-- `container_detach`, then `container_insert_child` at the front. -/
theorem steady_moveFirst (hs : s.tree.Linked) (c dst : ConId) :
    Steady (· = c) s (containerInsertChild fo (containerDetach s c) dst c 0) ∧
      ∀ r : Tree.ListRef, r.IsTiled →
        (containerInsertChild fo (containerDetach s c) dst c 0).tree.items r =
          if r = .children dst then c :: (s.tree.items r).erase c
          else (s.tree.items r).erase c := by
  have hfirst := steady_put h hw hs c dst 0
  unfold containerInsertChild
  rw [detachIfPlaced_containerDetach]
  refine ⟨hfirst.1, fun r hr => (hfirst.2 r hr).trans ?_⟩
  split
  · exact listInsert_append [] ((s.tree.items r).erase c) c
  · rfl

/-! ## All windows of a column -/

omit h hw in
/-- A window is in no list but its own. -/
theorem erase_of_ne (hs : s.tree.Linked) {r r' : Tree.ListRef} (hc : c ∈ s.tree.items r)
    (hr : r' ≠ r) : (s.tree.items r').erase c = s.tree.items r' :=
  List.erase_of_not_mem fun hmem => hr (hs.unique hmem hc)

/-- **The loop of `take`** empties one list at the end of another. -/
theorem steady_takeChildren {l : List ConId} (hs : s.tree.Linked)
    (hl : (s.tree.con src).children = l) (hne : src ≠ dst) :
    Steady (· ∈ l) s (takeChildren fo dst src l.length s) ∧
      ∀ r : Tree.ListRef, r.IsTiled →
        (takeChildren fo dst src l.length s).tree.items r =
          if r = .children dst then s.tree.items r ++ l
          else if r = .children src then [] else s.tree.items r := by
  have hdiff : Tree.ListRef.children src ≠ .children dst := by
    intro heq
    cases heq
    exact hne rfl
  induction l generalizing s with
  | nil =>
      refine ⟨Steady.refl hs, fun r _ => ?_⟩
      show s.tree.items r = _
      split
      · rw [List.append_nil]
      · split
        next hr =>
          rw [hr]
          exact hl
        next => rfl
  | cons c l ih =>
      have hmem : c ∈ s.tree.items (.children src) := by
        show c ∈ (s.tree.con src).children
        rw [hl]
        exact List.mem_cons_self
      obtain ⟨hstep, hitems⟩ := steady_moveLast h hw hs c dst
      set u := containerAddChild fo (containerDetach s c) dst c with hu
      -- the window at the front is gone from its column
      have hrest : (u.tree.con src).children = l := by
        have hsrc := hitems (.children src) (Tree.ListRef.isTiled_children src)
        rw [if_neg hdiff] at hsrc
        calc (u.tree.con src).children = ((s.tree.con src).children).erase c := hsrc
          _ = l := by rw [hl, List.erase_cons_head]
      obtain ⟨hloop, hmoved⟩ := ih hstep.linked hrest
      have hunfold : takeChildren fo dst src (c :: l).length s =
          takeChildren fo dst src l.length u := by
        rw [List.length_cons, takeChildren, hl]
      rw [hunfold]
      refine ⟨(hstep.mono fun x hx => ?_).trans (hloop.mono fun x hx => ?_), fun r hr => ?_⟩
      · rw [hx]
        exact List.mem_cons_self
      · exact List.mem_cons_of_mem c hx
      · rw [hmoved r hr, hitems r hr]
        by_cases hdst : r = .children dst
        · rw [if_pos hdst, if_pos hdst, if_pos hdst, List.append_assoc, hdst,
            erase_of_ne hs hmem (Ne.symm hdiff)]
          rfl
        · rw [if_neg hdst, if_neg hdst, if_neg hdst]
          split
          · rfl
          next hsrc => exact erase_of_ne hs hmem hsrc

/-- **The loop of `release`** moves the end of one list to the front of another. -/
theorem steady_releaseChildren {keep l : List ConId} (hs : s.tree.Linked)
    (hl : (s.tree.con src).children = keep ++ l) (hne : src ≠ dst) :
    Steady (· ∈ l) s (releaseChildren fo dst s l) ∧
      ∀ r : Tree.ListRef, r.IsTiled →
        (releaseChildren fo dst s l).tree.items r =
          if r = .children dst then l ++ s.tree.items r
          else if r = .children src then keep else s.tree.items r := by
  have hdiff : Tree.ListRef.children src ≠ .children dst := by
    intro heq
    cases heq
    exact hne rfl
  induction l using List.reverseRecOn generalizing s with
  | nil =>
      refine ⟨Steady.refl hs, fun r _ => ?_⟩
      show s.tree.items r = _
      split
      · rfl
      · split
        next hr =>
          rw [hr]
          exact hl.trans (List.append_nil keep)
        next => rfl
  | append_singleton l c ih =>
      have hnodup : (keep ++ l ++ [c]).Nodup := by
        have hlist := hs.nodup (.children src)
        rw [List.append_assoc, ← hl]
        exact hlist
      have hmem : c ∈ s.tree.items (.children src) := by
        show c ∈ (s.tree.con src).children
        rw [hl]
        simp
      obtain ⟨hstep, hitems⟩ := steady_moveFirst h hw hs c dst
      set u := containerInsertChild fo (containerDetach s c) dst c 0 with hu
      -- the window at the end is gone from its column
      have hrest : (u.tree.con src).children = keep ++ l := by
        have hsrc := hitems (.children src) (Tree.ListRef.isTiled_children src)
        rw [if_neg hdiff] at hsrc
        have hnot : c ∉ keep ++ l := by
          intro hc
          exact (List.nodup_append.mp hnodup).2.2 c hc c (List.mem_singleton_self c) rfl
        calc (u.tree.con src).children = ((s.tree.con src).children).erase c := hsrc
          _ = (keep ++ l ++ [c]).erase c := by rw [hl, List.append_assoc]
          _ = keep ++ l := by rw [List.erase_append_right _ hnot]; simp
      obtain ⟨hloop, hmoved⟩ := ih hstep.linked hrest
      have hunfold : releaseChildren fo dst s (l ++ [c]) = releaseChildren fo dst u l := by
        unfold releaseChildren
        rw [List.reverse_append]
        rfl
      rw [hunfold]
      refine ⟨(hstep.mono fun x hx => ?_).trans (hloop.mono fun x hx => ?_), fun r hr => ?_⟩
      · rw [hx]
        simp
      · exact List.mem_append_left [c] hx
      · rw [hmoved r hr, hitems r hr]
        by_cases hdst : r = .children dst
        · rw [if_pos hdst, if_pos hdst, if_pos hdst, hdst, erase_of_ne hs hmem (Ne.symm hdiff),
            List.append_assoc]
          rfl
        · rw [if_neg hdst, if_neg hdst, if_neg hdst]
          split
          · rfl
          next hsrc => exact erase_of_ne hs hmem hsrc

end Moves

/-! ## `release` -/

section Release

variable {s : State} {c col : ConId} {w : WsId}

/-- A new column for a workspace, before it is listed: nothing else changes. -/
structure Created (w : WsId) (s s' : State) : Prop where
  linked : s'.tree.Linked
  free : s'.tree.Free s.tree.nextCon
  named : (s'.tree.con s.tree.nextCon).workspace = some w
  bare : (s'.tree.con s.tree.nextCon).view = none
  items : ∀ r, s'.tree.items r = s.tree.items r
  con : ∀ x, x ≠ s.tree.nextCon → s'.tree.con x = s.tree.con x
  nextCon : s'.tree.nextCon = s.tree.nextCon + 1
  windowed : KeepsWindowed s s'

theorem keepsWindowed_createColumn (s : State) (w : Option WsId) :
    KeepsWindowed s (createColumn s w) := by
  have hseat : ∀ (t : State) k f, KeepsWindowed t (t.modSeat k f) := fun t k f => .of_mode rfl
  have hnew : ∀ (t : State) (node : Node), KeepsWindowed t (emitNewNode t node) := by
    intro t node
    unfold emitNewNode
    exact KeepsWindowed.foldl (fun u k => hseat u k _) t.seats t
  have hblank : ∀ t : State, KeepsWindowed t (((t.setMode s.tree.nextCon .none).setMinimized
      s.tree.nextCon false).setWasFloating s.tree.nextCon false) :=
    fun t => (keepsWindowed_setMode_none t s.tree.nextCon).trans (.of_mode rfl)
  have hcreate : KeepsWindowed s (containerCreate s none) := by
    unfold containerCreate
    dsimp only
    refine KeepsWindowed.trans (.trans (.of_mode ?_) (hblank _)) (hnew _ _)
    rfl
  exact hcreate.trans (.of_mode rfl)

theorem created_newColumn (hs : s.tree.WellFormed) (w : WsId) (i : Int) :
    Created w s (workspaceFitNewColumn (createColumn s (some w)) w s.tree.nextCon i) := by
  have hfresh := Tree.fresh_createLoose hs (some w)
  have hgeo := onlyGeometry_workspaceFitNewColumn (createColumn s (some w)) w s.tree.nextCon i
  have htree := hgeo.tree.trans (tree_createColumn s (some w))
  refine ⟨?_, ?_, ?_, ?_, fun r => ?_, fun x hx => ?_, ?_,
    (keepsWindowed_createColumn s (some w)).trans (.of_geometry hgeo)⟩ <;> rw [htree]
  · exact hfresh.wellFormed.linked
  · exact hfresh.free
  · simp [Tree.createLoose, Tree.modCon]
  · simp [Tree.createLoose, Tree.modCon, Tree.create]
  · cases r with
    | tiling v => rfl
    | floating v => rfl
    | children d =>
        show ((s.tree.createLoose (some w)).con d).children = (s.tree.con d).children
        by_cases hd : d = s.tree.nextCon
        · subst hd
          rw [(hs.unused _ le_rfl).2.2]
          simp [Tree.createLoose, Tree.modCon, Tree.create]
        · rw [Tree.createLoose_con (some w) hd]
  · exact Tree.createLoose_con (some w) hx
  · rfl

/-- A container that hangs nowhere is listed in the row of its workspace. -/
theorem steady_listInsertAt (hs : s.tree.Linked) (hc : s.tree.Free c)
    (hnamed : (s.tree.con c).workspace = some w) (i : Int) :
    Steady (· = c) s (s.listInsertAt (.tiling w) i c) := by
  have hrewired := Tree.rewired_modList s.tree (.tiling w) fun l => listInsert l i c
  refine ⟨?_, fun x hxc hx => ⟨⟨?_, fun r => ?_⟩, ?_⟩, fun x => ?_, fun x hx => ?_, ?_,
    .of_mode (congrArg (fun f => f.mode) (full_checkInsert s (.tiling w) i))⟩ <;>
    rw [tree_listInsertAt]
  · exact hs.insert_tiling hc hnamed i
  · rw [Tree.con_modList_parent]
    exact hx.parent
  · intro hin
    by_cases hr : r = .tiling w
    · subst hr
      rw [Tree.items_modList_self] at hin
      rcases mem_of_mem_listInsert hin with rfl | hold
      · exact hxc rfl
      · exact hx.unlisted _ hold
    · rw [Tree.items_modList_ne _ _ _ _ hr] at hin
      exact hx.unlisted r hin
  · rw [Tree.con_modList_workspace]
  · exact hrewired.view x
  · exact (hrewired.scratchpad x).trans hx
  · exact hrewired.nextCon

theorem steady_arrangeWorkspace (hs : s.tree.Linked) (w : WsId) :
    Steady Nobody s (arrangeWorkspace s w) ∧ ∀ r : Tree.ListRef, r.IsTiled →
      (arrangeWorkspace s w).tree.items r = s.tree.items r := by
  have hthins := thins_arrangeWorkspace (K := Nobody) (D := Nobody) s w
  exact ⟨.of_thins hs hthins (keepsWindowed_arrangeWorkspace s w),
    fun r hr => hthins.items_eq hs hr⟩

end Release

/-- What `release` leaves of a column `col` between `p` and `q` of a row: `keep`, with `moved` in a
column on the right. -/
structure Released (w : WsId) (col newcol : ConId) (p q keep moved : List ConId) (s s' : State) :
    Prop where
  linked : s'.tree.Linked
  row : (s'.tree.ws w).tiling = p ++ col :: newcol :: q
  left : (s'.tree.con col).children = keep
  right : (s'.tree.con newcol).children = moved
  others : ∀ r : Tree.ListRef, r.IsTiled → r ≠ .tiling w → r ≠ .children col →
    r ≠ .children newcol → s'.tree.items r = s.tree.items r
  bare : (s'.tree.con newcol).view = none
  view : ∀ x, x ≠ newcol → (s'.tree.con x).view = (s.tree.con x).view
  scratchpad : ∀ x, x ≠ newcol → (s.tree.con x).scratchpad = false →
    (s'.tree.con x).scratchpad = false
  nextCon : s'.tree.nextCon = s.tree.nextCon + 1
  windowed : KeepsWindowed s s'

section Commands

variable {fo : FocusOps} (h : FocusThins fo) (hw : FocusKeepsWindowed fo) {s : State}
  {c col : ConId} {w : WsId} {p q keep moved : List ConId}

/-- The position of a container in a list without repetitions. -/
theorem listFind_of_nodup {l : List ConId} (hl : l.Nodup) (hsplit : l = p ++ col :: q) :
    listFind l col = p.length := by
  subst hsplit
  refine listFind_append fun hin => ?_
  exact (List.nodup_append.mp hl).2.2 col hin col List.mem_cons_self rfl

/-- A container of a row is no unused one. -/
theorem ne_nextCon_of_row (hs : s.tree.WellFormed) (hrow : (s.tree.ws w).tiling = p ++ col :: q) :
    col ≠ s.tree.nextCon := by
  intro heq
  have hmem : col ∈ s.tree.items (.tiling w) := by
    show col ∈ (s.tree.ws w).tiling
    rw [hrow]
    simp
  have hnone := (hs.unused s.tree.nextCon le_rfl).2.1
  rw [← heq, (hs.linked.of_tiling hmem).2] at hnone
  cases hnone

include h hw

/-- The lists after `release`: the new column is behind the one that is split, and has what was
below the split. -/
theorem steady_releaseFrom (hs : s.tree.WellFormed) (hrow : (s.tree.ws w).tiling = p ++ col :: q)
    (hkids : (s.tree.con col).children = keep ++ moved) :
    Steady (fun x => x ∈ moved ∨ x = s.tree.nextCon)
        (workspaceFitNewColumn (createColumn s (some w)) w s.tree.nextCon (p.length + 1))
        (releaseFrom fo s w col keep.length) ∧
      ∀ r : Tree.ListRef, r.IsTiled → (releaseFrom fo s w col keep.length).tree.items r =
        if r = .tiling w then listInsert (s.tree.items r) (p.length + 1) s.tree.nextCon
        else if r = .children s.tree.nextCon then moved ++ s.tree.items r
        else if r = .children col then keep else s.tree.items r := by
  have hmem : col ∈ s.tree.items (.tiling w) := by
    show col ∈ (s.tree.ws w).tiling
    rw [hrow]
    simp
  have hcol := ne_nextCon_of_row hs hrow
  have hnew : s.tree.nextCon ∉ moved := by
    intro hin
    have hup : (s.tree.con s.tree.nextCon).parent = some col := by
      refine hs.linked.of_children ?_
      rw [hkids]
      exact List.mem_append_right keep hin
    rw [(hs.unused s.tree.nextCon le_rfl).1] at hup
    cases hup
  -- the new column, the windows, the row
  have hcreated := created_newColumn hs w (p.length + 1)
  set s₁ := workspaceFitNewColumn (createColumn s (some w)) w s.tree.nextCon (p.length + 1) with hs₁
  set s₂ := releaseChildren fo s.tree.nextCon s₁ moved with hs₂
  obtain ⟨hmoves, hitems₂⟩ : Steady (· ∈ moved) s₁ s₂ ∧ _ :=
    steady_releaseChildren h hw hcreated.linked
      ((hcreated.items (.children col)).trans hkids) hcol
  obtain ⟨hfree, hnamed⟩ := hmoves.loose _ hnew hcreated.free
  have hlists := steady_listInsertAt hmoves.linked hfree (hnamed.trans hcreated.named)
    (p.length + 1)
  set s₃ := s₂.listInsertAt (.tiling w) (p.length + 1) s.tree.nextCon with hs₃
  have htree₃ : s₃.tree = s₂.tree.modList (.tiling w) fun l =>
      listInsert l (p.length + 1) s.tree.nextCon := by rw [hs₃, tree_listInsertAt]
  have hclear : clearParent s₃ s.tree.nextCon = s₃ := by
    refine clearParent_of_top ?_
    rw [htree₃, Tree.con_modList_parent]
    exact hfree.parent
  obtain ⟨u, hu⟩ : ∃ u, u = if (s₃.tree.con col).children.length = 1 then
      s₃.modGeo col fun g => { g with layout := .vert } else s₃ := ⟨_, rfl⟩
  have hgeo : OnlyGeometry s₃ u := by
    rw [hu]
    split
    · exact OnlyGeometry.modGeo s₃ col _
    · exact OnlyGeometry.refl s₃
  have hunfold : releaseFrom fo s w col keep.length = arrangeWorkspace u w := by
    have hidx := listFind_of_nodup (hs.linked.nodup (.tiling w)) hrow
    have hdrop : (s.tree.con col).children.drop keep.length = moved := by
      rw [hkids, List.drop_left]
    unfold releaseFrom
    rw [hs.linked.siblings hmem]
    dsimp only
    rw [hidx, hdrop, ← hs₁, ← hs₂, ← hs₃, hclear, ← hu]
  have hgeom : Steady (· ∈ moved) s₃ u := .of_geometry hlists.linked hgeo
  obtain ⟨harrange, hitems₄⟩ := steady_arrangeWorkspace hgeom.linked w
  rw [hunfold]
  refine ⟨((hmoves.mono fun x hx => Or.inl hx).trans (hlists.mono fun x hx => Or.inr hx)).trans
    ((hgeom.mono fun x hx => Or.inl hx).trans (harrange.mono fun x hx => hx.elim)), fun r hr => ?_⟩
  rw [hitems₄ r hr, hgeo.tree, htree₃]
  by_cases hrw : r = .tiling w
  · subst hrw
    rw [if_pos rfl, Tree.items_modList_self, hitems₂ _ hr, if_neg (by simp), if_neg (by simp),
      hcreated.items]
  · rw [if_neg hrw, Tree.items_modList_ne _ _ _ _ hrw, hitems₂ r hr, hcreated.items]

/-- **`release` splits the column.** -/
theorem released_releaseFrom (hs : s.tree.WellFormed) (hrow : (s.tree.ws w).tiling = p ++ col :: q)
    (hkids : (s.tree.con col).children = keep ++ moved) :
    Released w col s.tree.nextCon p q keep moved s (releaseFrom fo s w col keep.length) := by
  have hcol := ne_nextCon_of_row hs hrow
  have hempty : (s.tree.con s.tree.nextCon).children = [] := (hs.unused _ le_rfl).2.2
  have hcreated := created_newColumn hs w (p.length + 1)
  obtain ⟨hsteady, hitems⟩ := steady_releaseFrom h hw hs hrow hkids
  refine ⟨hsteady.linked, ?_, ?_, ?_, fun r hr hrw hrcol hrnew => ?_, ?_, fun x hx => ?_,
    fun x hx hflag => ?_, ?_, hcreated.windowed.trans hsteady.windowed⟩
  · have hput := listInsert_append (p ++ [col]) q s.tree.nextCon
    have hat : ((p ++ [col]).length : Int) = p.length + 1 := by simp
    have hsplit : p ++ col :: q = (p ++ [col]) ++ q := by simp
    calc ((releaseFrom fo s w col keep.length).tree.ws w).tiling
        = listInsert (s.tree.ws w).tiling (p.length + 1) s.tree.nextCon :=
          (hitems (.tiling w) (Tree.ListRef.isTiled_tiling w)).trans (if_pos rfl)
      _ = (p ++ [col]) ++ s.tree.nextCon :: q := by rw [hrow, hsplit, ← hat, hput]
      _ = p ++ col :: s.tree.nextCon :: q := by simp
  · have hleft := hitems (.children col) (Tree.ListRef.isTiled_children col)
    rw [if_neg (by simp), if_neg (by simpa using hcol), if_pos rfl] at hleft
    exact hleft
  · have hright := hitems (.children s.tree.nextCon) (Tree.ListRef.isTiled_children _)
    rw [if_neg (by simp), if_pos rfl] at hright
    calc ((releaseFrom fo s w col keep.length).tree.con s.tree.nextCon).children
        = moved ++ (s.tree.con s.tree.nextCon).children := hright
      _ = moved := by rw [hempty, List.append_nil]
  · rw [hitems r hr, if_neg hrw, if_neg hrnew, if_neg hrcol]
  · exact (hsteady.view _).trans hcreated.bare
  · rw [hsteady.view x, hcreated.con x hx]
  · refine hsteady.scratchpad x ?_
    rw [hcreated.con x hx]
    exact hflag
  · rw [hsteady.nextCon, hcreated.nextCon]

/-! ## `take` -/

omit hw in
/-- **An empty column goes**, and the workspace keeps its other columns. -/
theorem removed_columnRemove (hs : s.tree.Linked) (hmem : col ∈ (s.tree.ws w).tiling)
    (hbare : (s.tree.con col).view = none) (hempty : (s.tree.con col).children = []) :
    (columnRemove fo s col false).1.tree.Linked ∧ ∀ r : Tree.ListRef, r.IsTiled →
      (columnRemove fo s col false).1.tree.items r = (s.tree.items r).erase col := by
  obtain ⟨hparent, hws⟩ := hs.of_tiling hmem
  have hbefore := thins_beforeDetach h s col
  have hlinked : (beforeDetach fo s col).tree.Linked := hbefore.linked hs
  have hitems : ∀ r : Tree.ListRef, r.IsTiled →
      (beforeDetach fo s col).tree.items r = s.tree.items r := fun r hr => hbefore.items_eq hs hr
  -- it is still in the row, so it is detached
  have hplaced : ((beforeDetach fo s col).tree.con col).workspace = some w := by
    have hin : col ∈ ((beforeDetach fo s col).tree.ws w).tiling := by
      have hrow := hitems (.tiling w) (Tree.ListRef.isTiled_tiling w)
      have hin : col ∈ (beforeDetach fo s col).tree.items (.tiling w) := hrow ▸ hmem
      exact hin
    exact (hlinked.of_tiling hin).2
  have hdestroy : containerBeginDestroy fo s col = containerDetach (beforeDetach fo s col) col := by
    rw [containerBeginDestroy_eq]
    dsimp only
    rw [if_pos (Or.inr (by rw [hplaced]; rfl))]
  have hreap : containerReapEmpty fo s col =
      considerDestroy fo (containerDetach (beforeDetach fo s col) col) (some w) := by
    unfold containerReapEmpty
    rw [hbare, hws]
    show reapEmpty fo (some w) (s.tree.nextCon + 1) s (some col) = _
    rw [reapEmpty, if_pos hempty, hparent, hdestroy]
    cases s.tree.nextCon with
    | zero => rfl
    | succ n => rfl
  have hremove : (columnRemove fo s col false).1 =
      considerDestroy fo (containerDetach (beforeDetach fo s col) col) (some w) := by
    unfold columnRemove
    rw [hws]
    dsimp only
    rw [if_neg (by simp), hreap]
  have hthins := thins_considerDestroy h (containerDetach (beforeDetach fo s col) col) (some w)
  have hdetached : (containerDetach (beforeDetach fo s col) col).tree.Linked := by
    rw [tree_containerDetach]
    exact hlinked.detach col
  rw [hremove]
  refine ⟨hthins.linked hdetached, fun r hr => ?_⟩
  have hsame : (considerDestroy fo (containerDetach (beforeDetach fo s col) col)
      (some w)).tree.items r = (containerDetach (beforeDetach fo s col) col).tree.items r :=
    hthins.items_eq hdetached hr
  rw [hsame, tree_containerDetach, Tree.detach_items hlinked, hitems r hr]

omit h hw in
/-- The top-level ancestor of a window of a column is the column. -/
theorem toplevel_of_listed {t : Tree} (ht : t.Linked) (hused : 0 < t.nextCon)
    (hc : c ∈ (t.con col).children) (hcol : (t.con col).parent = none) :
    containerToplevelAncestor t c = col := by
  have hnone : ∀ n, t.ancestorsWithin n col = [] := by
    intro n
    cases n with
    | zero => rfl
    | succ n => rw [Tree.ancestorsWithin, hcol]
  obtain ⟨n, hn⟩ := Nat.exists_eq_succ_of_ne_zero (Nat.pos_iff_ne_zero.mp hused)
  unfold containerToplevelAncestor Tree.ancestors
  rw [hn, Tree.ancestorsWithin, ht.of_children hc]
  dsimp only
  rw [hnone]
  rfl

omit h hw in
theorem not_floating_of_listed {t : Tree} (ht : t.Linked) (hc : c ∈ (t.con col).children)
    (hflag : (t.con c).scratchpad = false) : containerIsFloating t c = false := by
  unfold containerIsFloating
  rw [ht.of_children hc, hflag]
  rfl

/-- `take` moves the windows of the column on the right to the end of the column, and the column on
the right goes. -/
theorem exists_taken {s t : State} {newcol : ConId}
    (ht : Released w col newcol p q keep moved s t) (hne : col ≠ newcol) (hc : c ∈ keep)
    (hcnew : c ≠ newcol) (hflag : (s.tree.con c).scratchpad = false)
    (hmode : s.full.mode c = .none) :
    ∃ u : State, u.tree.Linked ∧
      (∀ r : Tree.ListRef, r.IsTiled → u.tree.items r =
        if r = .children col then t.tree.items r ++ moved
        else if r = .children newcol then [] else t.tree.items r) ∧
      ∀ r : Tree.ListRef, r.IsTiled →
        (cmdTake fo t c).tree.items r = (u.tree.items r).erase newcol := by
  have hkid : c ∈ (t.tree.con col).children := ht.left ▸ hc
  have hmem : col ∈ (t.tree.ws w).tiling := by
    rw [ht.row]
    simp
  have hmemnew : newcol ∈ (t.tree.ws w).tiling := by
    rw [ht.row]
    simp
  obtain ⟨hparent, hnamed⟩ := ht.linked.of_tiling hmem
  have hused : 0 < t.tree.nextCon := by
    rw [ht.nextCon]
    exact Nat.succ_pos _
  have htop := toplevel_of_listed ht.linked hused hkid hparent
  have hstays : ¬ (containerIsFloating t.tree c ∨ t.full.mode c ≠ .none) := by
    rw [not_floating_of_listed ht.linked hkid (ht.scratchpad c hcnew hflag)]
    simp [ht.windowed c hmode]
  have hright : (if 0 ≤ listFind (t.tree.ws w).tiling col then
      (t.tree.ws w).tiling[(listFind (t.tree.ws w).tiling col).toNat + 1]? else none) =
        some newcol := by
    have hidx : listFind (t.tree.ws w).tiling col = p.length :=
      listFind_of_nodup (ht.linked.nodup (.tiling w)) ht.row
    rw [hidx, if_pos (Int.natCast_nonneg _), ht.row]
    simp
  -- the windows come back at the end, and the other column is empty
  obtain ⟨hloop, hmoved⟩ := steady_takeChildren h hw ht.linked ht.right (Ne.symm hne)
  set u := takeChildren fo col newcol moved.length t with hu
  have htake : takeColumn fo t col newcol = u := by
    unfold takeColumn
    rw [ht.bare, ht.right]
    rfl
  have hemptied : (u.tree.con newcol).children = [] := by
    have hnew := hmoved (.children newcol) (Tree.ListRef.isTiled_children newcol)
    rw [if_neg (by simpa using Ne.symm hne), if_pos rfl] at hnew
    exact hnew
  have hrowu : (u.tree.ws w).tiling = (t.tree.ws w).tiling := by
    have hrow' := hmoved (.tiling w) (Tree.ListRef.isTiled_tiling w)
    rw [if_neg (by simp), if_neg (by simp)] at hrow'
    exact hrow'
  obtain ⟨hlinked, hgone⟩ := removed_columnRemove h hloop.linked (hrowu ▸ hmemnew)
    ((hloop.view newcol).trans ht.bare) hemptied
  set v := (columnRemove fo u newcol false).1 with hv
  have hgeo : OnlyGeometry v (viewportGrowEvenly v w ((u.geo newcol).width)) :=
    onlyGeometry_viewportGrowEvenly v w _
  have hunfold : cmdTake fo t c =
      arrangeWorkspace (viewportGrowEvenly v w ((u.geo newcol).width)) w := by
    unfold cmdTake
    rw [if_neg hstays, htop]
    dsimp only
    rw [hnamed]
    dsimp only
    rw [hright]
    dsimp only
    rw [htake, ← hv]
  refine ⟨u, hloop.linked, hmoved, fun r hr => ?_⟩
  have hgrown : (viewportGrowEvenly v w ((u.geo newcol).width)).tree.Linked := by
    rw [hgeo.tree]
    exact hlinked
  rw [hunfold, (steady_arrangeWorkspace hgrown w).2 r hr, hgeo.tree, hgone r hr]

/-- **`take` undoes `release`**, with a window of the column. -/
theorem items_cmdTake {s t : State} {newcol : ConId}
    (ht : Released w col newcol p q keep moved s t) (hne : col ≠ newcol)
    (hunused : (s.tree.con newcol).children = []) (hrow : (s.tree.ws w).tiling = p ++ col :: q)
    (hkids : (s.tree.con col).children = keep ++ moved) (hc : c ∈ keep)
    (hcnew : c ≠ newcol) (hflag : (s.tree.con c).scratchpad = false)
    (hmode : s.full.mode c = .none) :
    ∀ r : Tree.ListRef, r.IsTiled → (cmdTake fo t c).tree.items r = s.tree.items r := by
  obtain ⟨u, hlinked, hmoved, hitems⟩ := exists_taken h hw ht hne hc hcnew hflag hmode
  have hrowu : (u.tree.ws w).tiling = (t.tree.ws w).tiling := by
    have hrow' := hmoved (.tiling w) (Tree.ListRef.isTiled_tiling w)
    rw [if_neg (by simp), if_neg (by simp)] at hrow'
    exact hrow'
  have hsplit : p ++ col :: newcol :: q = (p ++ [col]) ++ newcol :: q := by simp
  intro r hr
  rw [hitems r hr]
  by_cases hrw : r = .tiling w
  · subst hrw
    show ((u.tree.ws w).tiling).erase newcol = (s.tree.ws w).tiling
    have hnodup : (p ++ col :: newcol :: q).Nodup := by
      have hlist : (t.tree.ws w).tiling.Nodup := ht.linked.nodup (.tiling w)
      rwa [ht.row] at hlist
    have hnot : newcol ∉ p ++ [col] := by
      rw [hsplit] at hnodup
      intro hin
      exact (List.nodup_append.mp hnodup).2.2 newcol hin newcol List.mem_cons_self rfl
    calc ((u.tree.ws w).tiling).erase newcol
        = ((p ++ [col]) ++ newcol :: q).erase newcol := by rw [hrowu, ht.row, hsplit]
      _ = (p ++ [col]) ++ q := by
          rw [List.erase_append_right _ hnot, List.erase_cons_head]
      _ = (s.tree.ws w).tiling := by rw [hrow]; simp
  · have hmem : newcol ∈ u.tree.items (.tiling w) := by
      show newcol ∈ (u.tree.ws w).tiling
      rw [hrowu, ht.row, hsplit]
      exact List.mem_append_right _ List.mem_cons_self
    rw [erase_of_ne hlinked hmem hrw, hmoved r hr]
    by_cases hrcol : r = .children col
    · subst hrcol
      rw [if_pos rfl]
      show (t.tree.con col).children ++ moved = (s.tree.con col).children
      rw [ht.left, hkids]
    · rw [if_neg hrcol]
      by_cases hrnew : r = .children newcol
      · subst hrnew
        rw [if_pos rfl]
        exact hunused.symm
      · rw [if_neg hrnew]
        exact ht.others r hr hrw hrcol hrnew

end Commands

/-! ## The two commands -/

/-- **`release` changes no order of windows.** -/
theorem Released.rowViews_eq {w : WsId} {col : ConId} {p q keep moved : List ConId}
    {s s' : State} (h : Released w col s.tree.nextCon p q keep moved s s') (hs : s.tree.WellFormed)
    (hrow : (s.tree.ws w).tiling = p ++ col :: q) (hparent : (s.tree.con col).parent = none)
    (hne : col ≠ s.tree.nextCon) (hkids : (s.tree.con col).children = keep ++ moved) :
    rowViews s'.tree w = rowViews s.tree w := by
  have hnodup : (p ++ col :: s.tree.nextCon :: q).Nodup := by
    have hlist : (s'.tree.ws w).tiling.Nodup := h.linked.nodup (.tiling w)
    rwa [h.row] at hlist
  obtain ⟨-, hback, hapart⟩ := List.nodup_append.mp hnodup
  obtain ⟨hcolq, hnewq⟩ := List.nodup_cons.mp hback
  -- nothing but the two columns has other children, and neither hangs below anything
  have hkid : ∀ x k, k ∈ (s.tree.con x).children → k ≠ col ∧ k ≠ s.tree.nextCon := by
    intro x k hk
    have hup := hs.linked.of_children hk
    constructor
    · rintro rfl
      rw [hparent] at hup
      cases hup
    · rintro rfl
      rw [(hs.unused _ le_rfl).1] at hup
      cases hup
  have hbelow : ∀ n x, x ≠ col ∧ x ≠ s.tree.nextCon →
      belowWithin (fun x => (s'.tree.con x).children) n x =
        belowWithin (fun x => (s.tree.con x).children) n x := by
    intro n x hx
    refine belowWithin_congr (P := fun x => x ≠ col ∧ x ≠ s.tree.nextCon)
      (fun a k _ hk => hkid a k hk) (fun a ha => ?_) n hx
    exact h.others (.children a) (Tree.ListRef.isTiled_children a) (by simp) (by simpa using ha.1)
      (by simpa using ha.2)
  -- the walks of the old tree are complete with one level more
  have hdeep : ∀ x, belowWithin (fun x => (s.tree.con x).children) (s.tree.nextCon + 1) x =
      s.tree.descendants x := by
    intro x
    rw [Tree.descendants_eq]
    exact hs.forest.ranked.belowWithin_succ hs.forest.parent_mem
      (fun a d hd => (hs.forest.agree a d).mp hd) (by rw [Finset.card_range]) x
  have hwalk : ∀ x, x ≠ col → x ≠ s.tree.nextCon →
      withDescendants s'.tree x = withDescendants s.tree x := by
    intro x hxcol hxnew
    unfold withDescendants
    rw [Tree.descendants_eq, h.nextCon, hbelow _ x ⟨hxcol, hxnew⟩, hdeep]
  have hsplit : ∀ x l, (s'.tree.con x).children = l →
      (∀ k ∈ l, k ≠ col ∧ k ≠ s.tree.nextCon) → withDescendants s'.tree x =
        x :: l.flatMap fun k => k :: belowWithin (fun x => (s.tree.con x).children)
          s.tree.nextCon k := by
    intro x l hx hl
    unfold withDescendants
    rw [Tree.descendants_eq, h.nextCon, belowWithin, hx]
    congr 1
    exact List.flatMap_congr fun k hk => by rw [hbelow _ k (hl k hk)]
  have hkeep : ∀ k ∈ keep, k ≠ col ∧ k ≠ s.tree.nextCon := fun k hk =>
    hkid col k (hkids ▸ List.mem_append_left moved hk)
  have hmoved : ∀ k ∈ moved, k ≠ col ∧ k ≠ s.tree.nextCon := fun k hk =>
    hkid col k (hkids ▸ List.mem_append_right keep hk)
  have hcolumn : withDescendants s.tree col = col :: (keep ++ moved).flatMap fun k =>
      k :: belowWithin (fun x => (s.tree.con x).children) s.tree.nextCon k := by
    unfold withDescendants
    rw [← hdeep, belowWithin, hkids]
  have hfront : p.flatMap (withDescendants s'.tree) = p.flatMap (withDescendants s.tree) := by
    refine List.flatMap_congr fun x hx => hwalk x ?_ ?_
    · exact hapart x hx col List.mem_cons_self
    · exact hapart x hx s.tree.nextCon (List.mem_cons_of_mem col List.mem_cons_self)
  have hrest : q.flatMap (withDescendants s'.tree) = q.flatMap (withDescendants s.tree) := by
    refine List.flatMap_congr fun x hx => hwalk x ?_ ?_
    · rintro rfl
      exact hcolq (List.mem_cons_of_mem s.tree.nextCon hx)
    · rintro rfl
      exact (List.nodup_cons.mp hnewq).1 hx
  -- the new column is in no old walk
  have hnever : ∀ x ∈ (s.tree.ws w).tiling.flatMap (withDescendants s.tree),
      x ≠ s.tree.nextCon := by
    rintro x hx rfl
    obtain ⟨a, ha, hin⟩ := List.mem_flatMap.mp hx
    have hunused := hs.unused s.tree.nextCon le_rfl
    rcases hs.forest.mem_withDescendants.mp hin with rfl | hunder
    · rw [(hs.linked.of_tiling ha).2] at hunused
      exact absurd hunused.2.1 (by simp)
    · exact Tree.not_hangsBelow_of_top hunused.1 hunder
  unfold rowViews
  calc ((s'.tree.ws w).tiling.flatMap (withDescendants s'.tree)).filter
        (fun x => (s'.tree.con x).view.isSome)
      = ((s.tree.ws w).tiling.flatMap (withDescendants s.tree)).filter
          (fun x => (s'.tree.con x).view.isSome) := by
        rw [h.row, hrow, List.flatMap_append, List.flatMap_append, List.flatMap_cons,
          List.flatMap_cons, List.flatMap_cons, hfront, hrest, hsplit col keep h.left hkeep,
          hsplit s.tree.nextCon moved h.right hmoved, hcolumn, List.flatMap_append]
        simp only [List.filter_append, List.filter_cons, h.bare, Option.isSome_none,
          Bool.false_eq_true, if_false, List.cons_append]
        split <;> simp [List.append_assoc]
    _ = ((s.tree.ws w).tiling.flatMap (withDescendants s.tree)).filter
          (fun x => (s.tree.con x).view.isSome) :=
        List.filter_congr fun x hx => by rw [h.view x (hnever x hx)]

/-- An element that is not the last one ends a front part of the list. -/
theorem exists_split_after {l : List ConId} {c : ConId} (hc : c ∈ l) (hlast : l.getLast? ≠ some c) :
    ∃ keep moved, l = keep ++ moved ∧ c ∈ keep ∧ listFind l c + 1 = keep.length ∧
      keep.length < l.length := by
  have hat : l[l.idxOf c]? = some c := List.getElem?_idxOf hc
  have hidx : l.idxOf c < l.length := List.idxOf_lt_length_iff.mpr hc
  have hinner : l.idxOf c + 1 < l.length := by
    by_contra hend
    refine hlast ?_
    have hsame : l.idxOf c = l.length - 1 := by omega
    rw [List.getLast?_eq_getElem?, ← hsame]
    exact hat
  have hlength : (l.take (l.idxOf c + 1)).length = l.idxOf c + 1 := by
    rw [List.length_take]
    omega
  refine ⟨l.take (l.idxOf c + 1), l.drop (l.idxOf c + 1), (List.take_append_drop _ _).symm, ?_, ?_,
    hlength.trans_lt hinner⟩
  · refine List.mem_of_getElem? (i := l.idxOf c) ?_
    rw [List.getElem?_take_of_lt (Nat.lt_succ_self _)]
    exact hat
  · rw [listFind_of_mem hc, hlength]
    rfl

/-- **`take` after `release` restores the row and the column**, and `release` changes no order of
windows. -/
theorem cmdTake_cmdRelease (n : Nat) (s : State) (w : WsId) (col c : ConId)
    (hs : s.tree.WellFormed) (hcol : col ∈ (s.tree.ws w).tiling)
    (hbare : (s.tree.con col).view = none)
    (hfocus : seatGetFocusedContainer s s.currentSeat = some c)
    (hc : c ∈ (s.tree.con col).children) (hlast : (s.tree.con col).children.getLast? ≠ some c) :
    let released := cmdRelease (focusOps n) s c
    let taken := cmdTake (focusOps n) released c
    (taken.tree.ws w).tiling = (s.tree.ws w).tiling ∧
      (taken.tree.con col).children = (s.tree.con col).children ∧
      rowViews released.tree w = rowViews s.tree w := by
  obtain ⟨hparent, hnamed⟩ := hs.linked.of_tiling hcol
  have hused : 0 < s.tree.nextCon := lt_of_le_of_lt (Nat.zero_le _) (hs.lt_of_workspace hnamed)
  have htop := toplevel_of_listed hs.linked hused hc hparent
  by_cases hstays : containerIsFloating s.tree c ∨ s.full.mode c ≠ .none
  · -- neither command does anything
    have hrelease : cmdRelease (focusOps n) s c = s := by
      unfold cmdRelease
      rw [if_pos hstays]
    have htake : cmdTake (focusOps n) s c = s := by
      unfold cmdTake
      rw [if_pos hstays]
    intro released taken
    have htaken : taken = s := by
      show cmdTake (focusOps n) (cmdRelease (focusOps n) s c) c = s
      rw [hrelease, htake]
    rw [htaken]
    exact ⟨rfl, rfl, by rw [show released = s from hrelease]⟩
  · obtain ⟨hfloat, hmode⟩ := not_or.mp hstays
    have hflag : (s.tree.con c).scratchpad = false := by
      by_contra hset
      refine hfloat ?_
      unfold containerIsFloating
      rw [Bool.not_eq_false] at hset
      rw [hset, Bool.or_true]
    -- the split is right below the focused window
    obtain ⟨keep, moved, hkids, hin, hidx, hinner⟩ := exists_split_after hc hlast
    obtain ⟨p, q, hrow⟩ := List.append_of_mem hcol
    have hthins := focusThins_focusOps n
    have hwindowed := focusKeepsWindowed_focusOps n
    have hreleased := released_releaseFrom hthins hwindowed hs hrow hkids
    have hrelease : cmdRelease (focusOps n) s c =
        releaseFrom (focusOps n) s w col keep.length := by
      have hnonneg := listFind_nonneg.mpr hc
      have hstart : (listFind (s.tree.con col).children c).toNat + 1 = keep.length := by omega
      have hguard : (s.tree.con col).view.isNone ∧ 2 ≤ (s.tree.con col).children.length ∧
          0 ≤ listFind (s.tree.con col).children c ∧
          listFind (s.tree.con col).children c < (s.tree.con col).children.length - 1 := by
        refine ⟨?_, by omega, hnonneg, by omega⟩
        rw [hbare]
        rfl
      unfold cmdRelease
      rw [if_neg hstays, htop]
      dsimp only
      rw [hnamed, hfocus]
      dsimp only
      rw [if_pos hguard, hstart]
    have hne : col ≠ s.tree.nextCon := ne_nextCon_of_row hs hrow
    have hcnew : c ≠ s.tree.nextCon := by
      intro heq
      have hup := hs.linked.of_children hc
      rw [heq, (hs.unused s.tree.nextCon le_rfl).1] at hup
      cases hup
    have hitems := items_cmdTake hthins hwindowed hreleased hne (hs.unused _ le_rfl).2.2 hrow hkids
      hin hcnew hflag (not_not.mp hmode)
    intro released taken
    have hreleasedEq : released = releaseFrom (focusOps n) s w col keep.length := hrelease
    have htaken : taken = cmdTake (focusOps n) (releaseFrom (focusOps n) s w col keep.length) c := by
      rw [← hreleasedEq]
    rw [htaken, hreleasedEq]
    exact ⟨hitems (.tiling w) (Tree.ListRef.isTiled_tiling w),
      hitems (.children col) (Tree.ListRef.isTiled_children col),
      hreleased.rowViews_eq hs hrow hparent hne hkids⟩

/-- A column of three windows beside another one, with the focus on the first window. -/
def focusedColumn : State :=
  { State.outlined [⟨[(0, [1, 2, 3]), (4, [5])], []⟩] with
    geo := fun _ => { Geometry.blank with layout := .vert }
    seat := fun _ =>
      { focusStack := [.container 1, .workspace 0], hasFocus := true, workspace := some 0,
        focusedLayer := none, hasExclusiveLayer := false } }

/-- The windows `2` and `3` go to the new column `6` and come back. -/
theorem cmdTake_cmdRelease_focusedColumn :
    let released := cmdRelease (focusOps 0) focusedColumn 1
    let taken := cmdTake (focusOps 0) released 1
    (released.tree.ws 0).tiling = [0, 6, 4] ∧ (released.tree.con 6).children = [2, 3] ∧
      (taken.tree.ws 0).tiling = [0, 4] ∧ (taken.tree.con 0).children = [1, 2, 3] ∧
      rowViews released.tree 0 = [1, 2, 3, 5] := by
  have hs : focusedColumn.tree.WellFormed :=
    Tree.wellFormed_outlined (Tree.linked_outlined (by decide +kernel) (by decide +kernel))
      (by decide +kernel)
  obtain ⟨hrow, hkids, hviews⟩ := cmdTake_cmdRelease 0 focusedColumn 0 0 1 hs (by decide +kernel)
    (by decide +kernel) (by decide +kernel) (by decide +kernel) (by decide +kernel)
  refine ⟨by decide +kernel, by decide +kernel, hrow, hkids, hviews.trans ?_⟩
  decide +kernel

end Swirl
