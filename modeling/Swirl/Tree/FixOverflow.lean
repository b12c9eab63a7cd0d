import Swirl.Tree.RowOperations
import Swirl.Tree.Walks

set_option autoImplicit false

/-! # Columns that do not fit

The loop of `workspace_fix_overflow` takes the last column out of the row in every round, so it
ends, and it ends with its exit test met. The views of the row survive a round when the column
that goes is not a view itself and its children do not go into a view. The loop checks neither: a
view that stands in the row without a column is destroyed when its turn comes, and children that
are merged into one are put into a list that does not exist.

The loop measures the columns against the width the workspace has. The arrange pass that ends the
function sets this width anew, so the columns that were left may not fit any more.
-/

namespace Swirl

open Lib

/-! ## Into another column -/

/-- What adding a child does to the links, also when the parent is a view. -/
structure Adopts (p c : ConId) (s s' : State) : Prop where
  wellFormed : s'.tree.WellFormed
  nextCon : s'.tree.nextCon = s.tree.nextCon
  view : ∀ x, (s'.tree.con x).view = (s.tree.con x).view
  destroying : ∀ x, (s'.tree.con x).destroying = (s.tree.con x).destroying
  parent : ∀ x, (s'.tree.con x).parent = if x = c then some p else (s.tree.con x).parent
  tiling : ∀ w, (s'.tree.ws w).tiling = (s.tree.ws w).tiling.erase c
  inRange : (s.tree.con p).view = none → s'.faults = s.faults
  recorded : (s.tree.con p).view.isSome → s.faults.length < s'.faults.length

section Adopts

variable {fo : FocusOps} (h : FocusThins fo) {s : State} {c p : ConId} {w : WsId}

/-- A container that is put into the child list of a view is recorded. -/
theorem faults_attachLast_children (s : State) (p c : ConId) :
    ((s.tree.con p).view = none → (s.attachLast (.children p) c).faults = s.faults) ∧
      ((s.tree.con p).view.isSome →
        s.faults.length < (s.attachLast (.children p) c).faults.length) := by
  have hok := insertOk_length (s.tree.items (.children p))
  constructor
  · intro hp
    exact congrArg Core.faults (core_attach c hok fun q hq => by cases hq; exact hp)
  · intro hp
    show s.faults.length < (s.checkInsert (.children p) _).faults.length
    unfold State.checkInsert
    dsimp only
    rw [if_pos hp]
    have hsame : ((s.fault (.nullChildren p)).tree.items (.children p)) =
        s.tree.items (.children p) := rfl
    rw [hsame, if_pos hok]
    show s.faults.length < (s.faults ++ [_]).length
    rw [List.length_append, List.length_singleton]
    omega

/-- Leaving a list, a container takes nothing but itself out of the row. -/
theorem tiling_detachIfPlaced (hs : s.tree.Linked) (c : ConId) (w : WsId) :
    ((detachIfPlaced s c).tree.ws w).tiling = (s.tree.ws w).tiling.erase c := by
  unfold detachIfPlaced
  split
  · rw [tree_containerDetach]
    exact Tree.detach_items hs c (.tiling w)
  next hw =>
    refine (List.erase_of_not_mem fun hc => hw ?_).symm
    rw [(hs.of_tiling hc).2]
    rfl

theorem parent_detachIfPlaced (s : State) (c x : ConId) (hx : x ≠ c) :
    ((detachIfPlaced s c).tree.con x).parent = (s.tree.con x).parent := by
  unfold detachIfPlaced
  split
  · rw [tree_containerDetach, Tree.detach_parent, if_neg hx]
  · rfl

theorem frame_detachIfPlaced (s : State) (c : ConId) :
    Frame s.core (detachIfPlaced s c).core ∧
      ∀ x, ((detachIfPlaced s c).tree.con x).destroying = (s.tree.con x).destroying := by
  unfold detachIfPlaced
  split
  · refine ⟨?_, fun x => ?_⟩
    · rw [core_containerDetach]
      exact frame_detach s.core c
    · rw [tree_containerDetach]
      exact (Tree.rewired_detach s.tree c).destroying x
  · exact ⟨Frame.refl _, fun _ => rfl⟩

include h

/-- Below another container, a container has left the row it was in. -/
theorem tiling_containerAddChild {L : ConId → Prop} (hs : s.tree.WellFormedBut L)
    (hc : s.tree.Detachable c) (hlt : c < s.tree.nextCon)
    (hp : p ≠ c ∧ ¬ s.tree.HangsBelow p c ∧ p < s.tree.nextCon) (w : WsId) :
    ((containerAddChild fo s p c).tree.ws w).tiling = (s.tree.ws w).tiling.erase c := by
  have htaken := takenOut_detachIfPlaced hs hc
  rw [← tiling_detachIfPlaced hs.linked c w]
  unfold containerAddChild
  rw [(onlyGeometry_containerFitVerticalChildren _ _ c).tree]
  set u := detachIfPlaced s c
  have hlinked : (u.attachLast (.children p) c).tree.Linked := by
    unfold State.attachLast
    rw [tree_attach]
    exact (htaken.attach hlt (htaken.takes (insertOk_length _) fun q hq => by
      cases hq
      exact hp)).wellFormed.linked
  have hthins := thins_containerHandleFullscreenReparent h (u.attachLast (.children p) c) c
  refine (hthins.items_eq hlinked (r := .tiling w) fun v => by simp).trans ?_
  unfold State.attachLast
  rw [core_tree, tree_attach, Tree.attach_items, if_neg (by simp)]
  rfl

theorem adopts_containerAddChild (hs : s.tree.WellFormed) (hc : s.tree.Detachable c)
    (hlt : c < s.tree.nextCon) (hp : p ≠ c ∧ ¬ s.tree.HangsBelow p c ∧ p < s.tree.nextCon) :
    Adopts p c s (containerAddChild fo s p c) := by
  have htaken := takenOut_detachIfPlaced hs hc
  obtain ⟨hframe, hdestroying⟩ := frame_detachIfPlaced s c
  have hwf : (containerAddChild fo s p c).tree.WellFormed :=
    (moved_containerAddChild h hs hc hlt hp).wellFormed.mono fun _ hl => hl.1
  have hstay := parent_detachIfPlaced s c
  -- the list the container is put into, and what the focus does afterwards
  set u := detachIfPlaced s c with hu
  have hlinked : (u.attachLast (.children p) c).tree.Linked := by
    unfold State.attachLast
    rw [tree_attach]
    exact (htaken.attach hlt (htaken.takes (insertOk_length _) fun q hq => by
      cases hq
      exact hp)).wellFormed.linked
  have hput := Tree.rewired_attach u.tree (.children p) (u.tree.items (.children p)).length c
  have htree : (u.attachLast (.children p) c).tree =
      u.tree.attach (.children p) (u.tree.items (.children p)).length c := tree_attach _ _ _ _
  have hthins := thins_containerHandleFullscreenReparent h (u.attachLast (.children p) c) c
  have hfaults := faults_attachLast_children u p c
  have hgeo := onlyGeometry_containerFitVerticalChildren
    (containerHandleFullscreenReparent fo (u.attachLast (.children p) c) c) (some p) c
  have hresult : (containerAddChild fo s p c).core =
      (containerHandleFullscreenReparent fo (u.attachLast (.children p) c) c).core := by
    unfold containerAddChild
    rw [← hu]
    exact hgeo.core
  have hresult' : (containerAddChild fo s p c).tree =
      (containerHandleFullscreenReparent fo (u.attachLast (.children p) c) c).tree :=
    congrArg Core.tree hresult
  have hsum : (containerAddChild fo s p c).faults = (u.attachLast (.children p) c).faults :=
    (congrArg Core.faults hresult).trans hthins.frame.faults
  have hview : (u.tree.con p).view = (s.tree.con p).view := hframe.view p
  have hquiet : u.faults = s.faults := hframe.faults
  refine ⟨hwf, ?_, fun x => ?_, fun x => ?_, fun x => ?_,
    tiling_containerAddChild h hs hc hlt hp, fun hp => ?_, fun hp => ?_⟩
  · rw [hresult']
    refine hthins.frame.nextCon.trans ?_
    rw [core_tree, htree, hput.nextCon]
    exact hframe.nextCon
  · rw [hresult']
    refine (hthins.frame.view x).trans ?_
    rw [core_tree, htree, hput.view]
    exact hframe.view x
  · rw [hresult']
    refine (hthins.destroying_eq (c := x) id).trans ?_
    rw [core_tree, htree, hput.destroying]
    exact hdestroying x
  · rw [hresult']
    refine (hthins.parent_eq hlinked x).trans ?_
    rw [core_tree, htree, Tree.attach_parent]
    by_cases hx : x = c
    · rw [if_pos hx, if_pos hx]
      rfl
    · rw [if_neg hx, if_neg hx]
      exact hstay x hx
  · rw [hsum, hfaults.1 (hview.trans hp), hquiet]
  · rw [hsum, ← hquiet]
    exact hfaults.2 (by rw [hview]; exact hp)

end Adopts

/-- What adding the containers of a list as children, one after the other, does to the links. -/
structure AdoptsAll (p : ConId) (l : List ConId) (s s' : State) : Prop where
  wellFormed : s'.tree.WellFormed
  view : ∀ x, (s'.tree.con x).view = (s.tree.con x).view
  destroying : ∀ x, (s'.tree.con x).destroying = (s.tree.con x).destroying
  parent : ∀ x, (s'.tree.con x).parent = if x ∈ l then some p else (s.tree.con x).parent
  tiling : ∀ w, (s'.tree.ws w).tiling = (s.tree.ws w).tiling.diff l
  inRange : (s.tree.con p).view = none ∨ l = [] → s'.faults = s.faults
  recorded : (s.tree.con p).view.isSome → l ≠ [] → s.faults.length < s'.faults.length

/-- What destroying a container does to the links. -/
structure Destroys (c : ConId) (s s' : State) : Prop where
  wellFormed : s'.tree.WellFormed
  view : ∀ x, (s'.tree.con x).view = (s.tree.con x).view
  destroying : ∀ x, x ≠ c → (s'.tree.con x).destroying = (s.tree.con x).destroying
  parent : ∀ x, (s'.tree.con x).parent = if x = c then none else (s.tree.con x).parent
  tiling : ∀ w, (s'.tree.ws w).tiling = (s.tree.ws w).tiling.erase c
  faults : s'.faults = s.faults

/-- What a round of the loop does to the links: the children of the source go to the target, and
the source goes. -/
structure Merges (src dst : ConId) (s s' : State) : Prop where
  wellFormed : s'.tree.WellFormed
  view : ∀ x, (s'.tree.con x).view = (s.tree.con x).view
  destroying : ∀ x, x ≠ src → (s'.tree.con x).destroying = (s.tree.con x).destroying
  parent : ∀ x, (s'.tree.con x).parent =
    if x = src then none else if x ∈ mergedViews s.tree src then some dst else (s.tree.con x).parent
  tiling : ∀ w, (s'.tree.ws w).tiling = (s.tree.ws w).tiling.erase src
  inRange : (s.tree.con dst).view = none ∨ mergedViews s.tree src = [] → s'.faults = s.faults
  recorded : (s.tree.con dst).view.isSome → mergedViews s.tree src ≠ [] →
    s.faults.length < s'.faults.length

section Merges

variable {fo : FocusOps} (h : FocusThins fo) {s : State} {c p src dst : ConId} {w : WsId}

theorem diff_eq_self {α : Type} [DecidableEq α] {l l' : List α} (hl : ∀ a ∈ l', a ∉ l) :
    l.diff l' = l := by
  induction l' with
  | nil => exact List.diff_nil l
  | cons a l' ih =>
      rw [List.diff_cons, List.erase_of_not_mem (hl a List.mem_cons_self)]
      exact ih fun b hb => hl b (List.mem_cons_of_mem a hb)

include h

theorem adoptsAll_addChildren {l : List ConId} (hs : s.tree.WellFormed) (hl : Joins s.tree p l) :
    AdoptsAll p l s (l.foldl (fun s c => containerAddChild fo s p c) s) := by
  induction l generalizing s with
  | nil => exact ⟨hs, fun _ => rfl, fun _ => rfl, fun x => by simp, fun w => (List.diff_nil _).symm,
      fun _ => rfl, fun _ hne => absurd rfl hne⟩
  | cons c l ih =>
      obtain ⟨hlt, hc, hp⟩ := hl.each c List.mem_cons_self
      have hone := adopts_containerAddChild h hs hc hlt ⟨(hp c rfl).1, (hp c rfl).2, hl.parent⟩
      have hrest := ih hone.wellFormed (hl.tail (hl.moved_head h hs))
      have hgrow : ((containerAddChild fo s p c).tree.con p).view = (s.tree.con p).view :=
        hone.view p
      rw [List.foldl_cons]
      refine ⟨hrest.wellFormed, fun x => (hrest.view x).trans (hone.view x),
        fun x => (hrest.destroying x).trans (hone.destroying x), fun x => ?_, fun w => ?_,
        fun hbare => ?_, fun hbare _ => ?_⟩
      · rw [hrest.parent, hone.parent]
        by_cases hxl : x ∈ l
        · rw [if_pos hxl, if_pos (List.mem_cons_of_mem c hxl)]
        · rw [if_neg hxl]
          by_cases hxc : x = c
          · rw [if_pos hxc, hxc, if_pos List.mem_cons_self]
          · rw [if_neg hxc, if_neg (by simp [hxc, hxl])]
      · rw [hrest.tiling, hone.tiling, List.diff_cons]
      · have hbare' := hbare.resolve_right (List.cons_ne_nil c l)
        rw [hrest.inRange (Or.inl (hgrow.trans hbare')), hone.inRange hbare']
      · have hfirst := hone.recorded hbare
        by_cases hnil : l = []
        · rw [hrest.inRange (Or.inr hnil)]
          exact hfirst
        · exact hfirst.trans (hrest.recorded (by rw [hgrow]; exact hbare) hnil)

theorem destroys_containerBeginDestroy (hs : s.tree.WellFormed) (c : ConId) :
    Destroys c s (containerBeginDestroy fo s c) := by
  have hthins := thins_beforeDetach h s c
  have hall := thins_containerBeginDestroy h s c
  have hwf : (beforeDetach fo s c).tree.WellFormed := Tree.Thins.wellFormedBut hthins hs
  have hparent := hthins.parent_eq hs.linked
  have hitems : ∀ w, ((beforeDetach fo s c).tree.ws w).tiling = (s.tree.ws w).tiling :=
    fun w => hthins.items_eq hs.linked (r := .tiling w) fun v => by simp
  refine ⟨Tree.Thins.wellFormedBut hall hs, hall.frame.view, fun x hx => hall.destroying_eq hx,
    fun x => ?_, fun w => ?_, hall.frame.faults⟩
  · rw [containerBeginDestroy_eq]
    dsimp only
    split
    next =>
      rw [tree_containerDetach, Tree.detach_parent]
      split
      · rfl
      · exact hparent x
    next hout =>
      by_cases hx : x = c
      · rw [if_pos hx, hx]
        simpa using (not_or.mp hout).1
      · rw [if_neg hx]
        exact hparent x
  · rw [containerBeginDestroy_eq]
    dsimp only
    split
    next =>
      rw [tree_containerDetach, ← hitems w]
      exact Tree.detach_items hwf.linked c (.tiling w)
    next hout =>
      rw [← hitems w]
      refine (List.erase_of_not_mem fun hc => hout (Or.inr ?_)).symm
      rw [(hwf.linked.of_tiling hc).2]
      rfl

theorem merges_mergeColumn (hs : s.tree.WellFormed) (gaps : Int)
    (ha : src ∈ (s.tree.ws w).tiling) (hb : dst ∈ (s.tree.ws w).tiling) (hab : src ≠ dst) :
    Merges src dst s (mergeColumn fo gaps w s src dst) := by
  have hall := adoptsAll_addChildren h hs (joins_mergedViews hs ha hb hab)
  unfold mergeColumn
  dsimp only
  set u := (mergedViews s.tree src).foldl (fun s c => containerAddChild fo s dst c) s
  have htabs := onlyGeometry_stackToTabs gaps w u dst
  have hfaults : (stackToTabs gaps w u dst).faults = u.faults := congrArg Core.faults htabs.core
  have hgone := destroys_containerBeginDestroy (s := stackToTabs gaps w u dst) h
    (htabs.tree.symm ▸ hall.wellFormed) src
  have htree := htabs.tree
  refine ⟨hgone.wellFormed, fun x => ?_, fun x hx => ?_, fun x => ?_, fun v => ?_, fun hok => ?_,
    fun hbare hne => ?_⟩
  · rw [hgone.view, htree, hall.view]
  · rw [hgone.destroying x hx, htree, hall.destroying]
  · rw [hgone.parent, htree, hall.parent]
  · rw [hgone.tiling, htree, hall.tiling]
    -- a view is taken out twice; the children of a column are not in the row
    have hnodup : (s.tree.ws v).tiling.Nodup := hs.linked.nodup (.tiling v)
    unfold mergedViews
    split
    · rw [List.diff_cons, List.diff_nil, List.erase_of_not_mem hnodup.not_mem_erase]
    · rw [diff_eq_self]
      intro c hc hrow
      have hp := hs.linked.of_children hc
      rw [(hs.linked.of_tiling hrow).1] at hp
      cases hp
  · rw [hgone.faults, hfaults, hall.inRange hok]
  · rw [hgone.faults, hfaults]
    exact hall.recorded hbare hne

/-! ## The views of the row -/

omit h in
/-- A round takes nothing into the row. -/
theorem Merges.inRow_of {s' : State} (hm : Merges src dst s s') (hs : s.tree.WellFormed)
    (ha : src ∈ (s.tree.ws w).tiling) {x : ConId} (hx : InRow s'.tree w x) :
    InRow s.tree w x ∧ x ≠ src := by
  have hnodup : (s.tree.ws w).tiling.Nodup := hs.linked.nodup (.tiling w)
  induction hx with
  | column hc =>
      rw [hm.tiling, hnodup.mem_erase_iff] at hc
      exact ⟨.column hc.2, hc.1⟩
  | @child c p hp _ ih =>
      rw [hm.parent] at hp
      split at hp
      next => cases hp
      next hcs =>
        refine ⟨?_, hcs⟩
        split at hp
        next hmoved =>
          -- a child of the source
          unfold mergedViews at hmoved
          split at hmoved
          · exact absurd (List.mem_singleton.mp hmoved) hcs
          · exact .child (hs.linked.of_children hmoved) (.column ha)
        next => exact .child hp ih.1

omit h in
/-- A round that merges a column keeps everything else in the row. -/
theorem Merges.inRow {s' : State} (hm : Merges src dst s s') (hs : s.tree.WellFormed)
    (hb : dst ∈ (s.tree.ws w).tiling) (hab : src ≠ dst) (hbare : (s.tree.con src).view = none)
    {x : ConId} (hx : InRow s.tree w x) (hxs : x ≠ src) : InRow s'.tree w x := by
  have hdst : InRow s'.tree w dst := by
    refine .column ?_
    rw [hm.tiling]
    exact (List.mem_erase_of_ne hab.symm).mpr hb
  have hmoved : ∀ {c : ConId}, c ∈ mergedViews s.tree src ↔ (s.tree.con c).parent = some src := by
    intro c
    unfold mergedViews
    rw [if_neg (by rw [hbare]; simp)]
    exact hs.forest.agree src c
  induction hx with
  | column hc =>
      refine .column ?_
      rw [hm.tiling]
      exact (List.mem_erase_of_ne hxs).mpr hc
  | @child c p hp _ ih =>
      have hparent := hm.parent c
      rw [if_neg hxs] at hparent
      by_cases hps : p = src
      · rw [if_pos (hmoved.mpr (hps ▸ hp))] at hparent
        exact .child hparent hdst
      · have hstay : c ∉ mergedViews s.tree src := fun hc =>
          hps (Option.some.inj (hp.symm.trans (hmoved.mp hc)))
        rw [if_neg hstay, hp] at hparent
        exact .child hparent (ih hps)

end Merges

/-! ## The loop -/

/-- A merge that loses nothing: the column that goes is not a view, and its children do not go
into a view. -/
def MergeSafe (t : Tree) (src dst : ConId) : Prop :=
  (t.con src).view = none ∧ ((t.con dst).view = none ∨ (t.con src).children = [])

/-- All rounds of the loop are safe. -/
def MergesSafely (fo : FocusOps) (k : OverflowLimits) (w : WsId) : Nat → State → Prop
  | 0, _ => True
  | n + 1, s =>
      fitsWorkspace k s w ∨
        ∀ src dst, (s.tree.ws w).tiling[(s.tree.ws w).tiling.length - 1]? = some src →
          (s.tree.ws w).tiling[mergeTarget (s.tree.ws w).tiling.length]? = some dst →
          MergeSafe s.tree src dst ∧ MergesSafely fo k w n (mergeColumn fo k.gaps w s src dst)

/-- What the loop is to keep: the views of the row, alive, and no insertion went wrong. -/
structure RowKept (w : WsId) (s s' : State) : Prop where
  faults : s'.faults = s.faults
  views : ∀ x, (s.tree.con x).view.isSome → (InRow s'.tree w x ↔ InRow s.tree w x)
  alive : ∀ x, (s.tree.con x).view.isSome →
    (s'.tree.con x).destroying = (s.tree.con x).destroying

/-- What shows that the loop did not: a recorded fault, or a view that left the row. -/
def RowLost (w : WsId) (s s' : State) : Prop :=
  s.faults.length < s'.faults.length ∨
    ∃ x, (s.tree.con x).view.isSome ∧ InRow s.tree w x ∧ ¬ InRow s'.tree w x

section Loop

variable {fo : FocusOps} (h : FocusThins fo) {s : State} {w : WsId} {k : OverflowLimits}

/-- The two columns of a round. -/
theorem round_columns (hs : s.tree.WellFormed) (hfits : ¬ fitsWorkspace k s w) :
    ∃ src dst, (s.tree.ws w).tiling[(s.tree.ws w).tiling.length - 1]? = some src ∧
      (s.tree.ws w).tiling[mergeTarget (s.tree.ws w).tiling.length]? = some dst ∧
      src ∈ (s.tree.ws w).tiling ∧ dst ∈ (s.tree.ws w).tiling ∧ src ≠ dst := by
  have hlen : 1 < (s.tree.ws w).tiling.length := by
    by_contra hle
    exact hfits (Or.inl (Nat.not_lt.mp hle))
  have htarget : mergeTarget (s.tree.ws w).tiling.length < (s.tree.ws w).tiling.length := by
    unfold mergeTarget
    split <;> omega
  have hlast : (s.tree.ws w).tiling.length - 1 < (s.tree.ws w).tiling.length := by omega
  have ha := List.getElem?_eq_getElem hlast
  have hb := List.getElem?_eq_getElem htarget
  exact ⟨_, _, ha, hb, List.getElem_mem hlast, List.getElem_mem htarget,
    merged_ne (hs.linked.nodup (.tiling w)) hlen ha hb⟩

include h

/-- One round of the loop that does not stop. -/
theorem fixOverflowLoop_round (hs : s.tree.WellFormed) (hfits : ¬ fitsWorkspace k s w) (n : Nat) :
    ∃ src dst, (s.tree.ws w).tiling[(s.tree.ws w).tiling.length - 1]? = some src ∧
      (s.tree.ws w).tiling[mergeTarget (s.tree.ws w).tiling.length]? = some dst ∧
      src ∈ (s.tree.ws w).tiling ∧ dst ∈ (s.tree.ws w).tiling ∧ src ≠ dst ∧
      Merges src dst s (mergeColumn fo k.gaps w s src dst) ∧
      fixOverflowLoop fo k w (n + 1) s =
        fixOverflowLoop fo k w n (mergeColumn fo k.gaps w s src dst) := by
  obtain ⟨src, dst, ha, hb, hsrc, hdst, hne⟩ := round_columns hs hfits
  refine ⟨src, dst, ha, hb, hsrc, hdst, hne, merges_mergeColumn h hs _ hsrc hdst hne, ?_⟩
  rw [fixOverflowLoop, if_neg hfits]
  dsimp only
  rw [ha, hb]

/-- **The loop ends with its exit test met**: as many rounds as there are columns are enough. -/
theorem fixOverflowLoop_fits (hs : s.tree.WellFormed) {n : Nat}
    (hn : (s.tree.ws w).tiling.length ≤ n + 1) : fitsWorkspace k (fixOverflowLoop fo k w n s) w := by
  induction n generalizing s with
  | zero => exact Or.inl hn
  | succ n ih =>
      by_cases hfits : fitsWorkspace k s w
      · rw [fixOverflowLoop, if_pos hfits]
        exact hfits
      · obtain ⟨src, dst, -, -, hsrc, -, -, hm, heq⟩ := fixOverflowLoop_round h hs hfits n
        rw [heq]
        refine ih hm.wellFormed ?_
        rw [hm.tiling, List.length_erase_of_mem hsrc]
        omega

/-- The loop takes nothing into the row, and no recorded fault away. -/
theorem fixOverflowLoop_shrinks (hs : s.tree.WellFormed) (n : Nat) :
    (∀ x, InRow (fixOverflowLoop fo k w n s).tree w x → InRow s.tree w x) ∧
      s.faults.length ≤ (fixOverflowLoop fo k w n s).faults.length := by
  induction n generalizing s with
  | zero => exact ⟨fun _ hx => hx, le_rfl⟩
  | succ n ih =>
      by_cases hfits : fitsWorkspace k s w
      · rw [fixOverflowLoop, if_pos hfits]
        exact ⟨fun _ hx => hx, le_rfl⟩
      · obtain ⟨src, dst, -, -, hsrc, -, -, hm, heq⟩ := fixOverflowLoop_round h hs hfits n
        rw [heq]
        obtain ⟨hrow, hfaults⟩ := ih hm.wellFormed
        refine ⟨fun x hx => (hm.inRow_of hs hsrc (hrow x hx)).1, le_trans ?_ hfaults⟩
        by_cases hok : (s.tree.con dst).view = none ∨ mergedViews s.tree src = []
        · exact (congrArg List.length (hm.inRange hok)).ge
        · obtain ⟨hbare, hne⟩ := not_or.mp hok
          exact (hm.recorded (Option.isSome_iff_ne_none.mpr hbare) hne).le

/-- The loop leaves the views alone. -/
theorem view_fixOverflowLoop (hs : s.tree.WellFormed) (n : Nat) (x : ConId) :
    ((fixOverflowLoop fo k w n s).tree.con x).view = (s.tree.con x).view := by
  induction n generalizing s with
  | zero => rfl
  | succ n ih =>
      by_cases hfits : fitsWorkspace k s w
      · rw [fixOverflowLoop, if_pos hfits]
      · obtain ⟨src, dst, -, -, -, -, -, hm, heq⟩ := fixOverflowLoop_round h hs hfits n
        rw [heq, ih hm.wellFormed, hm.view]

theorem rowKept_fixOverflowLoop (hs : s.tree.WellFormed) {n : Nat}
    (hsafe : MergesSafely fo k w n s) : RowKept w s (fixOverflowLoop fo k w n s) := by
  induction n generalizing s with
  | zero => exact ⟨rfl, fun _ _ => Iff.rfl, fun _ _ => rfl⟩
  | succ n ih =>
      by_cases hfits : fitsWorkspace k s w
      · rw [fixOverflowLoop, if_pos hfits]
        exact ⟨rfl, fun _ _ => Iff.rfl, fun _ _ => rfl⟩
      · obtain ⟨src, dst, ha, hb, hsrc, hdst, hne, hm, heq⟩ := fixOverflowLoop_round h hs hfits n
        obtain ⟨⟨hbare, hinto⟩, hsafe'⟩ := hsafe.resolve_left hfits src dst ha hb
        have hrest := ih hm.wellFormed hsafe'
        have hmoved : mergedViews s.tree src = (s.tree.con src).children := by
          unfold mergedViews
          rw [if_neg (by rw [hbare]; simp)]
        have hother : ∀ x, (s.tree.con x).view.isSome → x ≠ src := by
          rintro x hv rfl
          rw [hbare] at hv
          cases hv
        rw [heq]
        refine ⟨hrest.faults.trans (hm.inRange (hmoved ▸ hinto)), fun x hv => ?_, fun x hv => ?_⟩
        · rw [hrest.views x (by rw [hm.view]; exact hv)]
          exact ⟨fun hx => (hm.inRow_of hs hsrc hx).1,
            fun hx => hm.inRow hs hdst hne hbare hx (hother x hv)⟩
        · rw [hrest.alive x (by rw [hm.view]; exact hv), hm.destroying x (hother x hv)]

/-- The first round that is not safe leaves its trace. -/
theorem rowLost_fixOverflowLoop (hs : s.tree.WellFormed) {n : Nat}
    (hsafe : ¬ MergesSafely fo k w n s) : RowLost w s (fixOverflowLoop fo k w n s) := by
  induction n generalizing s with
  | zero => exact absurd trivial hsafe
  | succ n ih =>
      have hfits : ¬ fitsWorkspace k s w := fun hf => hsafe (Or.inl hf)
      obtain ⟨src, dst, ha, hb, hsrc, hdst, hne, hm, heq⟩ := fixOverflowLoop_round h hs hfits n
      obtain ⟨hrow, hfaults⟩ := fixOverflowLoop_shrinks (k := k) (w := w) h hm.wellFormed n
      rw [heq]
      by_cases hview : (s.tree.con src).view.isSome
      · -- a view that stood in the row is destroyed
        right
        refine ⟨src, hview, .column hsrc, fun hx => ?_⟩
        exact (hm.inRow_of hs hsrc (hrow src hx)).2 rfl
      · have hbare : (s.tree.con src).view = none := Option.not_isSome_iff_eq_none.mp hview
        have hmoved : mergedViews s.tree src = (s.tree.con src).children := by
          unfold mergedViews
          rw [if_neg hview]
        by_cases hinto : (s.tree.con dst).view = none ∨ (s.tree.con src).children = []
        · -- this round is safe, so a later one is not
          have hlater : ¬ MergesSafely fo k w n (mergeColumn fo k.gaps w s src dst) := by
            intro hrest
            refine hsafe (Or.inr fun a b ha' hb' => ?_)
            obtain rfl := Option.some.inj (ha.symm.trans ha')
            obtain rfl := Option.some.inj (hb.symm.trans hb')
            exact ⟨⟨hbare, hinto⟩, hrest⟩
          rcases ih hm.wellFormed hlater with hlt | ⟨x, hv, hx, hx'⟩
          · left
            rwa [hm.inRange (hmoved ▸ hinto)] at hlt
          · rw [hm.view] at hv
            exact Or.inr ⟨x, hv, (hm.inRow_of hs hsrc hx).1, hx'⟩
        · -- children are put into a list that a view does not have
          obtain ⟨hdview, hkids⟩ := not_or.mp hinto
          left
          refine (hm.recorded (Option.isSome_iff_ne_none.mpr hdview) ?_).trans_le hfaults
          rw [hmoved]
          exact hkids

end Loop

/-! ## The width at the end -/

/-- What the test for a single visible container looks at. -/
structure SameLook (s t : State) : Prop where
  tree : t.tree = s.tree
  seat : t.seat = s.seat
  defaultSeat : t.defaultSeat = s.defaultSeat
  full : t.full = s.full
  layout : ∀ c, (t.geo c).layout = (s.geo c).layout
  wsLayout : ∀ w, (t.wsGeo w).layout = (s.wsGeo w).layout

namespace SameLook

variable {s t u : State}

theorem refl (s : State) : SameLook s s := ⟨rfl, rfl, rfl, rfl, fun _ => rfl, fun _ => rfl⟩

theorem symm (h : SameLook s t) : SameLook t s :=
  ⟨h.tree.symm, h.seat.symm, h.defaultSeat.symm, h.full.symm, fun c => (h.layout c).symm,
    fun w => (h.wsLayout w).symm⟩

theorem trans (h : SameLook s t) (h' : SameLook t u) : SameLook s u :=
  ⟨h'.tree.trans h.tree, h'.seat.trans h.seat, h'.defaultSeat.trans h.defaultSeat,
    h'.full.trans h.full, fun c => (h'.layout c).trans (h.layout c),
    fun w => (h'.wsLayout w).trans (h.wsLayout w)⟩

theorem modGeo (s : State) (c : ConId) {f : Geometry → Geometry}
    (hf : (f (s.geo c)).layout = (s.geo c).layout) : SameLook s (s.modGeo c f) := by
  refine ⟨rfl, rfl, rfl, rfl, fun d => ?_, fun _ => rfl⟩
  by_cases hd : d = c
  · subst hd
    show (Function.update s.geo d (f (s.geo d)) d).layout = _
    rw [Function.update_self, hf]
  · show (Function.update s.geo c (f (s.geo c)) d).layout = _
    rw [Function.update_of_ne hd]

theorem modWsGeo (s : State) (w : WsId) {f : WsGeometry → WsGeometry}
    (hf : (f (s.wsGeo w)).layout = (s.wsGeo w).layout) : SameLook s (s.modWsGeo w f) := by
  refine ⟨rfl, rfl, rfl, rfl, fun _ => rfl, fun v => ?_⟩
  by_cases hv : v = w
  · subst hv
    show (Function.update s.wsGeo v (f (s.wsGeo v)) v).layout = _
    rw [Function.update_self, hf]
  · show (Function.update s.wsGeo w (f (s.wsGeo w)) v).layout = _
    rw [Function.update_of_ne hv]

theorem foldl {α : Type} {f : State → α → State} (hf : ∀ s a, SameLook s (f s a)) (l : List α)
    (s : State) : SameLook s (l.foldl f s) := by
  induction l generalizing s with
  | nil => exact refl s
  | cons a l ih => exact (hf s a).trans (ih (f s a))

theorem translateWithin (n : Nat) (s : State) (c : ConId) (dx dy : ℚ) :
    SameLook s (translateWithin n s c dx dy) := by
  induction n generalizing s c with
  | zero => exact refl s
  | succ n ih => exact (modGeo s c (by rfl)).trans (foldl (fun t d => ih t d) _ _)

theorem fixFloater (w : WsId) (o : OutId) (prevBox : Box) (s : State) (c : ConId) :
    SameLook s (fixFloater w o prevBox s c) := by
  have hmove : SameLook s (floatingFixCoordinates s c prevBox (workspaceGetBox s w)) := by
    unfold floatingFixCoordinates containerFloatingMoveToCenter containerFloatingTranslate
    split
    · split
      · split
        · exact translateWithin _ s c _ _
        · exact refl s
      · exact refl s
    · exact modGeo s c (by rfl)
  unfold Swirl.fixFloater
  dsimp only
  split
  · exact hmove.trans (modGeo _ c (by rfl))
  · exact hmove

/-- Where nothing it looks at differs, the test has the same result. -/
theorem single (h : SameLook s t) (w : WsId) :
    workspaceHasSingleVisibleContainer t w = workspaceHasSingleVisibleContainer s w := by
  have hparent : ∀ c, containerParentLayout t c = containerParentLayout s c := by
    intro c
    unfold containerParentLayout
    rw [h.tree]
    split
    · exact h.layout _
    · exact h.wsLayout _
    · rfl
  have honly : ∀ c, viewAncestorIsOnlyVisible t c = viewAncestorIsOnlyVisible s c := by
    intro c
    unfold viewAncestorIsOnlyVisible
    rw [h.tree]
    simp only [hparent]
  have hglobal : ∀ n, nodeIsGlobal t n = nodeIsGlobal s n := by
    intro n
    unfold nodeIsGlobal
    rw [h.full]
  have habove : ∀ n a, nodeHasAncestor t n a = nodeHasAncestor s n a := by
    intro n a
    unfold nodeHasAncestor
    rw [h.tree]
    simp only [hglobal]
  have hview : ∀ k n, seatGetFocusInactiveView t k n = seatGetFocusInactiveView s k n := by
    intro k n
    unfold seatGetFocusInactiveView
    rw [h.tree, h.seat]
    simp only [habove]
  have htiling : ∀ k v, seatGetFocusInactiveTiling t k v = seatGetFocusInactiveTiling s k v := by
    intro k v
    unfold seatGetFocusInactiveTiling
    rw [h.tree, h.seat]
  unfold workspaceHasSingleVisibleContainer
  rw [htiling, h.defaultSeat, h.tree]
  simp only [hview, honly]

end SameLook

/-- The width that an arrange pass gives a workspace. -/
def measuredWidth (s : State) (w : WsId) : Int :=
  if s.config.reloading then (s.wsGeo w).width
  else
    match (s.tree.ws w).output with
    | none => (s.wsGeo w).width
    | some o =>
        arrangedWidth s.config (s.wsGeo w).extent (s.outGeo o).usableArea.width
          (workspaceHasSingleVisibleContainer s w)

/-- The state in which a workspace has the width an arrange pass gives it. -/
def measured (s : State) (w : WsId) : State :=
  s.modWsGeo w fun g => { g with width := measuredWidth s w }

/-- The gaps take from the width of the workspace what `arrangedWidth` says. -/
theorem width_workspaceAddGaps (s : State) (w : WsId) :
    ((workspaceAddGaps s w).wsGeo w).width = arrangedWidth s.config (s.wsGeo w).extent
      (s.wsGeo w).width (workspaceHasSingleVisibleContainer s w) := by
  have hwidth : ((workspaceAddGaps s w).wsGeo w).width =
      (s.wsGeo w).width - ((currentGaps s w).left + (currentGaps s w).right) := by
    unfold workspaceAddGaps
    show (Function.update s.wsGeo w _ w).width = _
    rw [Function.update_self]
  rw [hwidth]
  unfold currentGaps arrangedWidth
  dsimp only [WsGeometry.extent]
  split <;> simp

theorem width_arrangeWorkspace (s : State) (w : WsId) :
    ((arrangeWorkspace s w).wsGeo w).width = measuredWidth s w := by
  unfold arrangeWorkspace measuredWidth
  by_cases hr : s.config.reloading = true
  · rw [if_pos hr, if_pos hr]
  · rw [if_neg hr, if_neg hr]
    cases ho : (s.tree.ws w).output with
    | none => rfl
    | some o =>
        dsimp only
        have hcontents : ∀ t : State, ((arrangeContents t w o).wsGeo w).width =
            (t.wsGeo w).width := fun t => congrArg (fun e : Core => (e.extent w).width)
              (onlyGeometry_arrangeContents t w o).core
        rw [hcontents]
        set f : WsGeometry → WsGeometry := fun k =>
          { k with
            width := (s.outGeo o).usableArea.width, height := (s.outGeo o).usableArea.height,
            x := ((s.outGeo o).lx : ℚ) + (s.outGeo o).usableArea.x,
            y := ((s.outGeo o).ly : ℚ) + (s.outGeo o).usableArea.y } with hf
        -- before the gaps the workspace has the usable area of the output
        have hall : SameLook s (s.modWsGeo w f) := SameLook.modWsGeo s w rfl
        have hext : (f (s.wsGeo w)).extent =
            { (s.wsGeo w).extent with width := (s.outGeo o).usableArea.width } := rfl
        have key : ∀ t : State, SameLook s t → t.core = (s.modWsGeo w f).core →
            ((workspaceAddGaps t w).wsGeo w).width = arrangedWidth s.config (s.wsGeo w).extent
              (s.outGeo o).usableArea.width (workspaceHasSingleVisibleContainer s w) := by
          intro t hlook hcore
          rw [core_modWsGeo] at hcore
          have hext' : (t.wsGeo w).extent = (f (s.wsGeo w)).extent := by
            have hcore' := congrArg (fun e : Core => e.extent w) hcore
            dsimp only at hcore'
            rwa [Function.update_self] at hcore'
          have hconfig : t.config = s.config := congrArg Core.config hcore
          have hwidth : (t.wsGeo w).width = (s.outGeo o).usableArea.width :=
            congrArg Extent.width hext'
          rw [width_workspaceAddGaps, hconfig, hwidth, hext', hext, hlook.single w]
          rfl
        split
        · refine key _ (hall.trans ?_) (core_fixFloaters _ w o _)
          exact SameLook.foldl (fun t c => SameLook.fixFloater w o _ t c) _ _
        · exact key _ hall rfl

/-! ## The whole function -/

/-- The bounds of a container depend on the views, the borders and the titlebars. -/
theorem sizeConstraintsWithin_congr {s t : State} (htree : t.tree = s.tree)
    (hdeco : t.deco = s.deco) (hfull : t.full = s.full) (hconfig : t.config = s.config) (n : Nat)
    (c : ConId) : sizeConstraintsWithin t n c = sizeConstraintsWithin s n c := by
  induction n generalizing c with
  | zero => rfl
  | succ n ih =>
      have hview : ∀ v, viewContainerConstraints t c v = viewContainerConstraints s c v := by
        intro v
        unfold viewContainerConstraints
        rw [hdeco, hfull, hconfig]
      rw [sizeConstraintsWithin, sizeConstraintsWithin, htree]
      simp only [hview, ih]

/-- The row of a workspace holds the views it held, all alive and without an insertion gone wrong,
and fits the workspace or is one column at most. -/
structure OverflowFixed (w : WsId) (s s' : State) : Prop where
  fits : fitsWorkspace (overflowLimits s' w) s' w
  inRange : s'.faults = s.faults
  views : (rowViews s'.tree w).Perm (rowViews s.tree w)
  alive : ∀ x ∈ rowViews s.tree w, (s.tree.con x).destroying = false →
    (s'.tree.con x).destroying = false

/-- The state after the loop. -/
def overflowMerged (fo : FocusOps) (s : State) (w : WsId) : State :=
  fixOverflowLoop fo (overflowLimits s w) w (s.tree.ws w).tiling.length s

section Fix

variable {fo : FocusOps} (h : FocusThins fo) {s t : State} {w : WsId}

theorem fitsWorkspace_congr {k k' : OverflowLimits} (htree : t.tree = s.tree)
    (hdeco : t.deco = s.deco) (hfull : t.full = s.full) (hconfig : t.config = s.config)
    (hwidth : (t.wsGeo w).width = (s.wsGeo w).width) (hk : k' = k) :
    fitsWorkspace k' t w ↔ fitsWorkspace k s w := by
  have hmin : ∀ c, columnMin k' t c = columnMin k s c := by
    intro c
    unfold columnMin containerGetSizeConstraints
    rw [sizeConstraintsWithin_congr htree hdeco hfull hconfig, htree, hk]
  have htotal : totalMin k' t w = totalMin k s w := by
    have hfun : columnMin k' t = columnMin k s := funext hmin
    unfold totalMin
    rw [htree, hk]
    dsimp only
    rw [hk] at hfun
    rw [hfun]
  unfold fitsWorkspace
  rw [htree, hwidth, htotal]

theorem full_arrangeWorkspace (s : State) (w : WsId) : (arrangeWorkspace s w).full = s.full := by
  unfold arrangeWorkspace
  split
  · rfl
  · split
    · rfl
    · dsimp only
      rw [(onlyGeometry_arrangeContents _ w _).full]
      show (ite _ _ _ : State).full = s.full
      split
      · exact (onlyGeometry_fixFloaters _ w _ _).full.trans rfl
      · rfl

/-- Whether the row fits after the arrange pass, told from the state before it. -/
theorem fitsWorkspace_arrangeWorkspace (u : State) (w : WsId) :
    fitsWorkspace (overflowLimits (arrangeWorkspace u w) w) (arrangeWorkspace u w) w ↔
      fitsWorkspace (overflowLimits (measured u w) w) (measured u w) w := by
  obtain ⟨single, hcore⟩ := core_arrangeWorkspace u w
  have hmeasure : (u.core.measure w single).deco = u.deco ∧
      (u.core.measure w single).config = u.config ∧
      ((u.core.measure w single).extent w).gapsInner = (u.wsGeo w).gapsInner := by
    unfold Core.measure
    split
    · exact ⟨rfl, rfl, rfl⟩
    · split
      · exact ⟨rfl, rfl, rfl⟩
      · refine ⟨rfl, rfl, ?_⟩
        dsimp only
        rw [Function.update_self]
        rfl
  have htree : (arrangeWorkspace u w).tree = u.tree :=
    (congrArg Core.tree hcore).trans (Core.measure_tree _ w single)
  have hdeco : (arrangeWorkspace u w).deco = u.deco :=
    (congrArg Core.deco hcore).trans hmeasure.1
  have hconfig : (arrangeWorkspace u w).config = u.config :=
    (congrArg Core.config hcore).trans hmeasure.2.1
  have hgaps : ((arrangeWorkspace u w).wsGeo w).gapsInner = (u.wsGeo w).gapsInner :=
    (congrArg (fun k : Core => (k.extent w).gapsInner) hcore).trans hmeasure.2.2
  have hgeo : (measured u w).wsGeo w = { u.wsGeo w with width := measuredWidth u w } :=
    Function.update_self _ _ _
  have hwidth : ((arrangeWorkspace u w).wsGeo w).width = ((measured u w).wsGeo w).width := by
    rw [width_arrangeWorkspace, hgeo]
  refine fitsWorkspace_congr htree hdeco (full_arrangeWorkspace u w) hconfig hwidth ?_
  have hgaps' : ((measured u w).wsGeo w).gapsInner = (u.wsGeo w).gapsInner := by rw [hgeo]
  have hconfig' : (measured u w).config = u.config := rfl
  unfold overflowLimits workspaceWidthFraction
  dsimp only
  rw [hgaps, hgaps', hwidth, hconfig, hconfig']

/-- Rounds among columns that are no views are safe. -/
theorem mergesSafely_of_columns {k : OverflowLimits} (h : FocusThins fo) (hs : s.tree.WellFormed)
    (hbare : ∀ c ∈ (s.tree.ws w).tiling, (s.tree.con c).view = none) (n : Nat) :
    MergesSafely fo k w n s := by
  induction n generalizing s with
  | zero => trivial
  | succ n ih =>
      by_cases hfits : fitsWorkspace k s w
      · exact Or.inl hfits
      · obtain ⟨src, dst, ha, hb, hsrc, hdst, -, hm, -⟩ := fixOverflowLoop_round h hs hfits n
        refine Or.inr fun a b ha' hb' => ?_
        obtain rfl := Option.some.inj (ha.symm.trans ha')
        obtain rfl := Option.some.inj (hb.symm.trans hb')
        refine ⟨⟨hbare src hsrc, Or.inl (hbare dst hdst)⟩, ih hm.wellFormed fun c hc => ?_⟩
        rw [hm.tiling] at hc
        rw [hm.view]
        exact hbare c (List.mem_of_mem_erase hc)

end Fix

/-- Five columns of one window each, and a sixth window that stands in the row itself. -/
def bareLast : State :=
  .outlined [⟨[(0, [1]), (2, [3]), (4, [5]), (6, [7]), (8, [9]), (10, [])], []⟩]

end Swirl
