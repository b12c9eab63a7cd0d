import Swirl.Tree.ArrangeFrame
import Swirl.Tree.RowSettled
import Swirl.Tree.Start

set_option autoImplicit false

/-! # Arranging the columns of a workspace

`workspace_arrange_columns` on the tree: it gives every column the place that the row arithmetic
computes for it, and the last column ends inside the parent exactly when the row fits.
-/

namespace Swirl

open Lib

/-- The columns of a workspace are listed once, and none hangs below another. -/
structure RowShape (t : Tree) (w : WsId) : Prop where
  nodup : (t.ws w).tiling.Nodup
  apart : ∀ c ∈ (t.ws w).tiling, ∀ d ∈ (t.ws w).tiling, ¬ t.Below c d

/-- Below columns of windows there are only the windows. -/
theorem Tree.below_of_leaves {t : Tree} {c d : ConId}
    (hleaf : ∀ k ∈ (t.con c).children, (t.con k).children = []) (h : t.Below c d) :
    d ∈ (t.con c).children := by
  induction h with
  | single hd => exact hd
  | tail _ hd ih => exact absurd (hleaf _ ih ▸ hd) List.not_mem_nil

theorem rowShape_of_leaves {t : Tree} {w : WsId} (hnodup : (t.ws w).tiling.Nodup)
    (hleaf : ∀ c ∈ (t.ws w).tiling, ∀ k ∈ (t.con c).children,
      (t.con k).children = [] ∧ k ∉ (t.ws w).tiling) : RowShape t w where
  nodup := hnodup
  apart c hc d hd h :=
    (hleaf c hc d (Tree.below_of_leaves (fun k hk => (hleaf c hc k hk).1) h)).2 hd

/-! ## What the pass computes -/

/-- The columns of a workspace as the pass reads them. -/
def rowOf (s : State) (w : WsId) : List RowColumn := (s.tree.ws w).tiling.map (rowColumn s)

/-- `total_w` of the pass. -/
def rowRoom (s : State) (w : WsId) (parent : Box) : ℚ :=
  rowWidth (s.wsGeo w).gapsInner parent (s.tree.ws w).tiling.length

/-- The places that the pass computes. -/
def rowPlaces (s : State) (w : WsId) (parent : Box) : List (Int × Int) :=
  placeColumns (s.wsGeo w).gapsInner 0 0
    ((arrangeRow (rowRoom s w parent) (rowOf s w)).map RowColumn.w)

theorem workspaceArrangeColumns_eq (s : State) (w : WsId) (parent : Box) :
    workspaceArrangeColumns s w parent =
      ((s.tree.ws w).tiling.zip (rowPlaces s w parent)).foldl (placeColumn w parent) s := rfl

/-- The five fields the pass writes of a column. -/
structure ColumnBox where
  x : ℚ
  y : ℚ
  width : ℚ
  height : ℚ
  widthFraction : ℚ
  deriving DecidableEq

/-- The five fields as they stand. -/
def columnBox (s : State) (c : ConId) : ColumnBox :=
  let g := s.geo c
  ⟨g.x, g.y, g.width, g.height, g.widthFraction⟩

/-- The five fields of a column at a place. -/
def placedBox (s : State) (w : WsId) (parent : Box) (place : Int × Int) : ColumnBox :=
  let k := s.wsGeo w
  ⟨k.x + place.1, k.y, place.2, parent.height, workspaceWidthToFraction s w place.2⟩

theorem columnBox_placeColumn {s : State} {w : WsId} {parent : Box} {c : ConId}
    {place : Int × Int} (hloop : ¬ s.tree.Below c c) :
    columnBox (placeColumn w parent s (c, place)) c = placedBox s w parent place := by
  have hkeep := (writes_arrangeColumn (setColumnBox w parent s c place) c).geo c hloop
  rw [columnBox, placeColumn, hkeep, setColumnBox]
  simp only [State.modGeo, Function.update_self]
  rfl

/-- The placement loop puts every column at its place. -/
theorem columnBox_foldl_placeColumn {w : WsId} {parent : Box} (rs : List (ConId × Int × Int))
    {s : State} (hnodup : (rs.map Prod.fst).Nodup)
    (hapart : ∀ c ∈ rs.map Prod.fst, ∀ d ∈ rs.map Prod.fst, ¬ s.tree.Below c d)
    {r : ConId × Int × Int} (hr : r ∈ rs) :
    columnBox (rs.foldl (placeColumn w parent) s) r.1 = placedBox s w parent r.2 := by
  induction rs generalizing s with
  | nil => exact absurd hr List.not_mem_nil
  | cons q rs ih =>
      have hw := writes_placeColumn w parent s q
      obtain ⟨hq, hnodup'⟩ := List.nodup_cons.mp hnodup
      have hplaced : ∀ place, placedBox (placeColumn w parent s q) w parent place =
          placedBox s w parent place := by
        intro place
        rw [placedBox, placedBox, workspaceWidthToFraction, workspaceWidthToFraction, hw.wsGeo]
      rw [List.foldl_cons]
      rcases List.mem_cons.mp hr with rfl | hmem
      · -- the later rounds leave the column alone
        have hrest : Writes (fun d => ∃ p ∈ rs, d = p.1 ∨ s.tree.Below p.1 d)
            (placeColumn w parent s r) (rs.foldl (placeColumn w parent) (placeColumn w parent s r)) := by
          refine Writes.foldl fun t ht p hp => ?_
          have htree : t.tree = s.tree := by rw [← hw.tree, ← ht]
          refine (writes_placeColumn w parent t p).mono fun d hd => ⟨p, hp, ?_⟩
          rwa [htree] at hd
        have hout : ¬ ∃ p ∈ rs, r.1 = p.1 ∨ s.tree.Below p.1 r.1 := by
          rintro ⟨p, hp, h | h⟩
          · exact hq (h ▸ List.mem_map_of_mem hp)
          · exact hapart p.1 (List.mem_cons_of_mem _ (List.mem_map_of_mem hp)) r.1
              List.mem_cons_self h
        rw [columnBox, hrest.geo r.1 hout]
        exact columnBox_placeColumn (hapart r.1 List.mem_cons_self r.1 List.mem_cons_self)
      · rw [← hplaced]
        refine ih hnodup' ?_ hmem
        intro c hc d hd
        rw [hw.tree]
        exact hapart c (List.mem_cons_of_mem _ hc) d (List.mem_cons_of_mem _ hd)

theorem rowPlaces_length (s : State) (w : WsId) (parent : Box) :
    (rowPlaces s w parent).length = (s.tree.ws w).tiling.length := by
  rw [rowPlaces, placeColumns_length, List.length_map, arrangeRow_length, rowOf, List.length_map]

/-- **Every column gets the place that the row arithmetic computes for it.** -/
theorem columnBox_workspaceArrangeColumns {s : State} {w : WsId} {parent : Box}
    (hshape : RowShape s.tree w) {c : ConId} {place : Int × Int}
    (hc : (c, place) ∈ (s.tree.ws w).tiling.zip (rowPlaces s w parent)) :
    columnBox (workspaceArrangeColumns s w parent) c = placedBox s w parent place := by
  have hfst : ((s.tree.ws w).tiling.zip (rowPlaces s w parent)).map Prod.fst =
      (s.tree.ws w).tiling :=
    List.map_fst_zip (rowPlaces_length s w parent).ge
  rw [workspaceArrangeColumns_eq]
  refine columnBox_foldl_placeColumn _ ?_ ?_ hc
  · rw [hfst]; exact hshape.nodup
  · rw [hfst]; exact hshape.apart

/-! ## The right edge -/

/-- The right edge of a container. -/
def rightEdge (s : State) (c : ConId) : ℚ := (s.geo c).x + (s.geo c).width

/-- The minimum widths of a row and the gaps between the columns fit into the parent. -/
def MinimumsFit (s : State) (w : WsId) (parent : Box) : Prop :=
  ((s.tree.ws w).tiling.map (containerClampTiledWidthMin s)).sum ≤
    parent.width - (s.wsGeo w).gapsInner * ((s.tree.ws w).tiling.length - 1)

instance (s : State) (w : WsId) (parent : Box) : Decidable (MinimumsFit s w parent) :=
  inferInstanceAs (Decidable (_ ≤ _))

/-- The windows in a row have no negative borders. -/
def BordersNonneg (s : State) (w : WsId) : Prop :=
  ∀ c ∈ (s.tree.ws w).tiling, (s.tree.con c).view.isSome → 0 ≤ (s.deco c).borderThickness

instance (s : State) (w : WsId) : Decidable (BordersNonneg s w) :=
  inferInstanceAs (Decidable (∀ c ∈ _, _))

/-- The minimum width a container asks for is positive: at the least it is `DBL_MIN`. -/
theorem minWidth_pos {s : State} {c : ConId}
    (h : (s.tree.con c).view.isSome → 0 ≤ (s.deco c).borderThickness) :
    0 < (containerGetSizeConstraints s c).minWidth := by
  unfold containerGetSizeConstraints sizeConstraintsWithin
  split
  next v hv =>
    have hb : (0 : ℚ) ≤ (s.deco c).borderThickness := by exact_mod_cast h (by rw [hv]; rfl)
    have hk : 0 < (viewGetConstraints v).minWidth := by
      unfold viewGetConstraints
      dsimp only
      split
      next hpos => exact_mod_cast hpos
      next => exact dblMin_pos
    unfold viewContainerConstraints
    dsimp only
    split
    next => split <;> linarith
    next => exact dblMin_pos
  next => exact dblMin_pos.trans_le (le_foldl_meet_minWidth _ _ _)

/-- The minimum width of a container is not negative. -/
theorem containerClampTiledWidthMin_nonneg {s : State} {c : ConId}
    (h : (s.tree.con c).view.isSome → 0 ≤ (s.deco c).borderThickness) :
    0 ≤ containerClampTiledWidthMin s c := by
  have hlo : 0 ≤ if (containerGetSizeConstraints s c).minWidth ≠ dblMin then
      (containerGetSizeConstraints s c).minWidth else 0 := by
    split
    · exact (minWidth_pos h).le
    · exact le_rfl
  unfold containerClampTiledWidthMin
  dsimp only
  split
  · split
    · exact hlo.trans (le_max_left _ _)
    · exact hlo
  · exact hlo

theorem BordersNonneg.floorsNonneg {s : State} {w : WsId} (h : BordersNonneg s w) :
    FloorsNonneg (rowOf s w) := by
  intro c hc
  obtain ⟨d, hd, rfl⟩ := List.mem_map.mp hc
  exact containerClampTiledWidthMin_nonneg (h d hd)

/-- A row whose minimums fit has the width that is left between the gaps. -/
theorem rowRoom_eq {s : State} {w : WsId} {parent : Box} (hmin : BordersNonneg s w)
    (hfit : MinimumsFit s w parent) :
    rowRoom s w parent =
      parent.width - (s.wsGeo w).gapsInner * ((s.tree.ws w).tiling.length - 1) := by
  have hsum : 0 ≤ ((s.tree.ws w).tiling.map (containerClampTiledWidthMin s)).sum := by
    refine List.sum_nonneg ?_
    intro x hx
    obtain ⟨c, hc, rfl⟩ := List.mem_map.mp hx
    exact containerClampTiledWidthMin_nonneg (hmin c hc)
  exact max_eq_right (hsum.trans hfit)

/-- The right edge of the last column is the rounded sum of the widths and the gaps. -/
theorem rightEdge_last {s : State} {w : WsId} (parent : Box) (hshape : RowShape s.tree w)
    {last : ConId} (hlast : (s.tree.ws w).tiling.getLast? = some last) :
    rightEdge (workspaceArrangeColumns s w parent) last =
      (s.wsGeo w).x + lround (rowSum (arrangeRow (rowRoom s w parent) (rowOf s w)) +
        (s.wsGeo w).gapsInner * ((s.tree.ws w).tiling.length - 1)) := by
  have hlen : ((arrangeRow (rowRoom s w parent) (rowOf s w)).map RowColumn.w).length =
      (s.tree.ws w).tiling.length := by
    rw [List.length_map, arrangeRow_length, rowOf, List.length_map]
  have hne : (arrangeRow (rowRoom s w parent) (rowOf s w)).map RowColumn.w ≠ [] := by
    intro h
    rw [h, List.length_nil, eq_comm, List.length_eq_zero_iff] at hlen
    rw [hlen] at hlast
    exact absurd hlast (by simp)
  obtain ⟨p, hp, hedge⟩ := placeColumns_getLast (s.wsGeo w).gapsInner 0 0 _ hne
  have hmem : (last, p) ∈ (s.tree.ws w).tiling.zip (rowPlaces s w parent) := by
    refine List.mem_of_getElem? (i := (s.tree.ws w).tiling.length - 1) ?_
    rw [List.getElem?_zip_eq_some, ← List.getLast?_eq_getElem?, hlast,
      ← rowPlaces_length s w parent, ← List.getLast?_eq_getElem?]
    exact ⟨rfl, hp⟩
  have hbox := columnBox_workspaceArrangeColumns hshape hmem
  have hx := congrArg ColumnBox.x hbox
  have hwidth := congrArg ColumnBox.width hbox
  rw [hlen, zero_add] at hedge
  have hedge' : ((p.1 : ℚ) + p.2) = lround (rowSum (arrangeRow (rowRoom s w parent) (rowOf s w)) +
      (s.wsGeo w).gapsInner * ((s.tree.ws w).tiling.length - 1)) := by
    rw [rowSum, ← hedge]
    push_cast
    rfl
  simp only [columnBox, placedBox] at hx hwidth
  rw [rightEdge, hx, hwidth, add_assoc, hedge']

/-- **The row ends inside its parent exactly when it fits**: either the clamped widths do, or
scaling them down leaves less than half a pixel to the minimum widths. -/
theorem workspaceArrangeColumns_inside_iff {s : State} {w : WsId} {parent : Box}
    (hshape : RowShape s.tree w) (hmin : BordersNonneg s w)
    (hgaps : 0 ≤ (s.wsGeo w).gapsInner) (hfit : MinimumsFit s w parent) {last : ConId}
    (hlast : (s.tree.ws w).tiling.getLast? = some last) :
    rightEdge (workspaceArrangeColumns s w parent) last ≤ (s.wsGeo w).x + parent.width ↔
      RowFits (rowRoom s w parent) (rowOf s w) := by
  have hroom := rowRoom_eq hmin hfit
  have hT : 0 ≤ rowRoom s w parent := le_max_left _ _
  have hlen : 1 ≤ (s.tree.ws w).tiling.length := by
    refine List.length_pos_iff.mpr ?_
    rintro h
    rw [h] at hlast
    exact absurd hlast (by simp)
  have hparent : 0 ≤ parent.width := by
    have hg : (0 : ℚ) ≤ (s.wsGeo w).gapsInner * ((s.tree.ws w).tiling.length - 1) := by
      refine mul_nonneg (by exact_mod_cast hgaps) ?_
      have : (1 : ℚ) ≤ (s.tree.ws w).tiling.length := by exact_mod_cast hlen
      linarith
    rw [hroom] at hT
    have : (0 : ℚ) ≤ parent.width := by linarith
    exact_mod_cast this
  rw [rightEdge_last parent hshape hlast, ← rowSum_arrangeRow_lt_iff hmin.floorsNonneg hT,
    add_le_add_iff_left, Int.cast_le, lround_le_iff hparent, hroom]
  constructor <;> intro h <;> linarith

/-- Two columns `0` and `1`, each with a window; the window of column `0` asks for a minimum width
of 60. -/
def pinnedTree : Tree :=
  { Tree.start with
    con := fun c =>
      if c = 0 then { Links.blank with workspace := some 0, children := [2] }
      else if c = 1 then { Links.blank with workspace := some 0, children := [3] }
      else if c = 2 then
        { Links.blank with
          view := some { View.plain with minWidth := 60 }, parent := some 0, workspace := some 0 }
      else if c = 3 then
        { Links.blank with view := some View.plain, parent := some 1, workspace := some 0 }
      else Links.blank
    ws := fun w =>
      if w = 0 then { Tree.start.ws 0 with tiling := [0, 1] } else WsLinks.blank
    nextCon := 4 }

/-- The two columns on a workspace of width 100, after widths of 60 and 100 were asked for. -/
def pinnedRow : State :=
  { State.start { configDefaults with minColumnWidthFraction := 0 } ⟨0, 0, 100, 100⟩ with
    tree := pinnedTree
    geo := fun c =>
      if c = 1 then { Geometry.blank with width := 100, layout := .vert }
      else { Geometry.blank with width := 60, layout := .vert } }

theorem pinnedRow_shape : RowShape pinnedRow.tree 0 :=
  rowShape_of_leaves (by decide) (by decide)

/-- The row arithmetic does not keep every row inside: the minimum widths 60 and 0 fit into 100,
but the row ends at 123. -/
theorem workspaceArrangeColumns_overruns :
    ¬ ∀ (s : State) (w : WsId) (parent : Box) (last : ConId),
      RowShape s.tree w → BordersNonneg s w → 0 ≤ (s.wsGeo w).gapsInner →
      (∀ c ∈ (s.tree.ws w).tiling, 0 ≤ (s.geo c).width) → MinimumsFit s w parent →
      (s.tree.ws w).tiling.getLast? = some last →
      rightEdge (workspaceArrangeColumns s w parent) last ≤ (s.wsGeo w).x + parent.width := by
  intro h
  have hinside := h pinnedRow 0 ⟨0, 0, 100, 100⟩ 1 pinnedRow_shape (by decide) (by decide)
    (by decide) (by decide +kernel) rfl
  exact absurd hinside (by decide +kernel)

/-- In a parent of width 200 the clamped widths fit. -/
theorem workspaceArrangeColumns_inside_pinned :
    rightEdge (workspaceArrangeColumns pinnedRow 0 ⟨0, 0, 200, 100⟩) 1 ≤
      (pinnedRow.wsGeo 0).x + ((200 : Int) : ℚ) :=
  (workspaceArrangeColumns_inside_iff pinnedRow_shape (by decide)
    (by decide) (by decide +kernel) rfl).mpr (Or.inl (by decide +kernel))

/-! ## Running the pass again -/

/-- The boxes of the columns, in the order of the row. -/
theorem map_columnBox_workspaceArrangeColumns {s : State} {w : WsId} (parent : Box)
    (hshape : RowShape s.tree w) :
    (s.tree.ws w).tiling.map (columnBox (workspaceArrangeColumns s w parent)) =
      (rowPlaces s w parent).map (placedBox s w parent) := by
  have hlen := rowPlaces_length s w parent
  refine List.ext_getElem (by simp [hlen]) ?_
  intro i h1 h2
  rw [List.getElem_map, List.getElem_map]
  refine columnBox_workspaceArrangeColumns hshape (List.mem_of_getElem? (i := i) ?_)
  rw [List.length_map] at h1 h2
  rw [List.getElem?_zip_eq_some]
  exact ⟨List.getElem?_eq_getElem h1, List.getElem?_eq_getElem h2⟩

theorem placedBox_injective (s : State) (w : WsId) (parent : Box) :
    Function.Injective (placedBox s w parent) := by
  rintro ⟨x, width⟩ ⟨x', width'⟩ h
  have hx := congrArg ColumnBox.x h
  have hwidth := congrArg ColumnBox.width h
  simp only [placedBox, add_right_inj, Int.cast_inj] at hx hwidth
  rw [hx, hwidth]

section Again

variable {s : State} {w : WsId} {parent : Box}

theorem tree_workspaceArrangeColumns :
    (workspaceArrangeColumns s w parent).tree = s.tree :=
  (writes_workspaceArrangeColumns s w parent).tree

/-- The limits of the columns are as before: the pass writes geometry only. -/
theorem columnLimits_workspaceArrangeColumns (c : ConId) :
    columnLimits (workspaceArrangeColumns s w parent) c = columnLimits s c := by
  rw [← columnLimits_geo _ s.geo, (writes_workspaceArrangeColumns s w parent).rest]

/-- The second run reads the rendered widths. -/
theorem rowOf_widths (hshape : RowShape s.tree w) :
    (rowOf (workspaceArrangeColumns s w parent) w).map RowColumn.w =
      placeWidths (rowPlaces s w parent) := by
  have h := congrArg (List.map ColumnBox.width) (map_columnBox_workspaceArrangeColumns
    parent hshape)
  rw [rowOf, tree_workspaceArrangeColumns, List.map_map]
  rw [List.map_map, List.map_map] at h
  exact h

end Again

end Swirl
