import Swirl.Tree.InsertColumn
import Swirl.Tree.OperationRuns

set_option autoImplicit false

/-! # What the columns get of a removed one

`column_remove` lets `viewport_grow_to_fill` hand the width of a column that is gone to the others.
The column to the left and those to the right grow up to the default width, and the narrowest column
takes the rest; a rest of one pixel or less is left.
-/

namespace Swirl

section Handing

variable {s s' s'' : State} {w v : WsId} {c : ConId} {l : List ConId} {x y : ℚ}

/-- The widths of the columns of a row together. -/
def columnsWidth (s : State) (w : WsId) : ℚ :=
  ((s.tree.ws w).tiling.map fun c => (s.geo c).width).sum

/-- The columns of a row get some width, and none loses any. -/
structure HandsOut (w : WsId) (s s' : State) (given : ℚ) : Prop where
  only : OnlyGeometry s s'
  grows : ∀ c, (s.geo c).width ≤ (s'.geo c).width
  total : columnsWidth s' w = columnsWidth s w + given

namespace HandsOut

theorem refl (w : WsId) (s : State) : HandsOut w s s 0 := ⟨.refl s, fun _ => le_rfl, by simp⟩

theorem trans (h : HandsOut w s s' x) (h' : HandsOut w s' s'' y) : HandsOut w s s'' (x + y) where
  only := h.only.trans h'.only
  grows c := (h.grows c).trans (h'.grows c)
  total := by rw [h'.total, h.total, add_assoc]

theorem tiling (h : HandsOut w s s' x) (v : WsId) :
    (s'.tree.ws v).tiling = (s.tree.ws v).tiling := by rw [h.only.tree]

end HandsOut

theorem width_setColumnWidth (w : WsId) (s : State) (c d : ConId) (x : ℚ) :
    ((setColumnWidth w s c x).geo d).width = if d = c then x else (s.geo d).width := by
  unfold setColumnWidth State.modGeo
  dsimp only
  rw [Function.update_apply]
  split <;> rfl

/-- One column of a row gets more. -/
theorem handsOut_setColumnWidth (hnodup : (s.tree.ws w).tiling.Nodup)
    (hc : c ∈ (s.tree.ws w).tiling) (hx : 0 ≤ x) (v : WsId) :
    HandsOut w s (setColumnWidth v s c ((s.geo c).width + x)) x := by
  refine ⟨.modGeo s c _, fun d => ?_, ?_⟩
  · rw [width_setColumnWidth]
    split
    next hd =>
      rw [hd]
      linarith
    · exact le_rfl
  · -- the others have the width they had
    have hrest : ∀ d ∈ (s.tree.ws w).tiling.erase c,
        ((setColumnWidth v s c ((s.geo c).width + x)).geo d).width = (s.geo d).width := by
      intro d hd
      have hdc : d ≠ c := (hnodup.mem_erase_iff.mp hd).1
      rw [width_setColumnWidth, if_neg hdc]
    have hself : ((setColumnWidth v s c ((s.geo c).width + x)).geo c).width =
        (s.geo c).width + x := by
      rw [width_setColumnWidth, if_pos rfl]
    have hafter := List.sum_map_erase
      (fun d => ((setColumnWidth v s c ((s.geo c).width + x)).geo d).width) hc
    have hbefore := List.sum_map_erase (fun d => (s.geo d).width) hc
    rw [List.map_congr_left hrest, hself] at hafter
    unfold columnsWidth
    calc ((s.tree.ws w).tiling.map _).sum
        = (s.geo c).width + x + (((s.tree.ws w).tiling.erase c).map _).sum := hafter.symm
      _ = (s.geo c).width + (((s.tree.ws w).tiling.erase c).map _).sum + x := by ring
      _ = ((s.tree.ws w).tiling.map _).sum + x := by rw [hbefore]

/-! ## Up to the default width -/

/-- A column is given no more than there is. -/
theorem handsOut_growToDefault (hnodup : (s.tree.ws w).tiling.Nodup)
    (hc : c ∈ (s.tree.ws w).tiling) (defaultW : ℚ) (hx : 0 ≤ x) :
    HandsOut w s (growToDefault w defaultW (s, x) c).1
        (x - (growToDefault w defaultW (s, x) c).2) ∧
      0 ≤ (growToDefault w defaultW (s, x) c).2 := by
  unfold growToDefault
  dsimp only
  split
  next hgive =>
    have hle : min (max 0 (defaultW - (s.geo c).width)) x ≤ x := min_le_right _ _
    refine ⟨?_, by linarith⟩
    have hpos : 0 ≤ min (max 0 (defaultW - (s.geo c).width)) x := by linarith [hgive.2]
    have hout := handsOut_setColumnWidth hnodup hc hpos w
    rw [sub_sub_cancel]
    exact hout
  · rw [sub_self]
    exact ⟨.refl w s, hx⟩

/-- One pixel is not handed out. -/
theorem growToDefault_of_le (hx : x ≤ 1) (w : WsId) (defaultW : ℚ) (s : State) (c : ConId) :
    growToDefault w defaultW (s, x) c = (s, x) := by
  unfold growToDefault
  exact if_neg fun h => absurd hx (not_le.mpr h.1)

theorem handsOut_growAll (hnodup : (s.tree.ws w).tiling.Nodup)
    (hl : l ⊆ (s.tree.ws w).tiling) (defaultW : ℚ) (hx : 0 ≤ x) :
    HandsOut w s (l.foldl (growToDefault w defaultW) (s, x)).1
        (x - (l.foldl (growToDefault w defaultW) (s, x)).2) ∧
      0 ≤ (l.foldl (growToDefault w defaultW) (s, x)).2 := by
  induction l generalizing s x with
  | nil =>
      rw [List.foldl_nil, sub_self]
      exact ⟨.refl w s, hx⟩
  | cons c l ih =>
      obtain ⟨hfirst, hleft⟩ :=
        handsOut_growToDefault hnodup (hl List.mem_cons_self) defaultW hx
      rw [List.foldl_cons]
      set r := growToDefault w defaultW (s, x) c with hr
      have hrow : (r.1.tree.ws w).tiling = (s.tree.ws w).tiling := hfirst.tiling w
      obtain ⟨hrest, hleft'⟩ := ih (s := r.1) (x := r.2) (by rw [hrow]; exact hnodup)
        (by rw [hrow]; exact fun d hd => hl (List.mem_cons_of_mem c hd)) hleft
      refine ⟨?_, hleft'⟩
      have hboth := hfirst.trans hrest
      rw [sub_add_sub_cancel] at hboth
      exact hboth

theorem growAll_of_le (hx : x ≤ 1) (w : WsId) (defaultW : ℚ) (s : State) (l : List ConId) :
    l.foldl (growToDefault w defaultW) (s, x) = (s, x) := by
  induction l with
  | nil => rfl
  | cons c l ih => rw [List.foldl_cons, growToDefault_of_le hx, ih]

/-! ## The rest -/

theorem smallestColumn_mem (h : smallestColumn s l = some c) : c ∈ l := by
  cases l with
  | nil => cases h
  | cons b l =>
      obtain rfl := Option.some.inj h
      have hfold : ∀ (m : List ConId) (b : ConId), m.foldl
          (fun best d => if (s.geo d).width < (s.geo best).width then d else best) b ∈ b :: m := by
        intro m
        induction m with
        | nil => exact fun b => List.mem_singleton_self b
        | cons d m ih =>
            intro b
            rw [List.foldl_cons]
            split
            · exact List.mem_cons_of_mem b (ih d)
            · rcases List.mem_cons.mp (ih b) with hb | hm
              · rw [hb]
                exact List.mem_cons_self
              · exact List.mem_cons_of_mem b (List.mem_cons_of_mem d hm)
      exact hfold l b

/-- The narrowest column takes what is left. -/
def giveRest (w : WsId) (cols : List ConId) (r : State × ℚ) : State :=
  if 1 < r.2 then
    match smallestColumn r.1 cols with
    | some c => setColumnWidth w r.1 c ((r.1.geo c).width + r.2)
    | none => r.1
  else r.1

theorem handsOut_giveRest (hnodup : (s.tree.ws w).tiling.Nodup)
    (hsome : (s.tree.ws w).tiling ≠ []) (hx : 0 ≤ x) :
    ∃ y, HandsOut w s (giveRest w (s.tree.ws w).tiling (s, x)) y ∧ y ≤ x ∧ x - 1 ≤ y := by
  unfold giveRest
  dsimp only
  split
  · cases hcols : (s.tree.ws w).tiling with
    | nil => exact absurd hcols hsome
    | cons b l =>
        rw [← hcols]
        cases hc : smallestColumn s (s.tree.ws w).tiling with
        | none =>
            rw [hcols] at hc
            cases hc
        | some c =>
            have hout := handsOut_setColumnWidth hnodup (smallestColumn_mem hc) hx w
            exact ⟨x, hout, le_rfl, by linarith⟩
  · exact ⟨0, .refl w s, hx, by linarith⟩

/-- `viewport_grow_to_fill`, in a row that is not empty. -/
theorem viewportGrowToFill_eq {freedWidth : ℚ} (hsome : (s.tree.ws w).tiling ≠ [])
    (hfreed : 1 < freedWidth) (colIdx : Int) : (viewportGrowToFill s w colIdx freedWidth).1 =
      giveRest w (s.tree.ws w).tiling
        (((if 1 ≤ colIdx then (s.tree.ws w).tiling[(colIdx - 1).toNat]?.toList else []) ++
            (s.tree.ws w).tiling.drop colIdx.toNat).foldl
          (growToDefault w (workspaceWidthFraction s w s.config.defaultColumnWidthFraction))
          (s, min (freedWidth + (s.wsGeo w).gapsInner) (s.wsGeo w).width)) := by
  unfold viewportGrowToFill
  rw [if_neg (by rw [not_or]; exact ⟨hsome, not_le.mpr hfreed⟩)]
  rfl

/-- The remaining columns of a row get an amount of width, up to a pixel, if the width that is gone
is more than a pixel. -/
structure FillsRow (w : WsId) (s s' : State) (removedWidth amount : ℚ) : Prop where
  row : (s'.tree.ws w).tiling = (s.tree.ws w).tiling
  grows : ∀ c ∈ (s.tree.ws w).tiling, (s.geo c).width ≤ (s'.geo c).width
  total : 1 < removedWidth → |columnsWidth s' w - columnsWidth s w - amount| ≤ 1

theorem fillsRow_viewportGrowToFill (hnodup : (s.tree.ws w).tiling.Nodup)
    (hsome : (s.tree.ws w).tiling ≠ []) (colIdx : Int) (freedWidth : ℚ) :
    FillsRow w s (viewportGrowToFill s w colIdx freedWidth).1 freedWidth
      (max 0 (min (freedWidth + (s.wsGeo w).gapsInner) (s.wsGeo w).width)) := by
  by_cases hfreed : 1 < freedWidth
  · rw [viewportGrowToFill_eq hsome hfreed]
    set room := min (freedWidth + (s.wsGeo w).gapsInner) ((s.wsGeo w).width : ℚ)
    set cols := (if 1 ≤ colIdx then (s.tree.ws w).tiling[(colIdx - 1).toNat]?.toList else []) ++
      (s.tree.ws w).tiling.drop colIdx.toNat
    have hcols : cols ⊆ (s.tree.ws w).tiling := by
      refine List.append_subset.mpr ⟨?_, List.drop_subset _ _⟩
      split
      · intro c hc
        exact List.mem_of_getElem? (Option.mem_toList.mp hc)
      · exact List.nil_subset _
    by_cases hroom : room ≤ 1
    · -- there is nothing to hand out
      rw [growAll_of_le hroom, giveRest, if_neg (not_lt.mpr hroom)]
      refine ⟨rfl, fun _ _ => le_rfl, fun _ => ?_⟩
      rw [sub_self, zero_sub, abs_neg, abs_of_nonneg (le_max_left _ _)]
      exact max_le zero_le_one hroom
    · have hpos : 0 ≤ room := by linarith
      obtain ⟨hgrown, hleft⟩ := handsOut_growAll hnodup hcols
        (workspaceWidthFraction s w s.config.defaultColumnWidthFraction) hpos
      set r := cols.foldl (growToDefault w
        (workspaceWidthFraction s w s.config.defaultColumnWidthFraction)) (s, room)
      have hrow := hgrown.tiling w
      obtain ⟨y, hrest, hle, hge⟩ := handsOut_giveRest (s := r.1) (w := w) (x := r.2)
        (by rw [hrow]; exact hnodup) (by rw [hrow]; exact hsome) hleft
      rw [hrow] at hrest
      have hboth := hgrown.trans hrest
      refine ⟨hboth.tiling w, fun c _ => hboth.grows c, fun _ => ?_⟩
      rw [hboth.total, max_eq_right hpos, abs_le]
      constructor <;> linarith
  · have hsame : viewportGrowToFill s w colIdx freedWidth = (s, -1) :=
      if_pos (Or.inr (not_lt.mp hfreed))
    rw [hsame]
    exact ⟨rfl, fun _ _ => le_rfl, fun h => absurd h hfreed⟩

end Handing

/-- **The columns that remain get the width of a column that is removed**, up to a pixel and up to
the width of the workspace, and none gets narrower. -/
theorem columnRemove_fillsRow {n : Nat} {s : State} {w : WsId} {col : ConId}
    (hs : s.tree.WellFormed) (hcol : col ∈ (s.tree.ws w).tiling)
    (hview : (s.tree.con col).view = none) (hempty : (s.tree.con col).children = [])
    (hothers : (s.tree.ws w).tiling.erase col ≠ []) :
    ((containerReapEmpty (focusOps n) s col).tree.ws w).tiling =
        (s.tree.ws w).tiling.erase col ∧
      FillsRow w (containerReapEmpty (focusOps n) s col) (columnRemove (focusOps n) s col true).1
        (s.geo col).width
        (max 0 (min
          ((s.geo col).width + ((containerReapEmpty (focusOps n) s col).wsGeo w).gapsInner)
          ((containerReapEmpty (focusOps n) s col).wsGeo w).width)) := by
  obtain ⟨htop, hws⟩ := hs.linked.of_tiling hcol
  have hrow := tiling_containerReapEmpty (focusThins_focusOps n) hs hview htop hempty w
  refine ⟨hrow, ?_⟩
  have hidx : 0 ≤ listFind (s.tree.ws w).tiling col := by
    rw [listFind_of_mem hcol]
    exact Int.natCast_nonneg _
  unfold columnRemove
  rw [hws]
  dsimp only
  rw [if_pos ⟨hidx, rfl, by rw [hrow]; exact hothers⟩]
  refine fillsRow_viewportGrowToFill ?_ (by rw [hrow]; exact hothers) _ _
  rw [hrow]
  exact (hs.linked.nodup (.tiling w)).erase col

/-- The window of the first of three columns has gone. -/
def emptiedFirst : State :=
  { containerDetach threeColumns 3 with geo := fun _ => { Geometry.blank with width := 300 } }

/-- The window of the only column has gone. -/
def emptiedOnly : State :=
  { containerDetach oneSplit 1 with geo := fun _ => { Geometry.blank with width := 1000 } }

theorem wellFormed_emptiedFirst : emptiedFirst.tree.WellFormed := by
  show (containerDetach threeColumns 3).tree.WellFormed
  rw [tree_containerDetach]
  exact wellFormed_threeColumns.detach 3

theorem wellFormed_emptiedOnly : emptiedOnly.tree.WellFormed := by
  show (containerDetach oneSplit 1).tree.WellFormed
  rw [tree_containerDetach]
  exact wellFormed_oneSplit.detach 1

theorem columnRemove_fillsRow_first :
    ((containerReapEmpty (focusOps 1) emptiedFirst 0).tree.ws 0).tiling =
        (emptiedFirst.tree.ws 0).tiling.erase 0 ∧
      FillsRow 0 (containerReapEmpty (focusOps 1) emptiedFirst 0)
        (columnRemove (focusOps 1) emptiedFirst 0 true).1 (emptiedFirst.geo 0).width
        (max 0 (min
          ((emptiedFirst.geo 0).width +
            ((containerReapEmpty (focusOps 1) emptiedFirst 0).wsGeo 0).gapsInner)
          ((containerReapEmpty (focusOps 1) emptiedFirst 0).wsGeo 0).width)) :=
  columnRemove_fillsRow wellFormed_emptiedFirst (by decide +kernel) (by decide +kernel)
    (by decide +kernel) (by decide +kernel)

/-- Without another column, nothing takes the width. -/
theorem columnRemove_only :
    ¬ ∀ (n : Nat) (s : State) (w : WsId) (col : ConId), s.tree.WellFormed →
      col ∈ (s.tree.ws w).tiling → (s.tree.con col).view = none →
      (s.tree.con col).children = [] →
      FillsRow w (containerReapEmpty (focusOps n) s col) (columnRemove (focusOps n) s col true).1
        (s.geo col).width (min
          ((s.geo col).width + ((containerReapEmpty (focusOps n) s col).wsGeo w).gapsInner)
          ((containerReapEmpty (focusOps n) s col).wsGeo w).width) := by
  intro h
  have htotal := (h 1 emptiedOnly 0 0 wellFormed_emptiedOnly (by decide +kernel) (by decide +kernel)
    (by decide +kernel)).total (by decide +kernel)
  revert htotal
  decide +kernel

end Swirl
