import Swirl.Tree.Absorb
import Swirl.Tree.ArrangeColumns

set_option autoImplicit false

/-! # Room for a new column

`workspace_fit_new_column` gives a new column the default width if there is room, the free width if
that is above the minimum, and else lets the other columns give up width. Only the first 32 of them
are asked, so with more columns the row can come out too wide although all minimums fit.
-/

namespace Swirl

open Lib

/-- The widths of some columns and the gaps between them. -/
def rowExtent (s : State) (w : WsId) (cols : List ConId) : ℚ :=
  (cols.map fun c => (s.geo c).width).sum + (s.wsGeo w).gapsInner * ((cols.length - 1 : Nat) : ℚ)

/-- The other columns are as wide as the scan finds occupied. -/
theorem scanOccupied_eq (s : State) (w : WsId) (exclude : Int) :
    scanOccupied s w exclude = rowExtent s w (otherColumns (s.tree.ws w).tiling exclude) := by
  unfold scanOccupied rowExtent otherColumns
  dsimp only
  rw [List.length_map]
  generalize (if 0 ≤ exclude then _ else _ : List ConId) = cols
  split
  next h => rw [Nat.cast_sub h.le, Nat.cast_one]
  next h =>
    have hzero : cols.length - 1 = 0 := by omega
    rw [hzero, Nat.cast_zero, mul_zero, add_zero]

/-- The default width of a new column and its minimum: a fraction of the workspace, or what its
windows ask for. -/
def newcomerDefault (s : State) (w : WsId) (col : ConId) : ℚ :=
  max (workspaceWidthFraction s w s.config.defaultColumnWidthFraction)
    (containerGetSizeConstraints s col).minWidth

def newcomerMin (s : State) (w : WsId) (col : ConId) : ℚ :=
  max (workspaceWidthFraction s w s.config.minColumnWidthFraction)
    (containerGetSizeConstraints s col).minWidth

/-- What a column can give up. -/
def columnSlack (s : State) (c : ConId) : ℚ := (s.geo c).width - containerClampTiledWidthMin s c

/-- The columns that are asked for width. -/
def asked (s : State) (w : WsId) (col : ConId) : List ConId :=
  ((s.tree.ws w).tiling.erase col).take maxCandidates

/-- The widths of some columns are ones that their clamps allow. -/
def WidthsBounded (s : State) (w : WsId) (cols : List ConId) : Prop :=
  ∀ c ∈ cols, containerClampTiledWidth s c (s.geo c).width (s.wsGeo w).width = (s.geo c).width

instance (s : State) (w : WsId) (cols : List ConId) : Decidable (WidthsBounded s w cols) :=
  inferInstanceAs (Decidable (∀ c ∈ _, _))

section Fit

variable {s : State} {w : WsId} {col : ConId}

/-- The columns that are asked give up what is missing, as far as they can. -/
theorem widths_absorbed {order rest cols : List ConId} {t : State} {need : ℚ}
    (hb : ∀ c ∈ order, (widthStore w t c).Bounded) (hnodup : order.Nodup)
    (hrest : ∀ c ∈ rest, c ∉ order) (hcols : cols.Perm (order ++ rest)) (hneed : 0 ≤ need)
    {u : State} {left : ℚ}
    (hu : drainEach (widthStore w) (setColumnWidth w) order t need = (u, left)) :
    left = max 0 (need - (order.map fun c => (widthStore w t c).slack).sum) ∧
      (cols.map fun c => (u.geo c).width).sum + need =
        (cols.map fun c => (t.geo c).width).sum + left ∧
      ∀ c, (∀ d ∈ cols, (widthStore w t d).Bounded) → c ∈ cols →
        (columnLimits t c).lo ≤ (u.geo c).width := by
  have hw := writesAmount_width w
  have hstate : (drainEach (widthStore w) (setColumnWidth w) order t need).1 = u := by rw [hu]
  have hleft : (drainEach (widthStore w) (setColumnWidth w) order t need).2 = left := by rw [hu]
  obtain ⟨hneed', -⟩ := drainEach_eq hw hnodup t need
  have hsum := sum_drainEach hw hnodup hrest hcols t need
  rw [hstate, hleft] at hsum
  refine ⟨?_, hsum, fun c hall hc => ?_⟩
  · rw [← hleft, hneed', drain_need _ hneed, List.map_map]
    · rfl
    · intro b hmem
      obtain ⟨c, hc, rfl⟩ := List.mem_map.mp hmem
      exact hb c hc
  · have hbounded := drainEach_bounded hw order need (hall c hc)
    rw [hstate] at hbounded
    have hlimits := (drainEach_bounds hw order t need c).1
    rw [hstate] at hlimits
    exact hlimits.symm.trans_le hbounded.floor_le

theorem columnSetWidthPx_self (s : State) (c : ConId) (x : ℚ) :
    ((columnSetWidthPx s c x).geo c).width = x := by
  unfold columnSetWidthPx
  dsimp only
  split
  · split <;> simp [State.modGeo]
  · simp [State.modGeo]

theorem columnSetWidthPx_other (s : State) {c d : ConId} (hd : d ≠ c) (x : ℚ) :
    (columnSetWidthPx s c x).geo d = s.geo d := by
  unfold columnSetWidthPx
  dsimp only
  split
  · split <;> simp [State.modGeo, hd]
  · simp [State.modGeo, hd]

/-- What the columns that are asked can give up together. -/
def askedSlack (s : State) (w : WsId) (col : ConId) : ℚ :=
  ((asked s w col).map (columnSlack s)).sum

/-- What is missing for the default width. -/
def missingWidth (s : State) (w : WsId) (col : ConId) : ℚ :=
  rowExtent s w ((s.tree.ws w).tiling.erase col) + (s.wsGeo w).gapsInner + newcomerDefault s w col -
    (s.wsGeo w).width

/-- What is free beside the other columns. -/
def freeWidth (s : State) (w : WsId) (col : ConId) : ℚ :=
  max 0 ((s.wsGeo w).width - rowExtent s w ((s.tree.ws w).tiling.erase col) -
    (s.wsGeo w).gapsInner)

theorem workspaceFitNewColumn_eq (s : State) (w : WsId) (col : ConId) (idx : Int) :
    workspaceFitNewColumn s w col idx =
      if newcomerDefault s w col ≤ freeWidth s w col then
        columnSetWidthPx s col (newcomerDefault s w col)
      else if newcomerMin s w col ≤ freeWidth s w col then
        columnSetWidthPx s col (freeWidth s w col)
      else
        let r := makeRoom s w idx (listFind (s.tree.ws w).tiling col)
          (rowExtent s w ((s.tree.ws w).tiling.erase col)) (newcomerDefault s w col)
          (newcomerMin s w col)
        columnSetWidthPx r.1 col r.2 := by
  have hocc := scanOccupied_eq s w (listFind (s.tree.ws w).tiling col)
  rw [otherColumns_listFind] at hocc
  unfold workspaceFitNewColumn
  dsimp only
  rw [hocc]
  split
  next h => exact (if_pos h).symm
  next h =>
    refine Eq.trans ?_ (if_neg h).symm
    split
    next h' => exact (if_pos h').symm
    next h' => exact (if_neg h').symm

/-- The others make room: they give up what is missing, as far as those that are asked can, and
what they lack is taken off the default width of the new column. -/
theorem makeRoom_spec (idx : Int) (hnodup : (s.tree.ws w).tiling.Nodup)
    (hb : WidthsBounded s w ((s.tree.ws w).tiling.erase col))
    (hmissing : 0 < missingWidth s w col) :
    ∃ u left, makeRoom s w idx (listFind (s.tree.ws w).tiling col)
        (rowExtent s w ((s.tree.ws w).tiling.erase col)) (newcomerDefault s w col)
        (newcomerMin s w col) =
          (u, if 0 < left then max (newcomerMin s w col) (newcomerDefault s w col - left)
            else newcomerDefault s w col) ∧
      u.wsGeo = s.wsGeo ∧
      (∀ c ∈ (s.tree.ws w).tiling.erase col,
        containerClampTiledWidthMin s c ≤ (u.geo c).width) ∧
      left = max 0 (missingWidth s w col - askedSlack s w col) ∧
      (((s.tree.ws w).tiling.erase col).map fun c => (u.geo c).width).sum +
          missingWidth s w col =
        (((s.tree.ws w).tiling.erase col).map fun c => (s.geo c).width).sum + left := by
  set others := (s.tree.ws w).tiling.erase col with hothers
  obtain ⟨order, hperm, habsorb⟩ :=
    exists_absorbing s w (fitFocusIdx s w idx) (listFind (s.tree.ws w).tiling col)
  rw [otherColumns_listFind, ← hothers] at hperm
  have hbounded : ∀ d ∈ others, (widthStore w s d).Bounded := fun d hd => hb d hd
  have horder : ∀ d ∈ order, d ∈ others := fun d hd =>
    List.mem_of_mem_take (hperm.mem_iff.mp hd)
  have hnodup' : others.Nodup := hnodup.erase col
  have hsplit : others.Perm (order ++ others.drop maxCandidates) := by
    conv_lhs => rw [← List.take_append_drop maxCandidates others]
    exact hperm.symm.append_right _
  have hapart := List.nodup_append.mp (hsplit.nodup_iff.mp hnodup')
  obtain ⟨u, left, hu⟩ : ∃ u left, drainEach (widthStore w) (setColumnWidth w) order s
      (missingWidth s w col) = (u, left) := ⟨_, _, rfl⟩
  obtain ⟨hleft, hsum, hfloors⟩ := widths_absorbed (fun d hd => hbounded d (horder d hd)) hapart.1
    (fun c hc hmem => hapart.2.2 c hmem c hc rfl) hsplit hmissing.le hu
  have hslack : (order.map fun c => (widthStore w s c).slack).sum = askedSlack s w col :=
    (hperm.map _).sum_eq
  set candidates := scanVisible (s.tree.ws w).tiling.length
    (listFind (s.tree.ws w).tiling col) with hcandidates
  have habs := (habsorb s rfl (missingWidth s w col)).trans hu
  have hgeo : u.wsGeo = s.wsGeo := by
    have honly := onlyGeometry_absorbFarthest w (fitFocusIdx s w idx) candidates.length candidates s
      (missingWidth s w col)
    rw [habs] at honly
    exact honly.wsGeo
  refine ⟨u, left, ?_, hgeo, fun c hc => hfloors c hbounded hc, hslack ▸ hleft, hsum⟩
  have hroom : makeRoom s w idx (listFind (s.tree.ws w).tiling col) (rowExtent s w others)
      (newcomerDefault s w col) (newcomerMin s w col) =
      (let r := if 0 < missingWidth s w col then
          absorbFarthest w (fitFocusIdx s w idx) candidates.length candidates s
            (missingWidth s w col)
        else (s, missingWidth s w col)
      (r.1, if 0 < r.2 then max (newcomerMin s w col) (newcomerDefault s w col - r.2)
        else newcomerDefault s w col)) := rfl
  rw [hroom, if_pos hmissing, habs]

theorem newcomerDefault_pos
    (hborder : (s.tree.con col).view.isSome → 0 ≤ (s.deco col).borderThickness) :
    0 < newcomerDefault s w col := (minWidth_pos hborder).trans_le (le_max_right _ _)

theorem newcomerMin_pos
    (hborder : (s.tree.con col).view.isSome → 0 ≤ (s.deco col).borderThickness) :
    0 < newcomerMin s w col := (minWidth_pos hborder).trans_le (le_max_right _ _)

/-- What is free, when something is. -/
theorem freeWidth_of_pos (h : 0 < freeWidth s w col) :
    freeWidth s w col = (s.wsGeo w).width -
      rowExtent s w ((s.tree.ws w).tiling.erase col) - (s.wsGeo w).gapsInner := by
  unfold freeWidth at h ⊢
  exact max_eq_right_of_lt (by_contra fun hneg => by
    rw [max_eq_left (not_lt.mp hneg)] at h
    exact lt_irrefl 0 h)

/-- The default width is missing when more than what is free is asked for. -/
theorem missingWidth_pos (h : freeWidth s w col < newcomerDefault s w col) :
    0 < missingWidth s w col := by
  have hfree := le_max_right 0 ((s.wsGeo w).width -
    rowExtent s w ((s.tree.ws w).tiling.erase col) - ((s.wsGeo w).gapsInner : ℚ))
  unfold missingWidth
  unfold freeWidth at h
  linarith

/-- The columns that are asked, when that is all of them. -/
theorem askedSlack_of_few (h : ((s.tree.ws w).tiling.erase col).length ≤ maxCandidates) :
    askedSlack s w col = (((s.tree.ws w).tiling.erase col).map fun c => (s.geo c).width).sum -
      (((s.tree.ws w).tiling.erase col).map (containerClampTiledWidthMin s)).sum := by
  unfold askedSlack asked
  rw [List.take_of_length_le h]
  generalize (s.tree.ws w).tiling.erase col = cols
  induction cols with
  | nil => simp
  | cons c cols ih =>
      simp only [List.map_cons, List.sum_cons, ih, columnSlack]
      ring

theorem askedSlack_nonneg (hb : WidthsBounded s w ((s.tree.ws w).tiling.erase col)) :
    0 ≤ askedSlack s w col := by
  refine List.sum_nonneg fun x hx => ?_
  obtain ⟨c, hc, rfl⟩ := List.mem_map.mp hx
  exact Store.Bounded.slack_nonneg (b := widthStore w s c) (hb c (List.mem_of_mem_take hc))

/-- The row with the new column in front: the others, a gap for each, and the new one. -/
theorem rowExtent_columnSetWidthPx {u : State} (hgeo : u.wsGeo = s.wsGeo) {cols : List ConId}
    (hcol : col ∉ cols) (target : ℚ) :
    rowExtent (columnSetWidthPx u col target) w (col :: cols) =
      target + (cols.map fun c => (u.geo c).width).sum + (s.wsGeo w).gapsInner * cols.length := by
  have hgeo' : (columnSetWidthPx u col target).wsGeo = s.wsGeo :=
    (onlyGeometry_columnSetWidthPx u col target).wsGeo.trans hgeo
  have hothers : cols.map (fun c => ((columnSetWidthPx u col target).geo c).width) =
      cols.map fun c => (u.geo c).width := by
    refine List.map_congr_left fun c hc => ?_
    rw [columnSetWidthPx_other u (ne_of_mem_of_not_mem hc hcol)]
  unfold rowExtent
  rw [hgeo', List.map_cons, List.sum_cons, columnSetWidthPx_self, hothers, List.length_cons,
    Nat.add_sub_cancel]

/-- One more column comes with one more gap. -/
theorem rowExtent_add_gap {cols : List ConId} (hne : cols ≠ []) :
    rowExtent s w cols + (s.wsGeo w).gapsInner =
      (cols.map fun c => (s.geo c).width).sum + (s.wsGeo w).gapsInner * cols.length := by
  have hlen : 1 ≤ cols.length := List.length_pos_iff.mpr hne
  unfold rowExtent
  rw [Nat.cast_sub hlen, Nat.cast_one]
  ring

/-- The minimum widths fit, with the new column and a gap for it. -/
def NewcomerFits (s : State) (w : WsId) (col : ConId) : Prop :=
  (((s.tree.ws w).tiling.erase col).map (containerClampTiledWidthMin s)).sum +
    (s.wsGeo w).gapsInner * ((s.tree.ws w).tiling.erase col).length + newcomerMin s w col ≤
      (s.wsGeo w).width

instance (s : State) (w : WsId) (col : ConId) : Decidable (NewcomerFits s w col) :=
  inferInstanceAs (Decidable (_ ≤ _))

/-- At most 32 other columns are there to be asked, or the first 32 of them can give up what the
new column needs. -/
def RoomFor (s : State) (w : WsId) (col : ConId) : Prop :=
  ((s.tree.ws w).tiling.erase col).length ≤ maxCandidates ∨
    rowExtent s w ((s.tree.ws w).tiling.erase col) + (s.wsGeo w).gapsInner +
      min (newcomerMin s w col) (newcomerDefault s w col) ≤
        (s.wsGeo w).width + askedSlack s w col

instance (s : State) (w : WsId) (col : ConId) : Decidable (RoomFor s w col) :=
  inferInstanceAs (Decidable (_ ∨ _))

/-- Few columns can always make room. -/
theorem NewcomerFits.room (hfits : NewcomerFits s w col)
    (hlen : ((s.tree.ws w).tiling.erase col).length ≤ maxCandidates)
    (hne : (s.tree.ws w).tiling.erase col ≠ []) :
    rowExtent s w ((s.tree.ws w).tiling.erase col) + (s.wsGeo w).gapsInner + newcomerMin s w col ≤
      (s.wsGeo w).width + askedSlack s w col := by
  have hsum := askedSlack_of_few hlen
  have hgap := rowExtent_add_gap (s := s) (w := w) hne
  unfold NewcomerFits at hfits
  linarith

/-- A new column that gets no more than what is free fits. -/
theorem fitted_free (hgaps : 0 ≤ (s.wsGeo w).gapsInner)
    (hcol : col ∉ (s.tree.ws w).tiling.erase col) (hslack : 0 ≤ askedSlack s w col) {target : ℚ}
    (hpos : 0 < freeWidth s w col) (hle : target ≤ freeWidth s w col)
    (hmin : min (newcomerMin s w col) (newcomerDefault s w col) ≤ target) :
    rowExtent (columnSetWidthPx s col target) w (col :: (s.tree.ws w).tiling.erase col) ≤
      (s.wsGeo w).width ↔ RoomFor s w col := by
  have hfree := freeWidth_of_pos hpos
  have hgapsQ : (0 : ℚ) ≤ (s.wsGeo w).gapsInner := by exact_mod_cast hgaps
  rw [rowExtent_columnSetWidthPx rfl hcol]
  unfold RoomFor
  by_cases hne : (s.tree.ws w).tiling.erase col = []
  · rw [hne] at hfree ⊢
    refine iff_of_true ?_ (Or.inl (Nat.zero_le _))
    have hzero : rowExtent s w [] = 0 := by simp [rowExtent]
    simp only [List.map_nil, List.sum_nil, List.length_nil, Nat.cast_zero, mul_zero, add_zero]
    linarith
  · have hgap := rowExtent_add_gap (s := s) (w := w) hne
    exact iff_of_true (by linarith) (Or.inr (by linarith))

/-- A new column for which the others had to make room. -/
theorem fitted_room (hgaps : 0 ≤ (s.wsGeo w).gapsInner)
    (hcol : col ∉ (s.tree.ws w).tiling.erase col)
    (hfits : NewcomerFits s w col) (hmissing : 0 < missingWidth s w col) {u : State} {left : ℚ}
    (hgeo : u.wsGeo = s.wsGeo) (hleft : left = max 0 (missingWidth s w col - askedSlack s w col))
    (hsum : (((s.tree.ws w).tiling.erase col).map fun c => (u.geo c).width).sum +
        missingWidth s w col =
      (((s.tree.ws w).tiling.erase col).map fun c => (s.geo c).width).sum + left) :
    rowExtent (columnSetWidthPx u col (if 0 < left then
        max (newcomerMin s w col) (newcomerDefault s w col - left)
        else newcomerDefault s w col)) w (col :: (s.tree.ws w).tiling.erase col) ≤
      (s.wsGeo w).width ↔ RoomFor s w col := by
  have hmissingEq : missingWidth s w col = rowExtent s w ((s.tree.ws w).tiling.erase col) +
      (s.wsGeo w).gapsInner + newcomerDefault s w col - (s.wsGeo w).width := rfl
  have hgapsQ : (0 : ℚ) ≤ (s.wsGeo w).gapsInner := by exact_mod_cast hgaps
  rw [rowExtent_columnSetWidthPx hgeo hcol]
  by_cases hne : (s.tree.ws w).tiling.erase col = []
  · -- nobody is there to be asked
    have hslack : askedSlack s w col = 0 := by
      unfold askedSlack asked
      rw [hne]
      rfl
    have hzero : rowExtent s w [] = 0 := by simp [rowExtent]
    refine iff_of_true ?_ (Or.inl (by rw [hne]; exact Nat.zero_le _))
    rw [hslack, sub_zero, max_eq_right hmissing.le] at hleft
    unfold NewcomerFits at hfits
    rw [hne] at hfits hmissingEq ⊢
    simp only [List.map_nil, List.sum_nil, List.length_nil, Nat.cast_zero, mul_zero, add_zero,
      zero_add] at hfits ⊢
    rw [hleft, if_pos hmissing]
    exact max_le hfits (by linarith)
  · have hgap := rowExtent_add_gap (s := s) (w := w) hne
    by_cases hpos : 0 < left
    · -- those that were asked have given all they had
      have hleftEq : left = missingWidth s w col - askedSlack s w col := by
        refine hleft.trans (max_eq_right (le_of_not_gt fun hneg => ?_))
        rw [max_eq_left hneg.le] at hleft
        exact hpos.ne' hleft
      rw [if_pos hpos]
      constructor
      · intro h
        have hm := le_max_left (newcomerMin s w col) (newcomerDefault s w col - left)
        have hle := min_le_left (newcomerMin s w col) (newcomerDefault s w col)
        exact Or.inr (by linarith)
      · intro h
        have hroom : rowExtent s w ((s.tree.ws w).tiling.erase col) + (s.wsGeo w).gapsInner +
            newcomerMin s w col ≤ (s.wsGeo w).width + askedSlack s w col := by
          rcases h with hlen | hroom
          · exact hfits.room hlen hne
          · rcases min_choice (newcomerMin s w col) (newcomerDefault s w col) with hm | hm
            · rwa [hm] at hroom
            · rw [hm] at hroom
              linarith
        rcases max_choice (newcomerMin s w col) (newcomerDefault s w col - left) with hm | hm
        · rw [hm]
          linarith
        · rw [hm]
          linarith
    · -- the default width is there
      have hle := min_le_right (newcomerMin s w col) (newcomerDefault s w col)
      have hleftLe : missingWidth s w col - askedSlack s w col ≤ 0 :=
        (le_max_right _ _).trans (hleft ▸ not_lt.mp hpos)
      have hleftNonneg : 0 ≤ left := hleft ▸ le_max_left _ _
      rw [if_neg hpos]
      exact iff_of_true (by linarith) (Or.inr (by linarith))

/-- **When the minimums fit, the row fits with the new column exactly if there is room for it among
the columns that are asked.** The others keep their minimum widths. -/
theorem workspaceFitNewColumn_fits_iff (idx : Int) (hnodup : (s.tree.ws w).tiling.Nodup)
    (hb : WidthsBounded s w ((s.tree.ws w).tiling.erase col)) (hgaps : 0 ≤ (s.wsGeo w).gapsInner)
    (hborder : (s.tree.con col).view.isSome → 0 ≤ (s.deco col).borderThickness)
    (hfits : NewcomerFits s w col) :
    (∀ c ∈ (s.tree.ws w).tiling.erase col, containerClampTiledWidthMin s c ≤
      ((workspaceFitNewColumn s w col idx).geo c).width) ∧
    (rowExtent (workspaceFitNewColumn s w col idx) w (col :: (s.tree.ws w).tiling.erase col) ≤
        (s.wsGeo w).width ↔ RoomFor s w col) := by
  have hcol : col ∉ (s.tree.ws w).tiling.erase col := hnodup.not_mem_erase
  have hkeep : ∀ (u : State) (target : ℚ),
      (∀ c ∈ (s.tree.ws w).tiling.erase col, containerClampTiledWidthMin s c ≤ (u.geo c).width) →
      ∀ c ∈ (s.tree.ws w).tiling.erase col, containerClampTiledWidthMin s c ≤
        ((columnSetWidthPx u col target).geo c).width := by
    intro u target hu c hc
    rw [columnSetWidthPx_other u (ne_of_mem_of_not_mem hc hcol)]
    exact hu c hc
  have hfloor : ∀ c ∈ (s.tree.ws w).tiling.erase col,
      containerClampTiledWidthMin s c ≤ (s.geo c).width := fun c hc =>
    Store.Bounded.floor_le (b := widthStore w s c) (hb c hc)
  have hslack := askedSlack_nonneg hb
  rw [workspaceFitNewColumn_eq]
  split
  next hfree =>
    exact ⟨hkeep s _ hfloor, fitted_free hgaps hcol hslack
      ((newcomerDefault_pos hborder).trans_le hfree) hfree (min_le_right _ _)⟩
  next hnotfree =>
    split
    next hfree =>
      exact ⟨hkeep s _ hfloor, fitted_free hgaps hcol hslack
        ((newcomerMin_pos hborder).trans_le hfree) le_rfl ((min_le_left _ _).trans hfree)⟩
    next hnotmin =>
      have hmissing := missingWidth_pos (not_le.mp hnotfree)
      obtain ⟨u, left, hroom, hgeo, hfloors, hleft, hsum⟩ := makeRoom_spec idx hnodup hb hmissing
      dsimp only
      rw [hroom]
      exact ⟨hkeep u _ hfloors, fitted_room hgaps hcol hfits hmissing hgeo hleft hsum⟩

end Fit

/-! ## More columns than are asked -/

/-- A row of 33 windows on a screen 2000 pixels wide where a fortieth is the minimum: all have
their minimum width but the last one, which has the rest. -/
def crowdedRow : State :=
  { State.start { configDefaults with minColumnWidthFraction := 1 / 40 } ⟨0, 0, 2000, 800⟩ with
    tree := Tree.outlined [⟨(List.range 33).map fun c => (c, []), []⟩]
    geo := fun c => { Geometry.blank with width := if c = 32 then 400 else 50 } }

/-- The last window of the row is not asked, and the new column does not fit. -/
theorem workspaceFitNewColumn_overruns :
    ¬ ∀ (s : State) (w : WsId) (col : ConId) (idx : Int), (s.tree.ws w).tiling.Nodup →
      rowExtent s w (s.tree.ws w).tiling ≤ (s.wsGeo w).width →
      WidthsBounded s w (s.tree.ws w).tiling → 0 ≤ (s.wsGeo w).gapsInner →
      NewcomerFits s w col →
      rowExtent (workspaceFitNewColumn s w col idx) w (col :: (s.tree.ws w).tiling.erase col) ≤
        (s.wsGeo w).width := by
  intro h
  have hfits := h crowdedRow 0 33 33 (by decide +kernel) (by decide +kernel) (by decide +kernel)
    (by decide +kernel) (by decide +kernel)
  exact absurd hfits (by decide +kernel)

/-- The last window can be fitted in again: then all the others are asked. -/
theorem workspaceFitNewColumn_fits_crowded :
    rowExtent (workspaceFitNewColumn crowdedRow 0 32 32) 0
      (32 :: (crowdedRow.tree.ws 0).tiling.erase 32) ≤ (crowdedRow.wsGeo 0).width :=
  (workspaceFitNewColumn_fits_iff 32 (by decide +kernel) (by decide +kernel) (by decide +kernel)
    (by decide +kernel) (by decide +kernel)).2.mpr (Or.inl (by decide +kernel))

end Swirl
