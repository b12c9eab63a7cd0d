import Swirl.Commands.Resize
import Swirl.Tree.FitColumn
import Swirl.Tree.Links

set_option autoImplicit false

/-! # A column that is resized stays in its row

What `tiled_resize_horizontal_px` does to the widths of a row that fits: the other columns take
over what the column gains or gives, as far as their bounds let them, and what is left is taken
back from the column. So the row still fits, every width is within its bounds, and the column has
changed in the direction that was asked for and no further.
-/

namespace Swirl

open Lib

section Columns

variable {s : State} {w : WsId} {col : ConId}

/-- The other columns absorb: it is a drain of the widths of some of them. -/
theorem exists_absorbed (edgeSib : Int) (dragged : Bool) (focusIdx : Int)
    (hnodup : (s.tree.ws w).tiling.Nodup) (t : State) (ht : t.tree = s.tree) (need : ℚ) :
    ∃ ks : List ConId, ks.Nodup ∧ (∀ k ∈ ks, k ∈ (s.tree.ws w).tiling.erase col) ∧
      (let candidates := scanVisible (s.tree.ws w).tiling.length
          (listFind (s.tree.ws w).tiling col)
        let r := if need ≠ 0 ∧ dragged then absorbEdge w edgeSib candidates t need else (t, need)
        if dragged = false ∧ r.2 ≠ 0 then
          absorbFarthest w focusIdx candidates.length candidates r.1 r.2
        else r) = drainEach (widthStore w) (setColumnWidth w) ks t need := by
  have hothers := columnsAt_scanVisible (s.tree.ws w).tiling (listFind (s.tree.ws w).tiling col)
  rw [otherColumns_listFind] at hothers
  dsimp only
  cases dragged with
  | false =>
      obtain ⟨order, hperm, habsorb⟩ :=
        exists_absorbing s w focusIdx (listFind (s.tree.ws w).tiling col)
      rw [otherColumns_listFind] at hperm
      refine ⟨order, hperm.nodup_iff.mpr ((hnodup.erase col).sublist (List.take_sublist _ _)),
        fun k hk => List.mem_of_mem_take (hperm.mem_iff.mp hk), ?_⟩
      have hnotDragged : ¬ (need ≠ 0 ∧ false = true) := fun h => Bool.false_ne_true h.2
      rw [if_neg hnotDragged]
      split
      next => exact habsorb t ht need
      next hzero =>
        have hneed : need = 0 := by simpa using hzero
        rw [hneed]
        cases order with
        | nil => rfl
        | cons k order => rw [drainEach, if_pos rfl]
  | true =>
      have hdragged : ∀ r : State × ℚ, ¬ (true = false ∧ r.2 ≠ 0) := fun _ h =>
        Bool.false_ne_true h.1.symm
      rw [if_neg (hdragged _)]
      by_cases hneed : need = 0
      · rw [if_neg (by simp [hneed])]
        exact ⟨[], List.nodup_nil, fun k hk => absurd hk List.not_mem_nil, rfl⟩
      · rw [if_pos ⟨hneed, rfl⟩]
        unfold absorbEdge
        split
        next hmem =>
          rw [ht]
          split
          next hnone =>
            exact ⟨[], List.nodup_nil, fun k hk => absurd hk List.not_mem_nil, rfl⟩
          next c hc =>
            -- the neighbour at the edge is one of the other columns
            have hc' : c ∈ (s.tree.ws w).tiling.erase col := by
              refine List.mem_of_mem_take (i := maxCandidates) ?_
              rw [← hothers]
              exact List.mem_filterMap.mpr ⟨edgeSib, hmem, hc⟩
            refine ⟨[c], List.nodup_singleton c, fun k hk => ?_, ?_⟩
            · rw [List.mem_singleton.mp hk]
              exact hc'
            · rw [drainEach, if_neg hneed]
              rfl
        next => exact ⟨[], List.nodup_nil, fun k hk => absurd hk List.not_mem_nil, rfl⟩

/-- What the others are to give, or, when the column shrinks, to take in. -/
def widthNeed (s : State) (w : WsId) (col : ConId) (newW : ℚ) : ℚ :=
  let realDelta := newW - (s.geo col).width
  if realDelta < 0 then realDelta
  else max 0 (rowExtent s w (s.tree.ws w).tiling + realDelta - (s.wsGeo w).width)

/-- What is still needed is taken back from the column. -/
def pullBack (w : WsId) (col : ConId) (r : State × ℚ) : State :=
  if 0 < r.2 then
    setColumnWidth w r.1 col
      (containerClampTiledWidth r.1 col ((r.1.geo col).width - r.2) (r.1.wsGeo w).width)
  else r.1

theorem onlyGeometry_drainWidths (w : WsId) (ks : List ConId) (s : State) (need : ℚ) :
    OnlyGeometry s (drainEach (widthStore w) (setColumnWidth w) ks s need).1 := by
  induction ks generalizing s need with
  | nil => exact OnlyGeometry.refl s
  | cons k ks ih =>
      rw [drainEach]
      dsimp only
      split
      · exact OnlyGeometry.refl s
      · exact (OnlyGeometry.modGeo s k _).trans (ih _ _)

/-- The widths are assigned in three steps: the column gets its new width, some of the others
absorb, and what they leave is taken back. -/
theorem horizontalWidths_eq (hl : s.tree.Linked) (hcol : col ∈ (s.tree.ws w).tiling)
    (edge : UInt32) (newW : ℚ) :
    ∃ ks : List ConId, ks.Nodup ∧ (∀ k ∈ ks, k ∈ (s.tree.ws w).tiling.erase col) ∧
      horizontalWidths s w col edge newW =
        pullBack w col (drainEach (widthStore w) (setColumnWidth w) ks
          (setColumnWidth w s col newW) (widthNeed s w col newW)) := by
  have hidx : containerSiblingIndex s.tree col = listFind (s.tree.ws w).tiling col := by
    unfold containerSiblingIndex containerSiblings
    rw [hl.siblings (r := .tiling w) hcol]
    rfl
  have hnonneg : ¬ listFind (s.tree.ws w).tiling col < 0 := by
    rw [not_lt, listFind_nonneg]
    exact hcol
  have hoccupied : scanOccupied s w (-1) = rowExtent s w (s.tree.ws w).tiling := by
    rw [scanOccupied_eq]
    rfl
  obtain ⟨ks, hnodup, hks, habsorbed⟩ := exists_absorbed
    (if hasEdge edge wlrEdgeLeft then listFind (s.tree.ws w).tiling col - 1
      else listFind (s.tree.ws w).tiling col + 1)
    (hasEdge edge (wlrEdgeLeft ||| wlrEdgeRight))
    (if 0 ≤ (s.wsGeo w).focusedColumnIdx then (s.wsGeo w).focusedColumnIdx
      else listFind (s.tree.ws w).tiling col)
    (hl.nodup (.tiling w)) (setColumnWidth w s col newW) rfl (widthNeed s w col newW)
  refine ⟨ks, hnodup, hks, ?_⟩
  have hgeo := (onlyGeometry_drainWidths w ks (setColumnWidth w s col newW)
    (widthNeed s w col newW)).wsGeo
  have hwidth : (s.wsGeo w).width = ((drainEach (widthStore w) (setColumnWidth w) ks
      (setColumnWidth w s col newW) (widthNeed s w col newW)).1.wsGeo w).width := by
    rw [hgeo]
    rfl
  unfold horizontalWidths pullBack
  dsimp only
  rw [hidx, if_neg hnonneg, hoccupied]
  rw [← hwidth, ← habsorbed]
  rfl

/-- The sum over a row after one of its columns has got a width. -/
theorem sum_setColumnWidth (hnodup : (s.tree.ws w).tiling.Nodup)
    (hcol : col ∈ (s.tree.ws w).tiling) (newW : ℚ) :
    ((s.tree.ws w).tiling.map fun c => ((setColumnWidth w s col newW).geo c).width).sum =
      ((s.tree.ws w).tiling.map fun c => (s.geo c).width).sum + (newW - (s.geo col).width) := by
  have hperm := List.perm_cons_erase hcol
  have hself : ((setColumnWidth w s col newW).geo col).width = newW := by
    simp [setColumnWidth, State.modGeo]
  have hothers : ((s.tree.ws w).tiling.erase col).map
      (fun c => ((setColumnWidth w s col newW).geo c).width) =
        ((s.tree.ws w).tiling.erase col).map fun c => (s.geo c).width := by
    refine List.map_congr_left fun c hc => ?_
    have hne : c ≠ col := ne_of_mem_of_not_mem hc hnodup.not_mem_erase
    simp [setColumnWidth, State.modGeo, hne]
  rw [(hperm.map _).sum_eq, (hperm.map fun c => (s.geo c).width).sum_eq, List.map_cons,
    List.map_cons, List.sum_cons, List.sum_cons, hself, hothers]
  ring

/-- An amount that is within its bounds changes in the direction that is asked for, and no
further. -/
theorem clamp_add_change {b : Store ℚ} (hb : b.Bounded) {newW δ : ℚ}
    (hnew : b.clamp (b.amount + δ) = newW) :
    (0 ≤ δ → b.amount ≤ newW ∧ newW ≤ b.amount + δ) ∧
      (δ ≤ 0 → b.amount + δ ≤ newW ∧ newW ≤ b.amount) := by
  constructor
  · intro hδ
    have hneg : -δ ≤ 0 := by linarith
    have hput := hb.clamp_add hneg
    rwa [sub_neg_eq_add, hnew] at hput
  · intro hδ
    have hneg : 0 ≤ -δ := by linarith
    have hgive := hb.clamp_sub hneg
    rw [sub_neg_eq_add, hnew] at hgive
    have hle := min_le_left (-δ) b.slack
    have hnonneg : 0 ≤ min (-δ) b.slack := le_min hneg hb.slack_nonneg
    rw [hgive]
    exact ⟨by linarith, by linarith⟩

/-- What holds of a row in which a column has got a width that its bounds allow and the others have
absorbed: nothing has left the row that is not in what is still needed. -/
structure Absorbed (s : State) (w : WsId) (col : ConId) (newW need : ℚ) (u : State) (left : ℚ) :
    Prop where
  onlyGeometry : OnlyGeometry s u
  width : (u.geo col).width = newW
  bounded : ∀ c ∈ (s.tree.ws w).tiling, (widthStore w u c).Bounded
  sum : ((s.tree.ws w).tiling.map fun c => (u.geo c).width).sum + need =
    ((s.tree.ws w).tiling.map fun c => (s.geo c).width).sum + (newW - (s.geo col).width) + left
  take : 0 ≤ need → 0 ≤ left ∧ left ≤ need
  put : need ≤ 0 → need ≤ left ∧ left ≤ 0

theorem absorbed_drainEach (hnodup : (s.tree.ws w).tiling.Nodup)
    (hcol : col ∈ (s.tree.ws w).tiling) (hb : WidthsBounded s w (s.tree.ws w).tiling) {newW : ℚ}
    (hnew : (widthStore w s col).clamp newW = newW) {ks : List ConId} (hks : ks.Nodup)
    (hothers : ∀ k ∈ ks, k ∈ (s.tree.ws w).tiling.erase col) (need : ℚ) :
    Absorbed s w col newW need
      (drainEach (widthStore w) (setColumnWidth w) ks (setColumnWidth w s col newW) need).1
      (drainEach (widthStore w) (setColumnWidth w) ks (setColumnWidth w s col newW) need).2 := by
  have hw := writesAmount_width w
  have hout : col ∉ ks := fun hmem => hnodup.not_mem_erase (hothers col hmem)
  have hmem : ∀ k ∈ ks, k ∈ (s.tree.ws w).tiling := fun k hk => List.mem_of_mem_erase (hothers k hk)
  have hbounded : ∀ c ∈ (s.tree.ws w).tiling,
      (widthStore w (setColumnWidth w s col newW) c).Bounded := by
    intro c hc
    by_cases heq : c = col
    · rw [heq, hw.self]
      exact hnew
    · rw [hw.other s col newW c heq]
      exact hb c hc
  have hboundedKs : ∀ k ∈ ks, (widthStore w (setColumnWidth w s col newW) k).Bounded :=
    fun k hk => hbounded k (hmem k hk)
  have hstores : ∀ b ∈ ks.map (widthStore w (setColumnWidth w s col newW)), b.Bounded := by
    intro b hb'
    obtain ⟨k, hk, rfl⟩ := List.mem_map.mp hb'
    exact hboundedKs k hk
  obtain ⟨hleft, -⟩ := drainEach_eq hw hks (setColumnWidth w s col newW) need
  -- the columns that are asked, and the rest of the row
  have hperm := (List.subperm_append_diff_self_of_count_le
    (List.subperm_ext_iff.mp (hks.subperm hmem))).symm
  have hrest : ∀ k ∈ (s.tree.ws w).tiling.diff ks, k ∉ ks := fun k hk =>
    (hnodup.mem_sdiff_iff.mp hk).2
  refine ⟨(OnlyGeometry.modGeo s col _).trans (onlyGeometry_drainWidths w ks _ need), ?_,
    fun c hc => drainEach_bounded hw _ need (hbounded c hc), ?_, fun hneed => ?_,
    fun hneed => ?_⟩
  · have hsame := drainEach_other hw hout (setColumnWidth w s col newW) need
    have hamount := congrArg Store.amount hsame
    rw [hw.self] at hamount
    exact hamount
  · have hsum := sum_drainEach hw hks hrest hperm (setColumnWidth w s col newW) need
    rw [← sum_setColumnWidth hnodup hcol newW]
    exact hsum
  · rw [hleft, drain_need hstores hneed]
    have hslack : 0 ≤ ((ks.map (widthStore w (setColumnWidth w s col newW))).map Store.slack).sum :=
      List.sum_nonneg fun x hx => by
        obtain ⟨b, hb', rfl⟩ := List.mem_map.mp hx
        exact (hstores b hb').slack_nonneg
    exact ⟨le_max_left _ _, max_le hneed (by linarith)⟩
  · rw [hleft]
    exact drain_put hstores hneed

/-- The bounds of a width do not depend on the geometry. -/
theorem widthStore_of_onlyGeometry {u : State} (h : OnlyGeometry s u) (c : ConId) :
    widthStore w u c = { widthStore w s c with amount := (u.geo c).width } := by
  have hlimits : columnLimits u c = columnLimits s c := by
    rw [← columnLimits_geo u s.geo c]
    exact congrArg (columnLimits · c) h
  unfold widthStore
  rw [hlimits, h.wsGeo]

/-- Taking back what is still needed, when the column was at most that much narrower. -/
theorem Absorbed.pullBack {newW need : ℚ} {u : State} {left : ℚ}
    (h : Absorbed s w col newW need u left) (hnodup : (s.tree.ws w).tiling.Nodup)
    (hcol : col ∈ (s.tree.ws w).tiling) (hb : WidthsBounded s w (s.tree.ws w).tiling)
    (hnew : (widthStore w s col).clamp newW = newW)
    (hleft : 0 < left → (s.geo col).width ≤ newW - left) :
    OnlyGeometry s (pullBack w col (u, left)) ∧
      ((pullBack w col (u, left)).geo col).width = newW - max 0 left ∧
      (∀ c ∈ (s.tree.ws w).tiling, (widthStore w (pullBack w col (u, left)) c).Bounded) ∧
      ((s.tree.ws w).tiling.map fun c => ((pullBack w col (u, left)).geo c).width).sum =
        ((s.tree.ws w).tiling.map fun c => (u.geo c).width).sum - max 0 left := by
  unfold Swirl.pullBack
  dsimp only
  split
  next hpos =>
    have hstore := widthStore_of_onlyGeometry h.onlyGeometry (w := w) col
    have hback : containerClampTiledWidth u col ((u.geo col).width - left) (u.wsGeo w).width =
        newW - left := by
      rw [h.width, ← clamp_widthStore, hstore]
      exact Store.clamp_between (b := widthStore w s col) (hb col hcol) hnew (hleft hpos)
        (by linarith)
    rw [hback, max_eq_right hpos.le]
    have htiling : (u.tree.ws w).tiling = (s.tree.ws w).tiling := by rw [h.onlyGeometry.tree]
    have hmem : col ∈ (u.tree.ws w).tiling := by rwa [htiling]
    have hsum := sum_setColumnWidth (s := u) (by rwa [htiling]) hmem (newW - left)
    rw [htiling, h.width] at hsum
    refine ⟨h.onlyGeometry.trans (OnlyGeometry.modGeo u col _), ?_, fun c hc => ?_, ?_⟩
    · simp [setColumnWidth, State.modGeo]
    · by_cases heq : c = col
      · rw [heq, (writesAmount_width w).self, hstore]
        exact Store.clamp_between (b := widthStore w s col) (hb col hcol) hnew (hleft hpos)
          (by linarith)
      · rw [(writesAmount_width w).other u col _ c heq]
        exact h.bounded c hc
    · rw [hsum]
      ring
  next hneg =>
    rw [max_eq_left (not_lt.mp hneg), sub_zero, sub_zero]
    exact ⟨h.onlyGeometry, h.width, h.bounded, rfl⟩

/-- A row whose columns have other widths: its extent and the bounds. -/
theorem rowExtent_of_onlyGeometry {t : State} (h : OnlyGeometry s t) {d : ℚ}
    (hsum : ((s.tree.ws w).tiling.map fun c => (t.geo c).width).sum =
      ((s.tree.ws w).tiling.map fun c => (s.geo c).width).sum + d) :
    rowExtent t w (t.tree.ws w).tiling = rowExtent s w (s.tree.ws w).tiling + d := by
  rw [rowExtent, rowExtent, h.tree, h.wsGeo, hsum]
  ring

theorem widthsBounded_of_onlyGeometry {t : State} (h : OnlyGeometry s t)
    (hb : ∀ c ∈ (s.tree.ws w).tiling, (widthStore w t c).Bounded) :
    WidthsBounded t w (t.tree.ws w).tiling := by
  rw [h.tree]
  exact hb

/-- What is needed of the others is negative when the column shrinks. When it grows it is what the
row would be too wide, which is no more than the column grows by. -/
theorem widthNeed_of_shrink {newW : ℚ} (h : newW - (s.geo col).width < 0) :
    widthNeed s w col newW = newW - (s.geo col).width := if_pos h

theorem widthNeed_of_grow {newW : ℚ} (h : 0 ≤ newW - (s.geo col).width)
    (hfits : rowExtent s w (s.tree.ws w).tiling ≤ (s.wsGeo w).width) :
    0 ≤ widthNeed s w col newW ∧ widthNeed s w col newW ≤ newW - (s.geo col).width ∧
      rowExtent s w (s.tree.ws w).tiling + (newW - (s.geo col).width) - widthNeed s w col newW ≤
        (s.wsGeo w).width := by
  have hneed : widthNeed s w col newW =
      max 0 (rowExtent s w (s.tree.ws w).tiling + (newW - (s.geo col).width) -
        (s.wsGeo w).width) := if_neg (not_lt.mpr h)
  have hge := le_max_right 0 (rowExtent s w (s.tree.ws w).tiling + (newW - (s.geo col).width) -
    ((s.wsGeo w).width : ℚ))
  rw [hneed]
  exact ⟨le_max_left _ _, max_le h (by linarith), by linarith⟩

/-- The three steps keep the row: a column that gets a smaller width keeps it, and one that gets a
larger width keeps a part of what it gained. -/
theorem horizontalWidths_keeps_row (hl : s.tree.Linked) (hcol : col ∈ (s.tree.ws w).tiling)
    (hfits : rowExtent s w (s.tree.ws w).tiling ≤ (s.wsGeo w).width)
    (hb : WidthsBounded s w (s.tree.ws w).tiling) (edge : UInt32) {newW : ℚ}
    (hnew : (widthStore w s col).clamp newW = newW) :
    let t := horizontalWidths s w col edge newW
    rowExtent t w (t.tree.ws w).tiling ≤ (t.wsGeo w).width ∧
      WidthsBounded t w (t.tree.ws w).tiling ∧
      (newW ≤ (s.geo col).width → (t.geo col).width = newW) ∧
      ((s.geo col).width ≤ newW → (s.geo col).width ≤ (t.geo col).width ∧
        (t.geo col).width ≤ newW) := by
  have hnodup := hl.nodup (.tiling w)
  obtain ⟨ks, hks, hothers, heq⟩ := horizontalWidths_eq hl hcol edge newW
  have habsorbed := absorbed_drainEach hnodup hcol hb hnew hks hothers (widthNeed s w col newW)
  rw [heq]
  generalize drainEach (widthStore w) (setColumnWidth w) ks (setColumnWidth w s col newW)
    (widthNeed s w col newW) = r at habsorbed ⊢
  obtain ⟨u, left⟩ := r
  have hsum := habsorbed.sum
  dsimp only at habsorbed hsum ⊢
  rcases lt_or_ge (newW - (s.geo col).width) 0 with hneg | hpos
  · -- a column that shrinks gives to the others at most what it loses
    have hneed := widthNeed_of_shrink (w := w) hneg
    have hput := habsorbed.put (hneed.trans_le hneg.le)
    obtain ⟨honly, hwidth, hbounded, hfinal⟩ := habsorbed.pullBack hnodup hcol hb hnew
      fun h => absurd h (not_lt.mpr hput.2)
    generalize pullBack w col (u, left) = t at honly hwidth hbounded hfinal ⊢
    rw [max_eq_left hput.2, sub_zero] at hwidth hfinal
    have hextent := rowExtent_of_onlyGeometry honly (d := left) (by linarith)
    refine ⟨?_, widthsBounded_of_onlyGeometry honly hbounded, fun _ => hwidth, fun h => ?_⟩
    · rw [hextent, honly.wsGeo]
      linarith [hput.2]
    · exact absurd hneg (not_lt.mpr (sub_nonneg.mpr h))
  · -- what a column that grows is still to get is taken back
    obtain ⟨hneedNonneg, hneedLe, hneedFits⟩ := widthNeed_of_grow hpos hfits
    have htake := habsorbed.take hneedNonneg
    obtain ⟨honly, hwidth, hbounded, hfinal⟩ := habsorbed.pullBack hnodup hcol hb hnew
      fun _ => by linarith [htake.2]
    generalize pullBack w col (u, left) = t at honly hwidth hbounded hfinal ⊢
    rw [max_eq_right htake.1] at hwidth hfinal
    have hextent := rowExtent_of_onlyGeometry honly
      (d := newW - (s.geo col).width - widthNeed s w col newW) (by linarith)
    refine ⟨?_, widthsBounded_of_onlyGeometry honly hbounded, fun h => ?_, fun _ => ?_⟩
    · rw [hextent, honly.wsGeo]
      linarith
    · linarith [htake.1, htake.2]
    · rw [hwidth]
      exact ⟨by linarith [htake.2], by linarith [htake.1]⟩

/-- **A column that is resized stays in its row.** When the row fits and every width is within its
bounds, both are so afterwards, and the column has changed in the direction that was asked for and
no further. -/
theorem horizontalResized_keeps_row {con : ConId} {edge : UInt32} {deltaPx : ℚ}
    (hl : s.tree.Linked) (hcol : containerToplevelAncestor s.tree con ∈ (s.tree.ws w).tiling)
    (hfits : rowExtent s w (s.tree.ws w).tiling ≤ (s.wsGeo w).width)
    (hb : WidthsBounded s w (s.tree.ws w).tiling) :
    let t := horizontalResized s con edge deltaPx
    let change := (t.geo (containerToplevelAncestor s.tree con)).width -
      (s.geo (containerToplevelAncestor s.tree con)).width
    rowExtent t w (t.tree.ws w).tiling ≤ (t.wsGeo w).width ∧
      WidthsBounded t w (t.tree.ws w).tiling ∧
      (0 ≤ deltaPx → 0 ≤ change ∧ change ≤ deltaPx) ∧
      (deltaPx ≤ 0 → deltaPx ≤ change ∧ change ≤ 0) := by
  have hws := (hl.of_tiling hcol).2
  unfold horizontalResized horizontalResize
  dsimp only
  rw [hws]
  generalize containerToplevelAncestor s.tree con = col at hcol ⊢
  obtain ⟨newW, heq⟩ : ∃ newW, containerClampTiledWidth s col ((s.geo col).width + deltaPx)
      (s.wsGeo w).width = newW := ⟨_, rfl⟩
  have hnew : (widthStore w s col).clamp newW = newW := by
    rw [← heq]
    exact (widthStore w s col).clamp_clamp _
  obtain ⟨hgrow, hshrink⟩ : (0 ≤ deltaPx → (s.geo col).width ≤ newW ∧
        newW ≤ (s.geo col).width + deltaPx) ∧
      (deltaPx ≤ 0 → (s.geo col).width + deltaPx ≤ newW ∧ newW ≤ (s.geo col).width) :=
    clamp_add_change (b := widthStore w s col) (hb col hcol) heq
  dsimp only
  rw [heq]
  by_cases hzero : newW - (s.geo col).width = 0
  · rw [if_pos hzero]
    exact ⟨hfits, hb, fun h => ⟨by linarith, by linarith⟩, fun h => ⟨by linarith, by linarith⟩⟩
  · rw [if_neg hzero]
    obtain ⟨hrow, hbounded, hless, hmore⟩ :=
      horizontalWidths_keeps_row hl hcol hfits hb edge hnew
    dsimp only
    refine ⟨hrow, hbounded, fun h => ?_, fun h => ?_⟩
    · obtain ⟨hge, hle⟩ := hgrow h
      obtain ⟨hge', hle'⟩ := hmore hge
      exact ⟨by linarith, by linarith⟩
    · obtain ⟨hge, hle⟩ := hshrink h
      have hwidth := hless hle
      exact ⟨by linarith, by linarith⟩

end Columns

/-- Two columns of 400 pixels on a screen 1000 pixels wide. -/
def columnPair : State :=
  { State.start configDefaults ⟨0, 0, 1000, 800⟩ with
    tree := Tree.outlined [⟨[(0, []), (1, [])], []⟩]
    geo := fun _ => { Geometry.blank with width := 400 } }

/-- When the first column grows by 300 pixels, the second one gives the 100 pixels that are not
free. -/
theorem horizontalResized_keeps_columnPair :
    (List.map (fun c => ((horizontalResized columnPair 0 0 300).geo c).width) [0, 1] = [700, 300]) ∧
      rowExtent (horizontalResized columnPair 0 0 300) 0
          ((horizontalResized columnPair 0 0 300).tree.ws 0).tiling ≤
        ((horizontalResized columnPair 0 0 300).wsGeo 0).width :=
  ⟨by decide +kernel,
    (horizontalResized_keeps_row (s := columnPair) (w := 0)
      (Tree.linked_outlined (by decide +kernel) (by decide +kernel)) (by decide +kernel)
      (by decide +kernel) (by decide +kernel)).1⟩

end Swirl
