import Swirl.Tree.ColumnHeights

set_option autoImplicit false

/-! # How a column is filled

What `viewport_arrange_windows` makes of a column in the tree: its windows get the heights of
`columnHeights`. They are within their limits and fill the column exactly if the last window has
room for the remainder, and two windows with the same fraction get the same height when nothing is
left over by the first division.
-/

namespace Swirl

open Lib

section Heights

variable {s : State} {col : ConId}

theorem height_placeWindow (col : Geometry) (y height : ℚ) (s : State) (c : ConId) :
    ((placeWindow col y height s c).geo c).height = height :=
  congrArg (fun e : ℚ × ℚ × ℚ × ℚ => e.2.2.2) (extent_placeWindow col y height s c)

/-- The placement loop gives every window its height. -/
theorem height_placeWindows (col : Geometry) (gap : ℚ) (rs : List (ConId × ℚ)) (y : ℚ) (s : State)
    (hnodup : (rs.map Prod.fst).Nodup) :
    rs.map (fun r => ((placeWindows col gap y rs s).geo r.1).height) = rs.map Prod.snd := by
  induction rs generalizing y s with
  | nil => rfl
  | cons r rs ih =>
      obtain ⟨hr, hnodup'⟩ := List.nodup_cons.mp hnodup
      have hfirst : ((placeWindows col gap y (r :: rs) s).geo r.1).height = r.2 := by
        -- the later rounds leave the window alone
        rw [placeWindows, (writes_placeWindows col gap rs _ _).geo r.1 hr]
        exact height_placeWindow col y r.2 s r.1
      rw [List.map_cons, List.map_cons, hfirst]
      exact congrArg (r.2 :: ·) (ih (y + (r.2 + gap)) _ hnodup')

/-- The gap between the windows of a column. -/
def columnGap (s : State) (col : ConId) : ℚ :=
  match (s.tree.con col).workspace with
  | some w => (s.wsGeo w).gapsInner
  | none => 0

/-- `usable_h` of the pass, before it is cut off at zero. -/
def columnUsable (s : State) (col : ConId) : ℚ :=
  (s.geo col).height - columnGap s col * ((s.tree.con col).children.length - 1)

/-- What the pass reads of the windows of a column. -/
def columnLimitsOf (s : State) (col : ConId) : List WindowLimits :=
  (s.tree.con col).children.map (windowLimits s)

theorem columnLimitsOf_share : ∀ l ∈ columnLimitsOf s col, 0 < l.hf := by
  intro l hl
  obtain ⟨c, -, rfl⟩ := List.mem_map.mp hl
  unfold windowLimits shareOf
  dsimp only
  split
  next h => exact h
  next => exact one_pos

/-- The windows of a column with the heights that are computed for them. -/
def heightsOf (s : State) (col : ConId) : List (ConId × ℚ) :=
  (s.tree.con col).children.zip
    (columnHeights (columnLimitsOf s col) (max 0 (columnUsable s col)))

theorem heightsOf_length (s : State) (col : ConId) :
    (columnHeights (columnLimitsOf s col) (max 0 (columnUsable s col))).length =
      (s.tree.con col).children.length := by
  rw [columnHeights_length, columnLimitsOf, List.length_map]

theorem heightsOf_fst (s : State) (col : ConId) :
    (heightsOf s col).map Prod.fst = (s.tree.con col).children :=
  List.map_fst_zip (heightsOf_length s col).ge

theorem viewportArrangeWindows_eq (hview : (s.tree.con col).view = none) :
    viewportArrangeWindows s col =
      placeWindows (s.geo col) (columnGap s col) 0 (heightsOf s col) s := by
  by_cases hnil : (s.tree.con col).children = []
  · have hnone : heightsOf s col = [] := by
      unfold heightsOf
      rw [hnil, List.zip_nil_left]
    rw [hnone]
    exact if_pos (Or.inr hnil)
  · refine if_neg ?_
    rintro (h | h)
    · rw [hview] at h
      cases h
    · exact hnil h

/-- **The windows of a column get the heights that the height arithmetic computes.** -/
theorem heights_viewportArrangeWindows (hnodup : (s.tree.con col).children.Nodup)
    (hview : (s.tree.con col).view = none) :
    (s.tree.con col).children.map (fun c => ((viewportArrangeWindows s col).geo c).height) =
      columnHeights (columnLimitsOf s col) (max 0 (columnUsable s col)) := by
  have hsnd : (heightsOf s col).map Prod.snd =
      columnHeights (columnLimitsOf s col) (max 0 (columnUsable s col)) :=
    List.map_snd_zip (heightsOf_length s col).le
  have hheights := height_placeWindows (s.geo col) (columnGap s col) (heightsOf s col) 0 s
    (by rwa [heightsOf_fst])
  rw [viewportArrangeWindows_eq hview, ← hsnd, ← hheights]
  generalize placeWindows (s.geo col) (columnGap s col) 0 (heightsOf s col) s = t
  calc (s.tree.con col).children.map (fun c => (t.geo c).height)
      = ((heightsOf s col).map Prod.fst).map fun c => (t.geo c).height := by rw [heightsOf_fst]
    _ = (heightsOf s col).map fun r => (t.geo r.1).height := List.map_map

/-- The sum of the minimum heights is the one that the pass compares with. -/
theorem minimumsOverflow_columnLimitsOf (usableH : ℚ) :
    MinimumsOverflow (columnLimitsOf s col) usableH ↔
      usableH < ((s.tree.con col).children.map (containerClampTiledHeightMin s)).sum := by
  unfold MinimumsOverflow columnLimitsOf
  rw [List.map_map]
  rfl

/-- **The windows of a column get heights within their limits, and these fill the column exactly if
the last window has room for the remainder.** -/
theorem viewportArrangeWindows_fill_iff (hnodup : (s.tree.con col).children.Nodup)
    (hview : (s.tree.con col).view = none) (hne : (s.tree.con col).children ≠ [])
    (hmin : ∀ c ∈ (s.tree.con col).children, 0 ≤ containerClampTiledHeightMin s c)
    (hfeasible : ((s.tree.con col).children.map (containerClampTiledHeightMin s)).sum ≤
      columnUsable s col) :
    (∀ c ∈ (s.tree.con col).children,
      containerClampTiledHeightMin s c ≤ ((viewportArrangeWindows s col).geo c).height ∧
        ((viewportArrangeWindows s col).geo c).height ≤
          containerClampTiledHeight s c (columnUsable s col) (columnUsable s col)) ∧
    (((s.tree.con col).children.map fun c => ((viewportArrangeWindows s col).geo c).height).sum +
          columnGap s col * ((s.tree.con col).children.length - 1) = (s.geo col).height ↔
      RemainderFits (columnLimitsOf s col) (columnUsable s col)) := by
  have husable : 0 ≤ columnUsable s col := by
    refine le_trans (List.sum_nonneg fun x hx => ?_) hfeasible
    obtain ⟨c, hc, rfl⟩ := List.mem_map.mp hx
    exact hmin c hc
  have hheights := heights_viewportArrangeWindows hnodup hview
  rw [max_eq_right husable] at hheights
  have hlimits : columnLimitsOf s col ≠ [] := fun hnil => hne (List.map_eq_nil_iff.mp hnil)
  have hfit : ¬ MinimumsOverflow (columnLimitsOf s col) (columnUsable s col) := by
    rw [minimumsOverflow_columnLimitsOf]
    exact not_lt.mpr hfeasible
  obtain ⟨hbounds, hsum⟩ := columnHeights_fill_iff hlimits columnLimitsOf_share hfit
  rw [← hheights] at hbounds hsum
  constructor
  · unfold columnLimitsOf at hbounds
    rw [List.forall₂_map_left_iff, List.forall₂_map_right_iff, List.forall₂_same] at hbounds
    exact hbounds
  · rw [← hsum]
    have hgaps : columnUsable s col = (s.geo col).height -
        columnGap s col * ((s.tree.con col).children.length - 1) := rfl
    constructor
    · intro h
      linarith
    · intro h
      linarith

/-- The height of a window, by its place in the column. -/
theorem height_of_place (hnodup : (s.tree.con col).children.Nodup)
    (hview : (s.tree.con col).view = none) {i : Nat} {c : ConId}
    (hc : (s.tree.con col).children[i]? = some c) :
    (columnHeights (columnLimitsOf s col) (max 0 (columnUsable s col)))[i]? =
      some ((viewportArrangeWindows s col).geo c).height := by
  rw [← heights_viewportArrangeWindows hnodup hview, List.getElem?_map, hc]
  rfl

/-- A window without size constraints. -/
def Unconstrained (s : State) (c : ConId) : Prop :=
  (containerGetSizeConstraints s c).minHeight = dblMin ∧
    (containerGetSizeConstraints s c).maxHeight = dblMax

instance (s : State) (c : ConId) : Decidable (Unconstrained s c) :=
  inferInstanceAs (Decidable (_ ∧ _))

theorem Unconstrained.free {c : ConId} (h : Unconstrained s c) : (windowLimits s c).Free :=
  ⟨if_neg (not_not.mpr h.1), h.2⟩

theorem windowLimits_eq {a b : ConId} (ha : Unconstrained s a) (hb : Unconstrained s b)
    (hfraction : (s.geo a).heightFraction = (s.geo b).heightFraction) :
    windowLimits s a = windowLimits s b := by
  have hlo : (windowLimits s a).lo = (windowLimits s b).lo := ha.free.1.trans hb.free.1.symm
  have hcap : (windowLimits s a).cap = (windowLimits s b).cap := ha.free.2.trans hb.free.2.symm
  have hhf : (windowLimits s a).hf = (windowLimits s b).hf := congrArg shareOf hfraction
  unfold windowLimits at hlo hcap hhf ⊢
  dsimp only at hlo hcap hhf
  rw [hlo, hcap, hhf]

/-- Height is left over, or missing, when every window has the height of its fraction. -/
def LeavesNothing (s : State) (col : ConId) : Prop :=
  max 0 (columnUsable s col) < ((s.tree.con col).children.map (containerClampTiledHeightMin s)).sum ∨
    firstLeftover (columnLimitsOf s col) (max 0 (columnUsable s col)) = 0

/-- **Two windows alike get the same height when nothing is left over by the first division.** Else
they do not, unless both end with no height or one of them is the last window. -/
theorem viewportArrangeWindows_fair (hnodup : (s.tree.con col).children.Nodup)
    (hview : (s.tree.con col).view = none) {a b : ConId} (ha : a ∈ (s.tree.con col).children)
    (hb : b ∈ (s.tree.con col).children) (hab : a ≠ b)
    (hfraction : (s.geo a).heightFraction = (s.geo b).heightFraction)
    (hfreeA : Unconstrained s a) (hfreeB : Unconstrained s b) :
    (LeavesNothing s col → ((viewportArrangeWindows s col).geo a).height =
        ((viewportArrangeWindows s col).geo b).height) ∧
      (¬ LeavesNothing s col →
        (∀ c ∈ (s.tree.con col).children, 0 ≤ containerClampTiledHeightMin s c) →
        (s.tree.con col).children.getLast? ≠ some a →
        (s.tree.con col).children.getLast? ≠ some b →
        ((viewportArrangeWindows s col).geo a).height =
          ((viewportArrangeWindows s col).geo b).height →
        ((viewportArrangeWindows s col).geo a).height = 0) := by
  have hlimits := windowLimits_eq hfreeA hfreeB hfraction
  obtain ⟨i, hi⟩ := List.mem_iff_getElem?.mp ha
  obtain ⟨j, hj⟩ := List.mem_iff_getElem?.mp hb
  have hplace : ∀ (n : Nat) (c : ConId), (s.tree.con col).children[n]? = some c →
      (columnLimitsOf s col)[n]? = some (windowLimits s c) := by
    intro n c hc
    unfold columnLimitsOf
    rw [List.getElem?_map, hc]
    rfl
  have hi' := hplace i a hi
  have hj' := hplace j b hj
  rw [← hlimits] at hj'
  have hheightA := height_of_place hnodup hview hi
  have hheightB := height_of_place hnodup hview hj
  unfold LeavesNothing
  rw [← minimumsOverflow_columnLimitsOf]
  constructor
  · intro hexact
    have halike := columnHeights_alike hi' hj' hexact
    rw [hheightA, hheightB] at halike
    exact Option.some.inj halike
  · intro hleft hmin hlastA hlastB hsame
    push Not at hleft
    obtain ⟨hfit, hleft⟩ := hleft
    have hlo : ∀ l ∈ columnLimitsOf s col, 0 ≤ l.lo := by
      intro l hl
      obtain ⟨c, hc, rfl⟩ := List.mem_map.mp hl
      exact hmin c hc
    have hlength : (columnLimitsOf s col).length = (s.tree.con col).children.length :=
      List.length_map _
    -- a window that is not the last one has another behind it
    have hbehind : ∀ (n : Nat) (c : ConId), (s.tree.con col).children[n]? = some c →
        (s.tree.con col).children.getLast? ≠ some c → n + 1 < (columnLimitsOf s col).length := by
      intro n c hc hlast
      obtain ⟨hlt, -⟩ := List.getElem?_eq_some_iff.mp hc
      rw [hlength]
      by_contra hge
      refine hlast ?_
      have hn : n = (s.tree.con col).children.length - 1 := by omega
      rw [List.getLast?_eq_getElem?, ← hn, hc]
    have hsame' : (columnHeights (columnLimitsOf s col) (max 0 (columnUsable s col)))[i]? =
        (columnHeights (columnLimitsOf s col) (max 0 (columnUsable s col)))[j]? := by
      rw [hheightA, hheightB, hsame]
    rcases lt_trichotomy i j with hij | hij | hij
    · have hzero := columnHeights_unfair columnLimitsOf_share hlo (le_max_left _ _) hfit hleft
        hfreeA.free hij (hbehind j b hj hlastB) hi' hj' hsame'
      rw [hheightA] at hzero
      exact Option.some.inj hzero
    · rw [hij, hj] at hi
      exact absurd (Option.some.inj hi).symm hab
    · have hzero := columnHeights_unfair columnLimitsOf_share hlo (le_max_left _ _) hfit hleft
        hfreeA.free hij (hbehind i a hi hlastA) hj' hi' hsame'.symm
      rw [hheightB] at hzero
      rw [hsame]
      exact Option.some.inj hzero

end Heights

/-- A column of three windows, 300 pixels high, of which one is at most 50 pixels high. -/
def cappedColumn (capped : ConId) : State :=
  { State.start configDefaults ⟨0, 0, 1000, 800⟩ with
    tree := (Tree.outlined [⟨[(0, [1, 2, 3])], []⟩]).modCon capped fun k =>
      { k with view := some { View.plain with maxHeight := 50 } }
    geo := fun c =>
      if c = 0 then { Geometry.blank with layout := .vert, height := 300 } else Geometry.blank }

/-- When the last window is the one that cannot grow, three pixels are left over. -/
theorem viewportArrangeWindows_underfills :
    ¬ ∀ (s : State) (col : ConId), (s.tree.con col).children.Nodup →
      (s.tree.con col).view = none → (s.tree.con col).children ≠ [] →
      (∀ c ∈ (s.tree.con col).children, 0 ≤ containerClampTiledHeightMin s c) →
      ((s.tree.con col).children.map (containerClampTiledHeightMin s)).sum ≤ columnUsable s col →
      columnUsable s col ≤ ((s.tree.con col).children.map fun c =>
        containerClampTiledHeight s c (columnUsable s col) (columnUsable s col)).sum →
      ((s.tree.con col).children.map fun c => ((viewportArrangeWindows s col).geo c).height).sum +
        columnGap s col * ((s.tree.con col).children.length - 1) = (s.geo col).height := by
  intro h
  have hfull := h (cappedColumn 3) 0 (by decide +kernel) rfl (by decide +kernel)
    (by decide +kernel) (by decide +kernel) (by decide +kernel)
  exact absurd hfull (by decide +kernel)

/-- When the first window is the one that cannot grow, the others fill the column. -/
theorem viewportArrangeWindows_fills_capped :
    ([1, 2, 3].map fun c => ((viewportArrangeWindows (cappedColumn 1) 0).geo c).height).sum +
      columnGap (cappedColumn 1) 0 * (((cappedColumn 1).tree.con 0).children.length - 1) =
        ((cappedColumn 1).geo 0).height :=
  (viewportArrangeWindows_fill_iff (s := cappedColumn 1) (by decide +kernel) rfl (by decide +kernel)
    (by decide +kernel) (by decide +kernel)).2.mpr (by decide +kernel)

/-- Of two windows alike the first one gets more of what the third one cannot take. -/
theorem viewportArrangeWindows_unfair :
    ¬ ∀ (s : State) (col a b : ConId), (s.tree.con col).children.Nodup →
      (s.tree.con col).view = none → a ∈ (s.tree.con col).children →
      b ∈ (s.tree.con col).children → (s.geo a).heightFraction = (s.geo b).heightFraction →
      Unconstrained s a → Unconstrained s b →
      ((viewportArrangeWindows s col).geo a).height =
        ((viewportArrangeWindows s col).geo b).height := by
  intro h
  have hsame := h (cappedColumn 3) 0 1 2 (by decide +kernel) rfl (by decide +kernel)
    (by decide +kernel) (by decide +kernel) (by decide +kernel) (by decide +kernel)
  exact absurd hsame (by decide +kernel)

/-- When the fraction of the third window is below its maximum, they get the same. -/
theorem viewportArrangeWindows_fair_capped :
    ((viewportArrangeWindows ((cappedColumn 3).modGeo 3 fun g =>
        { g with heightFraction := 1 / 5 }) 0).geo 1).height =
      ((viewportArrangeWindows ((cappedColumn 3).modGeo 3 fun g =>
        { g with heightFraction := 1 / 5 }) 0).geo 2).height :=
  (viewportArrangeWindows_fair (by decide +kernel) rfl (by decide +kernel) (by decide +kernel)
    (by decide) (by decide +kernel) (by decide +kernel) (by decide +kernel)).1
    (Or.inr (by decide +kernel))

end Swirl
