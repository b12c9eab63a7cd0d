import Swirl.Tree.ColumnFill

set_option autoImplicit false

/-! # The children of a container in the scene

`arrange_children` of `desktop/transaction.c` places the scene nodes of the children when a
transaction is applied. For windows above each other it adds up the heights as integers, while
`viewport_arrange_windows` keeps what is behind the point.
-/

namespace Swirl

open Lib

/-- What `arrange_children` does with a child: the place of its node, whether its border is on, its
title bar, and what `arrange_container` is called with; a child it is not called for is disabled. -/
structure SceneChild where
  con : ConId
  x : Int
  y : Int
  borderEnabled : Bool
  titleBar : Option Box
  arranged : Option (Int × Int × Bool × Int)

/-- The height of the title bars of a tabbed or stacked container. -/
def titleBarHeight (s : State) (children : List ConId) : Int :=
  match children with
  | [first] =>
      if s.config.hideLoneTab ∧ (s.tree.con first).view.isSome ∧ (s.deco first).border ≠ .normal
      then 0 else s.config.titlebarHeight
  | _ => s.config.titlebarHeight

/-- `arrange_children` for tabs, from a place in the list on. -/
def arrangeTabs (active : Option ConId) (width height barHeight : Int) (w : ℚ) :
    Nat → Int → List ConId → List SceneChild
  | _, _, [] => []
  | i, titleOffset, c :: cs =>
      let nextTitleOffset := lround (w * i + w)
      let activated := decide (active = some c)
      let netHeight := height - barHeight
      { con := c
        x := 0
        y := barHeight
        borderEnabled := activated
        titleBar := some ⟨titleOffset, -barHeight, nextTitleOffset - titleOffset, barHeight⟩
        arranged :=
          if activated && decide (0 < width) && decide (0 < netHeight) then
            some (width, netHeight, decide (barHeight = 0), 0)
          else none } ::
        arrangeTabs active width height barHeight w (i + 1) nextTitleOffset cs

/-- `arrange_children` for a stack, from a place in the list on. -/
def arrangeStack (active : Option ConId) (width height barHeight titleHeight : Int) :
    Int → List ConId → List SceneChild
  | _, [] => []
  | y, c :: cs =>
      let activated := decide (active = some c)
      let netHeight := height - titleHeight
      { con := c
        x := 0
        y := titleHeight
        borderEnabled := activated
        titleBar := some ⟨0, y - titleHeight, width, barHeight⟩
        arranged :=
          if activated && decide (0 < width) && decide (0 < netHeight) then
            some (width, netHeight, decide (barHeight = 0), 0)
          else none } ::
        arrangeStack active width height barHeight titleHeight (y + barHeight) cs

/-- `arrange_children` for children above each other, from an offset on. -/
def arrangeVert (s : State) (width gaps : Int) : Int → List ConId → List SceneChild
  | _, [] => []
  | off, c :: cs =>
      let cheight := truncInt (s.geo c).height
      let fits := decide (0 < width) && decide (0 < cheight)
      { con := c
        x := 0
        y := off
        borderEnabled := true
        titleBar := none
        arranged := if fits then some (width, cheight, true, gaps) else none } ::
        arrangeVert s width gaps (if fits then off + (cheight + gaps) else off) cs

/-- `arrange_children` for children side by side, from an offset on. -/
def arrangeHoriz (s : State) (height gaps : Int) : Int → List ConId → List SceneChild
  | _, [] => []
  | off, c :: cs =>
      let cwidth := truncInt (s.geo c).width
      let fits := decide (0 < cwidth) && decide (0 < height)
      { con := c
        x := off
        y := 0
        borderEnabled := true
        titleBar := none
        arranged := if fits then some (cwidth, height, true, gaps) else none } ::
        arrangeHoriz s height gaps (if fits then off + (cwidth + gaps) else off) cs

/-- `arrange_children`, on the state a transaction has made current. -/
def arrangeChildren (s : State) (layout : Layout) (children : List ConId) (active : Option ConId)
    (width height gaps : Int) : List SceneChild :=
  let barHeight := titleBarHeight s children
  match layout with
  | .tabbed =>
      arrangeTabs active width height barHeight ((width : ℚ) / children.length) 0 0 children
  | .stacked =>
      arrangeStack active width height barHeight (barHeight * children.length) 0 children
  | .vert => arrangeVert s width gaps 0 children
  | .horiz => arrangeHoriz s height gaps 0 children
  | .none => []

/-- The gaps that `arrange_workspace_tiling` hands down to the children of a column. -/
def sceneGaps (s : State) (col : ConId) : Int :=
  match (s.tree.con col).workspace with
  | some w => (s.wsGeo w).gapsInner
  | none => 0

/-- What `arrange_workspace_tiling` makes of the children of a column. -/
def arrangeColumnChildren (s : State) (col : ConId) (active : Option ConId) : List SceneChild :=
  arrangeChildren s (s.geo col).layout (s.tree.con col).children active
    (truncInt (s.geo col).width) (truncInt (s.geo col).height) (sceneGaps s col)

/-! ## The places of the layout -/

section Places

variable {s : State} {col c : ConId}

theorem y_placeWindow (col : Geometry) (y height : ℚ) (s : State) (c : ConId) :
    ((placeWindow col y height s c).geo c).y = col.y + y :=
  congrArg (fun e : ℚ × ℚ × ℚ × ℚ => e.2.1) (extent_placeWindow col y height s c)

/-- The windows stand above each other from an offset on, with the heights they have. -/
def Stacked (s : State) (top gap : ℚ) : ℚ → List ConId → Prop
  | _, [] => True
  | y, c :: cs => (s.geo c).y = top + y ∧ Stacked s top gap (y + ((s.geo c).height + gap)) cs

theorem Stacked.congr {t : State} {top gap y : ℚ} {cs : List ConId}
    (h : Stacked s top gap y cs) (hgeo : ∀ c ∈ cs, t.geo c = s.geo c) : Stacked t top gap y cs := by
  induction cs generalizing y with
  | nil => trivial
  | cons c cs ih =>
      have hc := hgeo c List.mem_cons_self
      refine ⟨by rw [hc]; exact h.1, ?_⟩
      rw [hc]
      exact ih h.2 fun d hd => hgeo d (List.mem_cons_of_mem c hd)

theorem stacked_placeWindows (col : Geometry) (gap : ℚ) (rs : List (ConId × ℚ)) (y : ℚ) (s : State)
    (hnodup : (rs.map Prod.fst).Nodup) :
    Stacked (placeWindows col gap y rs s) col.y gap y (rs.map Prod.fst) := by
  induction rs generalizing y s with
  | nil => trivial
  | cons r rs ih =>
      obtain ⟨hr, hnodup'⟩ := List.nodup_cons.mp hnodup
      -- the later rounds leave the window alone
      have hfirst : (placeWindows col gap y (r :: rs) s).geo r.1 =
          (placeWindow col y r.2 s r.1).geo r.1 :=
        (writes_placeWindows col gap rs _ _).geo r.1 hr
      refine ⟨?_, ?_⟩
      · rw [hfirst]
        exact y_placeWindow col y r.2 s r.1
      · rw [hfirst, height_placeWindow]
        exact ih (y + (r.2 + gap)) _ hnodup'

theorem columnGap_eq (s : State) (col : ConId) : columnGap s col = sceneGaps s col := by
  unfold columnGap sceneGaps
  cases (s.tree.con col).workspace with
  | none => simp
  | some w => rfl

/-- `viewport_arrange_windows` puts the windows above each other. -/
theorem stacked_viewportArrangeWindows (hnodup : (s.tree.con col).children.Nodup)
    (hview : (s.tree.con col).view = none) :
    Stacked (viewportArrangeWindows s col) (s.geo col).y (sceneGaps s col) 0
      (s.tree.con col).children := by
  have hstack := stacked_placeWindows (s.geo col) (columnGap s col) (heightsOf s col) 0 s
    (by rwa [heightsOf_fst])
  rwa [heightsOf_fst, ← viewportArrangeWindows_eq hview, columnGap_eq] at hstack

end Places

/-! ## The places in the scene -/

section Scene

variable {s : State} {col c : ConId} {width gaps : Int}

/-- The pixels by which the window below a window of some height comes too high in the scene: what
is behind the point of a height, or a whole window with its gap that is not shown. -/
def lostPixels (width gaps : Int) (height : ℚ) : ℚ :=
  if 1 ≤ width ∧ 1 ≤ height then Int.fract height else height + gaps

/-- One child takes the scene and the layout apart by the pixels lost. -/
theorem scene_step (width gaps off : Int) (y height : ℚ) :
    (((if (decide (0 < width) && decide (0 < truncInt height)) = true then
      off + (truncInt height + gaps) else off : Int) : ℚ) - (y + (height + gaps))) =
      (off - y) - lostPixels width gaps height := by
  have hshown : (decide (0 < width) && decide (0 < truncInt height)) = true ↔
      1 ≤ width ∧ 1 ≤ height := by
    rw [Bool.and_eq_true, decide_eq_true_iff, decide_eq_true_iff, truncInt_pos]
    rfl
  unfold lostPixels
  by_cases h : 1 ≤ width ∧ 1 ≤ height
  · rw [if_pos (hshown.mpr h), if_pos h]
    have htrunc : truncInt height = ⌊height⌋ := if_pos (by linarith [h.2])
    rw [htrunc]
    push_cast
    unfold Int.fract
    ring
  · rw [if_neg (mt hshown.mp h), if_neg h]
    ring

/-- How far the children are from their places in the layout. -/
theorem arrangeVert_close_iff {top : ℚ} (cs : List ConId) (off : Int) (y : ℚ)
    (h : Stacked s top gaps y cs) :
    (∀ p ∈ arrangeVert s width gaps off cs, |(p.y : ℚ) - ((s.geo p.con).y - top)| < 1) ↔
      ∀ k < cs.length, |((off : ℚ) - y) -
        ((cs.take k).map fun c => lostPixels width gaps (s.geo c).height).sum| < 1 := by
  induction cs generalizing off y with
  | nil =>
      refine iff_of_true (fun p hp => ?_) fun k hk => absurd hk (Nat.not_lt_zero k)
      cases hp
  | cons c cs ih =>
      obtain ⟨hfirst, hrest⟩ := h
      have htail := ih
        (if (decide (0 < width) && decide (0 < truncInt (s.geo c).height)) = true then
          off + (truncInt (s.geo c).height + gaps) else off) (y + ((s.geo c).height + gaps)) hrest
      rw [scene_step] at htail
      rw [arrangeVert, List.forall_mem_cons]
      dsimp only
      rw [hfirst, htail]
      constructor
      · rintro ⟨hhead, hall⟩ k hk
        cases k with
        | zero =>
            rw [List.take_zero, List.map_nil, List.sum_nil, sub_zero]
            rwa [add_sub_cancel_left] at hhead
        | succ k =>
            rw [List.take_succ_cons, List.map_cons, List.sum_cons, ← sub_sub]
            exact hall k (Nat.lt_of_succ_lt_succ hk)
      · intro hall
        refine ⟨?_, fun k hk => ?_⟩
        · have hzero := hall 0 (Nat.succ_pos _)
          rw [List.take_zero, List.map_nil, List.sum_nil, sub_zero] at hzero
          rwa [add_sub_cancel_left]
        · have hsucc := hall (k + 1) (Nat.succ_lt_succ hk)
          rwa [List.take_succ_cons, List.map_cons, List.sum_cons, ← sub_sub] at hsucc

/-- The windows above any window of a column lose less than a pixel together. -/
def LosesLessThanOne (width gaps : Int) (heights : List ℚ) : Prop :=
  ∀ k < heights.length, |((heights.take k).map (lostPixels width gaps)).sum| < 1

/-- Where all windows are shown, what is behind the points of their heights decides. -/
theorem losesLessThanOne_iff {heights : List ℚ} (hwidth : 1 ≤ width)
    (hshown : ∀ h ∈ heights, 1 ≤ h) : LosesLessThanOne width gaps heights ↔
      (heights.dropLast.map Int.fract).sum < 1 := by
  have hlost : ∀ l : List ℚ, l ⊆ heights →
      l.map (lostPixels width gaps) = l.map Int.fract := by
    intro l hl
    refine List.map_congr_left fun h hh => ?_
    unfold lostPixels
    rw [if_pos ⟨hwidth, hshown h (hl hh)⟩]
  have hnonneg : ∀ l : List ℚ, 0 ≤ (l.map Int.fract).sum := by
    intro l
    refine List.sum_nonneg fun x hx => ?_
    obtain ⟨h, -, rfl⟩ := List.mem_map.mp hx
    exact Int.fract_nonneg h
  unfold LosesLessThanOne
  rw [List.dropLast_eq_take]
  constructor
  · intro h
    cases hheights : heights with
    | nil => simp
    | cons x xs =>
        rw [← hheights]
        have hlast := h (heights.length - 1) (by rw [hheights]; simp)
        rw [hlost _ (List.take_subset _ _)] at hlast
        exact (abs_lt.mp hlast).2
  · intro h k hk
    rw [hlost _ (List.take_subset _ _), abs_of_nonneg (hnonneg _)]
    -- fewer windows lose less
    have hsplit := List.take_append_drop k (heights.take (heights.length - 1))
    rw [List.take_take, min_eq_left (Nat.le_sub_one_of_lt hk)] at hsplit
    rw [← hsplit, List.map_append, List.sum_append] at h
    have hrest := hnonneg ((heights.take (heights.length - 1)).drop k)
    linarith

end Scene

/-- Every child of a column is less than a pixel from its place in the layout. -/
def SceneMatches (s : State) (col : ConId) (active : Option ConId) : Prop :=
  ∀ p ∈ arrangeColumnChildren s col active,
    |(p.y : ℚ) - ((s.geo p.con).y - (s.geo col).y)| < 1

instance (s : State) (col : ConId) (active : Option ConId) :
    Decidable (SceneMatches s col active) :=
  inferInstanceAs (Decidable (∀ p ∈ _, _))

/-- **The scene and the layout of a column agree to a pixel** exactly if the windows above any
window lose less than a pixel together. -/
theorem sceneMatches_iff {s : State} {col : ConId} {active : Option ConId}
    (hs : s.tree.WellFormed) (hview : (s.tree.con col).view = none)
    (hlayout : (s.geo col).layout = .vert) :
    SceneMatches (viewportArrangeWindows s col) col active ↔
      LosesLessThanOne (truncInt (s.geo col).width) (sceneGaps s col)
        (columnHeights (columnLimitsOf s col) (max 0 (columnUsable s col))) := by
  have hnodup : (s.tree.con col).children.Nodup := hs.linked.nodup (.children col)
  have hwrites := writes_viewportArrangeWindows s col
  have hself : col ∉ (s.tree.con col).children := fun hmem =>
    hs.forest.not_below_self col (Lib.Under.of_parent (hs.linked.of_children hmem))
  have hgeo : (viewportArrangeWindows s col).geo col = s.geo col := hwrites.geo col hself
  have htree : (viewportArrangeWindows s col).tree = s.tree := hwrites.tree
  have hgaps : sceneGaps (viewportArrangeWindows s col) col = sceneGaps s col := by
    unfold sceneGaps
    rw [htree, hwrites.wsGeo]
  have hstack := stacked_viewportArrangeWindows hnodup hview
  have hheights := heights_viewportArrangeWindows hnodup hview
  have hlen : (columnHeights (columnLimitsOf s col) (max 0 (columnUsable s col))).length =
      (s.tree.con col).children.length := by
    rw [columnHeights_length, columnLimitsOf, List.length_map]
  unfold SceneMatches arrangeColumnChildren arrangeChildren LosesLessThanOne
  rw [hgeo, hlayout, htree, hgaps]
  dsimp only
  rw [arrangeVert_close_iff _ _ _ hstack, hlen]
  refine forall₂_congr fun k _ => ?_
  rw [← hheights, ← List.map_take, List.map_map, Int.cast_zero, sub_zero, zero_sub, abs_neg]
  rfl

/-- A column of three windows that share its height. -/
def threeStacked (height : ℚ) : State :=
  { State.outlined [⟨[(0, [1, 2, 3])], []⟩] with
    geo := fun _ => { Geometry.blank with layout := .vert, width := 500, height } }

theorem wellFormed_threeStacked (height : ℚ) : (threeStacked height).tree.WellFormed := by
  show (Tree.outlined [⟨[(0, [1, 2, 3])], []⟩]).WellFormed
  exact Tree.wellFormed_outlined (Tree.linked_outlined (by decide +kernel) (by decide +kernel))
    (by decide +kernel)

/-- In a column of 600 pixels, the windows have 200 each. -/
theorem sceneMatches_iff_even :
    SceneMatches (viewportArrangeWindows (threeStacked 600) 0) 0 none := by
  refine (sceneMatches_iff (wellFormed_threeStacked 600) (by decide +kernel) rfl).mpr ?_
  unfold LosesLessThanOne
  decide +kernel

/-- In a column of 800 pixels, the third window comes to 532 in the scene and to 533⅓ in the
layout. -/
theorem sceneMatches_third :
    ¬ ∀ (s : State) (col : ConId) (active : Option ConId), s.tree.WellFormed →
      (s.tree.con col).view = none → (s.geo col).layout = .vert →
      SceneMatches (viewportArrangeWindows s col) col active := by
  intro h
  have hmatches := h (threeStacked 800) 0 none (wellFormed_threeStacked 800) (by decide +kernel) rfl
  revert hmatches
  decide +kernel

end Swirl
