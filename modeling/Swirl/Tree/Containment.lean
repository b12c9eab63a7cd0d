import Swirl.Tree.ArrangeColumns
import Swirl.Tree.WellFormed

set_option autoImplicit false

/-! # Containers inside their columns

After `arrange_workspace` the windows of a column should lie within the horizontal extent of the
column. The windows of a vertical column get exactly this extent. `apply_tabbed_layout` and
`apply_stacked_layout` place the children at the left edge of the whole layout, where the others
use the left edge of the parent, and `viewport_arrange_windows` arranges nothing below the children
of a column.
-/

namespace Swirl

open Lib

/-- The box of a container. -/
def Geometry.extent (g : Geometry) : ℚ × ℚ × ℚ × ℚ := (g.x, g.y, g.width, g.height)

/-- What an arrange pass reads of a container: its layout, its fractions and its extent. -/
def Geometry.frame (g : Geometry) : Layout × ℚ × ℚ × (ℚ × ℚ × ℚ × ℚ) :=
  (g.layout, g.widthFraction, g.heightFraction, g.extent)

/-- The horizontal extent of a box. -/
def Geometry.across (g : Geometry) : ℚ × ℚ := (g.x, g.width)

/-- The horizontal extent of a box lies within that of another. -/
def Geometry.Inside (g k : Geometry) : Prop := k.x ≤ g.x ∧ g.x + g.width ≤ k.x + k.width

/-- The layouts of columns. -/
def isColumnLayout (l : Layout) : Bool := decide (l = .vert) || isTabbedOrStacked l

/-- All that hangs below the columns of a workspace lies inside them. -/
def ColumnsContain (s : State) (w : WsId) : Prop :=
  ∀ col ∈ (s.tree.ws w).tiling, isColumnLayout (s.geo col).layout →
    ∀ d, s.tree.Below col d → (s.geo d).Inside (s.geo col)

/-- A column of windows, one above the other. -/
def PlainColumn (s : State) (col : ConId) : Prop :=
  (s.tree.con col).children = [] ∨
    ((s.tree.con col).view = none ∧ (s.geo col).layout = .vert ∧
      ∀ k ∈ (s.tree.con col).children, (s.tree.con k).children = [])

/-- A column with children that are shown one at a time. -/
def BarColumn (s : State) (col : ConId) : Prop :=
  (s.tree.con col).view = none ∧ isTabbedOrStacked (s.geo col).layout ∧
    (s.tree.con col).children ≠ []

/-! ## What hangs below a top-level container -/

section Below

variable {t : Tree} {c d f : ConId}

theorem Tree.Linked.hangsBelow (h : t.Linked) (hb : t.Below c d) : t.HangsBelow d c := by
  induction hb with
  | single hd => exact Under.of_parent (h.of_children hd)
  | tail _ hd ih => exact (Under.of_parent (h.of_children hd)).trans ih

theorem Tree.Linked.not_below_top (h : t.Linked) (hd : (t.con d).parent = none) :
    ¬ t.Below c d := by
  intro hb
  rcases Relation.TransGen.tail'_iff.mp hb with ⟨p, -, hp⟩
  rw [h.of_children hp] at hd
  cases hd

/-- A container hangs below one top-level container. -/
theorem Tree.Linked.below_unique (h : t.Linked) (hc : (t.con c).parent = none)
    (hf : (t.con f).parent = none) (hcd : t.Below c d) (hfd : t.Below f d) : c = f := by
  -- the last step of both paths is from the parent of `d`
  induction hcd with
  | single hd =>
      rcases Relation.TransGen.tail'_iff.mp hfd with ⟨p, hfp, hp⟩
      have heq : c = p := Option.some.inj
        ((h.of_children hd).symm.trans (h.of_children hp))
      subst heq
      rcases Relation.reflTransGen_iff_eq_or_transGen.mp hfp with heq | hbelow
      · exact heq
      · exact absurd hbelow (h.not_below_top hc)
  | tail hcp hd ih =>
      rcases Relation.TransGen.tail'_iff.mp hfd with ⟨q, hfq, hq⟩
      have heq := Option.some.inj ((h.of_children hd).symm.trans (h.of_children hq))
      subst heq
      rcases Relation.reflTransGen_iff_eq_or_transGen.mp hfq with heq | hbelow
      · subst heq
        exact absurd hcp (h.not_below_top hf)
      · exact ih hbelow

/-- Siblings do not hang below each other. -/
theorem Tree.WellFormedBut.siblings_apart {L : ConId → Prop} (h : t.WellFormedBut L)
    (hc : c ∈ (t.con f).children) (hd : d ∈ (t.con f).children) : ¬ t.Below c d := by
  intro hb
  have hcf : t.HangsBelow c f := Under.of_parent (h.linked.of_children hc)
  rcases Relation.TransGen.tail'_iff.mp hb with ⟨p, hcp, hp⟩
  have heq := Option.some.inj ((h.linked.of_children hd).symm.trans (h.linked.of_children hp))
  subst heq
  rcases Relation.reflTransGen_iff_eq_or_transGen.mp hcp with heq | hbelow
  · subst heq
    exact h.forest.not_below_self f hcf
  · exact h.forest.not_below_self f ((h.linked.hangsBelow hbelow).trans hcf)

end Below

/-! ## The passes that keep extents -/

theorem frame_edgeBorders (s : State) (c : ConId) (g : Geometry) :
    (edgeBorders s c g).frame = g.frame := by
  unfold edgeBorders
  dsimp only
  split
  · split
    · split <;> split <;> rfl
    · split <;> split <;> rfl
  · rfl

/-- A view is configured inside the box of its container. -/
theorem frame_viewAutoconfigure (s : State) (c d : ConId) :
    ((viewAutoconfigure s c).geo d).frame = (s.geo d).frame := by
  have hmod : ∀ f : Geometry → Geometry, (f (s.geo c)).frame = (s.geo c).frame →
      ((s.modGeo c f).geo d).frame = (s.geo d).frame := by
    intro f hf
    by_cases hd : d = c
    · subst hd
      rw [State.modGeo]
      simpa using hf
    · rw [(Writes.modGeo s c f).geo d hd]
  unfold viewAutoconfigure
  dsimp only
  split
  · rfl
  · split
    · exact hmod _ rfl
    · exact hmod _ rfl
    · refine hmod _ ?_
      have hborders := frame_edgeBorders s c (s.geo c)
      split <;> exact hborders

theorem extent_viewAutoconfigure (s : State) (c d : ConId) :
    ((viewAutoconfigure s c).geo d).extent = (s.geo d).extent :=
  congrArg (fun e : Layout × ℚ × ℚ × (ℚ × ℚ × ℚ × ℚ) => e.2.2.2) (frame_viewAutoconfigure s c d)

theorem across_viewAutoconfigure (s : State) (c d : ConId) :
    ((viewAutoconfigure s c).geo d).across = (s.geo d).across :=
  congrArg (fun e : ℚ × ℚ × ℚ × ℚ => (e.1, e.2.2.1)) (extent_viewAutoconfigure s c d)

/-- `arrange_container` gives new extents only to what hangs below the container. -/
theorem across_arrangeWithin (n : Nat) (s : State) {c d : ConId} (hd : ¬ s.tree.Below c d) :
    ((arrangeWithin n s c).geo d).across = (s.geo d).across := by
  by_cases hview : (s.tree.con c).view.isSome
  · cases n with
    | zero => rfl
    | succ n =>
        rw [arrangeWithin]
        split
        · rfl
        · exact across_viewAutoconfigure s c d
  · rw [(writes_arrangeWithin n s c).geo d]
    rintro (⟨-, h⟩ | h)
    · exact hview h
    · exact hd h

/-! ## One column -/

/-- A window gets its place in the column. -/
theorem extent_placeWindow (col : Geometry) (y height : ℚ) (s : State) (c : ConId) :
    ((placeWindow col y height s c).geo c).extent = (col.x, col.y + y, col.width, height) := by
  have hplaced : ((s.modGeo c fun g => { g with
      height, x := col.x, y := col.y + y, width := col.width }).geo c).extent =
        (col.x, col.y + y, col.width, height) := by
    rw [State.modGeo]
    simp [Geometry.extent]
  unfold placeWindow
  dsimp only
  split
  · rw [extent_viewAutoconfigure]
    exact hplaced
  · exact hplaced

theorem across_placeWindow (col : Geometry) (y height : ℚ) (s : State) (c : ConId) :
    ((placeWindow col y height s c).geo c).across = col.across :=
  congrArg (fun e : ℚ × ℚ × ℚ × ℚ => (e.1, e.2.2.1)) (extent_placeWindow col y height s c)

/-- The placement loop gives the windows the extent of the column. -/
theorem across_placeWindows (col : Geometry) (gap : ℚ) (rs : List (ConId × ℚ)) (y : ℚ) (s : State)
    (hnodup : (rs.map Prod.fst).Nodup) {c : ConId} (hc : c ∈ rs.map Prod.fst) :
    ((placeWindows col gap y rs s).geo c).across = col.across := by
  induction rs generalizing y s with
  | nil => cases hc
  | cons r rs ih =>
      obtain ⟨hr, hnodup'⟩ := List.nodup_cons.mp hnodup
      rcases List.mem_cons.mp hc with rfl | hmem
      · -- the later rounds leave the window alone
        rw [placeWindows, (writes_placeWindows col gap rs _ _).geo r.1 hr]
        exact across_placeWindow col y r.2 s r.1
      · exact ih _ _ hnodup' hmem

theorem across_viewportArrangeWindows {s : State} {col k : ConId}
    (hnodup : (s.tree.con col).children.Nodup) (hview : (s.tree.con col).view = none)
    (hk : k ∈ (s.tree.con col).children) :
    ((viewportArrangeWindows s col).geo k).across = (s.geo col).across := by
  have hne : ¬ ((s.tree.con col).view.isSome = true ∨ (s.tree.con col).children = []) := by
    rintro (h | h)
    · rw [hview] at h
      cases h
    · rw [h] at hk
      cases hk
  unfold viewportArrangeWindows
  dsimp only
  rw [if_neg hne]
  generalize max 0 ((s.geo col).height - _) = usableH
  generalize hheights : columnHeights ((s.tree.con col).children.map (windowLimits s)) usableH = hs
  have hlen : hs.length = (s.tree.con col).children.length := by
    rw [← hheights, columnHeights_length, List.length_map]
  have hfst : ((s.tree.con col).children.zip hs).map Prod.fst = (s.tree.con col).children :=
    List.map_fst_zip hlen.ge
  refine across_placeWindows _ _ _ _ _ ?_ ?_
  · rw [hfst]
    exact hnodup
  · rw [hfst]
    exact hk

theorem across_applyBarLayout (bars : Int) (s : State) (children : List ConId) (parent : Box)
    {k : ConId} (hk : k ∈ children) :
    ((applyBarLayout bars s children parent).geo k).across = (0, (parent.width : ℚ)) := by
  unfold applyBarLayout
  induction children using List.reverseRecOn with
  | nil => cases hk
  | append_singleton l c ih =>
      rw [List.foldl_append, List.foldl_cons, List.foldl_nil]
      dsimp only
      by_cases hkc : k = c
      · subst hkc
        simp [State.modGeo, Geometry.across]
      · rw [(Writes.modGeo _ c _).geo k hkc]
        refine ih ?_
        rcases List.mem_append.mp hk with h | h
        · exact h
        · exact absurd (List.mem_singleton.mp h) hkc

/-- The children of a tabbed or stacked column start at the left edge of the layout. -/
theorem across_arrangeColumn_bar {s : State} (hs : s.tree.WellFormed) {col k : ConId}
    (hr : s.config.reloading = false) (hbar : BarColumn s col)
    (hk : k ∈ (s.tree.con col).children) :
    ((arrangeColumn s col).geo k).across = (0, (truncInt (s.geo col).width : ℚ)) := by
  obtain ⟨hview, hlayout, -⟩ := hbar
  have hvert : (s.geo col).layout ≠ .vert := by
    intro h
    rw [h] at hlayout
    cases hlayout
  unfold arrangeColumn
  rw [if_neg (by simp [hview]), if_neg hvert, arrangeContainer, arrangeWithin,
    if_neg (by simp [hr]), if_neg (by simp [hview]), if_neg fun h => hvert h.2.2]
  dsimp only
  have hfirst : ((applyLayout s (s.tree.con col).children (s.geo col).layout
      (containerGetBox s col)).geo k).across = (0, (truncInt (s.geo col).width : ℚ)) := by
    unfold applyLayout
    cases hl : (s.geo col).layout with
    | tabbed => exact across_applyBarLayout 1 s _ _ hk
    | stacked => exact across_applyBarLayout _ s _ _ hk
    | horiz => simp [hl, isTabbedOrStacked] at hlayout
    | vert => simp [hl, isTabbedOrStacked] at hlayout
    | none => simp [hl, isTabbedOrStacked] at hlayout
  have htree := (writes_applyLayout s (s.tree.con col).children (s.geo col).layout
    (containerGetBox s col)).tree
  generalize applyLayout s (s.tree.con col).children (s.geo col).layout
    (containerGetBox s col) = u at hfirst htree ⊢
  rw [← hfirst]
  -- none of the children hangs below another
  refine (foldl_invariant (I := fun v : State => v.tree = s.tree ∧
    (v.geo k).across = (u.geo k).across) _ _ ?_ ⟨htree, rfl⟩).2
  intro v d hd hv
  refine ⟨(writes_arrangeWithin _ v d).tree.trans hv.1, ?_⟩
  rw [across_arrangeWithin _ _ ?_, hv.2]
  rw [hv.1]
  exact hs.siblings_apart hd hk

/-! ## The row -/

section Row

variable {s : State} {w : WsId}

/-- What the placement loop leaves of a column and below it was written in one round. -/
theorem exists_round (w : WsId) (parent : Box) (hs : s.tree.Linked) (rs : List (ConId × Int × Int))
    (hnodup : (rs.map Prod.fst).Nodup) (htop : ∀ c ∈ rs.map Prod.fst, (s.tree.con c).parent = none)
    {r : ConId × Int × Int} (hr : r ∈ rs) : ∃ t : State, OnlyGeometry s t ∧
      t.geo r.1 = s.geo r.1 ∧ ∀ d, d = r.1 ∨ s.tree.Below r.1 d →
        (rs.foldl (placeColumn w parent) s).geo d = (placeColumn w parent t r).geo d := by
  induction rs generalizing s with
  | nil => cases hr
  | cons q rs ih =>
      have hw := writes_placeColumn w parent s q
      obtain ⟨hq, hnodup'⟩ := List.nodup_cons.mp hnodup
      have hqtop := htop q.1 List.mem_cons_self
      rw [List.foldl_cons]
      rcases List.mem_cons.mp hr with rfl | hmem
      · refine ⟨s, OnlyGeometry.refl s, rfl, fun d hd => ?_⟩
        have hrest : Writes (fun d => ∃ p ∈ rs, d = p.1 ∨ s.tree.Below p.1 d)
            (placeColumn w parent s r)
            (rs.foldl (placeColumn w parent) (placeColumn w parent s r)) := by
          refine Writes.foldl fun t ht p hp => ?_
          have htree : t.tree = s.tree := by rw [← hw.tree, ← ht]
          refine (writes_placeColumn w parent t p).mono fun d hd => ⟨p, hp, ?_⟩
          rwa [htree] at hd
        refine hrest.geo d ?_
        rintro ⟨p, hp, hpd⟩
        have hpmem : p.1 ∈ rs.map Prod.fst := List.mem_map_of_mem hp
        have hptop := htop p.1 (List.mem_cons_of_mem _ hpmem)
        have hne : p.1 ≠ r.1 := fun h => hq (h ▸ hpmem)
        -- the columns are top-level containers, each with its own descendants
        rcases hd with rfl | hd
        · rcases hpd with h | h
          · exact hne h.symm
          · exact hs.not_below_top hqtop h
        · rcases hpd with rfl | h
          · exact hs.not_below_top hptop hd
          · exact hne (hs.below_unique hptop hqtop h hd)
      · have hrtop := htop r.1 (List.mem_cons_of_mem _ (List.mem_map_of_mem hmem))
        have htree := hw.tree
        obtain ⟨t, ht, hgeo, hfold⟩ := ih (s := placeColumn w parent s q) (htree.symm ▸ hs) hnodup'
          (fun c hc => htree.symm ▸ htop c (List.mem_cons_of_mem _ hc)) hmem
        refine ⟨t, (OnlyGeometry.of_writes hw).trans ht, hgeo.trans (hw.geo r.1 ?_), ?_⟩
        · rintro (h | h)
          · exact hq (h ▸ List.mem_map_of_mem hmem)
          · exact hs.not_below_top hrtop h
        · intro d hd
          exact hfold d (htree.symm ▸ hd)

/-- One column of an arranged row. -/
theorem exists_columnRound (parent : Box) (hs : s.tree.WellFormed) {col : ConId}
    (hcol : col ∈ (s.tree.ws w).tiling) : ∃ (t : State) (width : Int), OnlyGeometry s t ∧
      (t.geo col).layout = (s.geo col).layout ∧ (t.geo col).width = width ∧
      ∀ d, d = col ∨ s.tree.Below col d →
        (workspaceArrangeColumns s w parent).geo d = (arrangeColumn t col).geo d := by
  have hfst : ((s.tree.ws w).tiling.zip (rowPlaces s w parent)).map Prod.fst =
      (s.tree.ws w).tiling := List.map_fst_zip (rowPlaces_length s w parent).ge
  obtain ⟨r, hr, rfl⟩ := List.mem_map.mp (hfst.symm ▸ hcol)
  obtain ⟨t, ht, hgeo, hfold⟩ := exists_round w parent hs.linked
    ((s.tree.ws w).tiling.zip (rowPlaces s w parent)) (hfst.symm ▸ hs.linked.nodup (.tiling w))
    (fun c hc => (hs.linked.link (.tiling w) c (show c ∈ (s.tree.ws w).tiling by
      rwa [hfst] at hc)).1) hr
  refine ⟨setColumnBox w parent t r.1 r.2, r.2.2,
    ht.trans (.of_writes (writes_setColumnBox w parent t r.1 r.2)), ?_, ?_, hfold⟩
  · rw [← hgeo]
    unfold setColumnBox
    simp [State.modGeo]
  · unfold setColumnBox
    simp [State.modGeo]

/-- The floating containers are apart from the columns and what hangs below them. -/
theorem not_floating_of_column (hs : s.tree.WellFormed) {col d : ConId}
    (hcol : col ∈ (s.tree.ws w).tiling) (hd : d = col ∨ s.tree.Below col d) :
    ¬ ∃ c ∈ (s.tree.ws w).floating, d = c ∨ s.tree.Below c d := by
  rintro ⟨f, hf, hfd⟩
  have hcoltop : (s.tree.con col).parent = none := (hs.linked.link (.tiling w) col hcol).1
  have hftop : (s.tree.con f).parent = none := (hs.linked.link (.floating w) f hf).1
  have hne : col ≠ f := by
    rintro rfl
    have hlists : Tree.ListRef.tiling w = .floating w := hs.linked.unique hcol hf
    cases hlists
  rcases hd with rfl | hd
  · rcases hfd with h | h
    · exact hne h
    · exact hs.linked.not_below_top hcoltop h
  · rcases hfd with rfl | h
    · exact hs.linked.not_below_top hftop hd
    · exact hne (hs.linked.below_unique hcoltop hftop hd h)

/-- What the end of `arrange_workspace` leaves of a column and below it was written by arranging
the column. -/
theorem exists_columnContents (hs : s.tree.WellFormed) (hfull : s.full.workspace w = none)
    (o : OutId) {col : ConId} (hcol : col ∈ (s.tree.ws w).tiling) :
    ∃ (t : State) (width : Int), OnlyGeometry s t ∧ (t.geo col).layout = (s.geo col).layout ∧
      (t.geo col).width = width ∧ ∀ d, d = col ∨ s.tree.Below col d →
        (arrangeContents s w o).geo d = (arrangeColumn t col).geo d := by
  obtain ⟨t, width, ht, hlayout, hwidth, hgeo⟩ := exists_columnRound
    (workspaceGetBox s w) hs hcol
  refine ⟨t, width, ht, hlayout, hwidth, fun d hd => ?_⟩
  rw [← hgeo d hd]
  unfold arrangeContents
  rw [hfull]
  dsimp only
  have hrow : (workspaceArrangeColumns s w (workspaceGetBox s w)).tree = s.tree :=
    (writes_workspaceArrangeColumns s w _).tree
  refine (Writes.floating _ w fun t c => ?_).geo d ?_
  · refine (writes_arrangeContainer t c).mono ?_
    rintro e (⟨rfl, -⟩ | he)
    · exact Or.inl rfl
    · exact Or.inr he
  · rw [hrow]
    exact not_floating_of_column hs hcol hd

theorem exists_columnArranged (hs : s.tree.WellFormed) (hr : s.config.reloading = false)
    {o : OutId} (ho : (s.tree.ws w).output = some o) (hfull : s.full.workspace w = none)
    {col : ConId} (hcol : col ∈ (s.tree.ws w).tiling) : ∃ (t : State) (width : Int),
      t.tree = s.tree ∧ t.config.reloading = false ∧ (t.geo col).layout = (s.geo col).layout ∧
      (t.geo col).width = width ∧ ∀ d, d = col ∨ s.tree.Below col d →
        (arrangeWorkspace s w).geo d = (arrangeColumn t col).geo d := by
  have hmoved : ∀ s₂ : State, s₂.tree = s.tree → s₂.config = s.config → s₂.full = s.full →
      s₂.geo col = s.geo col → ∃ (t : State) (width : Int),
      t.tree = s.tree ∧ t.config.reloading = false ∧ (t.geo col).layout = (s.geo col).layout ∧
      (t.geo col).width = width ∧ ∀ d, d = col ∨ s.tree.Below col d →
        (arrangeContents (workspaceAddGaps s₂ w) w o).geo d = (arrangeColumn t col).geo d := by
    intro s₂ htree hconfig hfull₂ hgeo₂
    have htree' : (workspaceAddGaps s₂ w).tree = s.tree := htree
    have hfull' : (workspaceAddGaps s₂ w).full.workspace w = none :=
      (congrArg (fun f : Fullscreen => f.workspace w) hfull₂).trans hfull
    obtain ⟨t, width, ht, hlayout, hwidth, hgeo⟩ := exists_columnContents (htree'.symm ▸ hs) hfull'
      o (htree'.symm ▸ hcol)
    have hrest : t.config = (workspaceAddGaps s₂ w).config := by rw [← ht]
    refine ⟨t, width, ht.tree.trans htree', ?_, ?_, hwidth, fun d hd => hgeo d (htree'.symm ▸ hd)⟩
    · rw [hrest, show (workspaceAddGaps s₂ w).config = s.config from hconfig, hr]
    · rw [hlayout, ← hgeo₂]
      rfl
  unfold arrangeWorkspace
  rw [if_neg (by simp [hr]), ho]
  dsimp only
  split
  · -- the floating containers are moved with the workspace
    have hwrites : ∀ s₁ : State, s₁.tree = s.tree → s₁.config = s.config → s₁.full = s.full →
        s₁.geo = s.geo → ∀ box, (fixFloaters s₁ w o box).tree = s.tree ∧
          (fixFloaters s₁ w o box).config = s.config ∧ (fixFloaters s₁ w o box).full = s.full ∧
          (fixFloaters s₁ w o box).geo col = s.geo col := by
      intro s₁ htree hconfig hfull₁ hgeo box
      have hfix := writes_fixFloaters s₁ w o box
      refine ⟨hfix.tree.trans htree, hfix.config.trans hconfig, ?_, ?_⟩
      · exact (congrArg State.full hfix.rest).trans hfull₁
      · rw [← hgeo]
        refine hfix.geo col ?_
        rw [htree]
        exact not_floating_of_column hs hcol (Or.inl rfl)
    refine hmoved _ ?_ ?_ ?_ ?_
    · exact (hwrites (s.modWsGeo w _) rfl rfl rfl rfl _).1
    · exact (hwrites (s.modWsGeo w _) rfl rfl rfl rfl _).2.1
    · exact (hwrites (s.modWsGeo w _) rfl rfl rfl rfl _).2.2.1
    · exact (hwrites (s.modWsGeo w _) rfl rfl rfl rfl _).2.2.2
  · exact hmoved _ rfl rfl rfl rfl

end Row

section Workspace

variable {s : State} {w : WsId} {o : OutId} {col : ConId}

/-- The layout of a column stays. -/
theorem layout_arrangeWorkspace (hs : s.tree.WellFormed) (hr : s.config.reloading = false)
    (ho : (s.tree.ws w).output = some o) (hfull : s.full.workspace w = none)
    (hcol : col ∈ (s.tree.ws w).tiling) :
    ((arrangeWorkspace s w).geo col).layout = (s.geo col).layout := by
  have hself : ¬ s.tree.Below col col :=
    hs.linked.not_below_top (hs.linked.link (.tiling w) col hcol).1
  obtain ⟨t, width, htree, -, hlayout, -, hgeo⟩ := exists_columnArranged hs hr ho hfull hcol
  rw [hgeo col (Or.inl rfl), (writes_arrangeColumn t col).geo col (htree.symm ▸ hself), hlayout]

/-- Everything below a plain column has the extent of the column. -/
theorem inside_of_plainColumn (hs : s.tree.WellFormed) (hr : s.config.reloading = false)
    (ho : (s.tree.ws w).output = some o) (hfull : s.full.workspace w = none)
    (hcol : col ∈ (s.tree.ws w).tiling) (hplain : PlainColumn s col) {d : ConId}
    (hd : s.tree.Below col d) :
    ((arrangeWorkspace s w).geo d).Inside ((arrangeWorkspace s w).geo col) := by
  have hself : ¬ s.tree.Below col col :=
    hs.linked.not_below_top (hs.linked.link (.tiling w) col hcol).1
  obtain ⟨t, width, htree, -, hlayout, -, hgeo⟩ := exists_columnArranged hs hr ho hfull hcol
  rcases hplain with hnone | ⟨hview, hvert, hleaf⟩
  · rcases Relation.TransGen.head'_iff.mp hd with ⟨k, hk, -⟩
    rw [hnone] at hk
    cases hk
  · have hmem := Tree.below_of_leaves hleaf hd
    rw [hgeo col (Or.inl rfl), (writes_arrangeColumn t col).geo col (htree.symm ▸ hself),
      hgeo d (Or.inr hd)]
    have hsame : ((arrangeColumn t col).geo d).across = (t.geo col).across := by
      unfold arrangeColumn
      rw [if_neg (by rw [htree, hview]; simp), if_pos (hlayout.trans hvert)]
      refine across_viewportArrangeWindows ?_ ?_ ?_
      · rw [htree]
        exact hs.linked.nodup (.children col)
      · rw [htree, hview]
      · rw [htree]
        exact hmem
    have hx : ((arrangeColumn t col).geo d).x = (t.geo col).x := congrArg Prod.fst hsame
    have hwidth : ((arrangeColumn t col).geo d).width = (t.geo col).width :=
      congrArg Prod.snd hsame
    refine ⟨hx.ge, ?_⟩
    rw [hx, hwidth]

/-- The children of a tabbed or stacked column are as wide as the column and start at zero. -/
theorem barColumn_starts (hs : s.tree.WellFormed) (hr : s.config.reloading = false)
    (ho : (s.tree.ws w).output = some o) (hfull : s.full.workspace w = none)
    (hcol : col ∈ (s.tree.ws w).tiling) (hbar : BarColumn s col) {k : ConId}
    (hk : k ∈ (s.tree.con col).children) : ((arrangeWorkspace s w).geo k).across =
      (0, ((arrangeWorkspace s w).geo col).width) := by
  have hself : ¬ s.tree.Below col col :=
    hs.linked.not_below_top (hs.linked.link (.tiling w) col hcol).1
  obtain ⟨t, width, htree, hr', hlayout, hwidth, hgeo⟩ := exists_columnArranged hs hr ho hfull hcol
  rw [hgeo col (Or.inl rfl), (writes_arrangeColumn t col).geo col (htree.symm ▸ hself),
    hgeo k (Or.inr (Relation.TransGen.single hk))]
  have hbar' : BarColumn t col := by
    unfold BarColumn
    rwa [htree, hlayout]
  have htrunc : (truncInt ((width : Int) : ℚ) : ℚ) = width := by
    unfold truncInt
    split <;> simp
  rw [across_arrangeColumn_bar (htree.symm ▸ hs) hr' hbar' (htree.symm ▸ hk), hwidth, htrunc]

theorem tree_arrangeWorkspace (s : State) (w : WsId) : (arrangeWorkspace s w).tree = s.tree := by
  obtain ⟨single, h⟩ := core_arrangeWorkspace s w
  refine (congrArg Core.tree h).trans ?_
  unfold Core.measure
  split
  · rfl
  · split <;> rfl

/-- **Plain columns contain what hangs below them**, and a tabbed or stacked column contains its
children only at the left edge of the layout. -/
theorem columnsContain_arrangeWorkspace (s : State) (w : WsId) (o : OutId)
    (hs : s.tree.WellFormed) (hr : s.config.reloading = false)
    (ho : (s.tree.ws w).output = some o) (hfull : s.full.workspace w = none) :
    ((∀ col ∈ (s.tree.ws w).tiling, isColumnLayout (s.geo col).layout → PlainColumn s col) →
      ColumnsContain (arrangeWorkspace s w) w) ∧
    (ColumnsContain (arrangeWorkspace s w) w → ∀ col ∈ (s.tree.ws w).tiling, BarColumn s col →
      ((arrangeWorkspace s w).geo col).x = 0) := by
  have htree := tree_arrangeWorkspace s w
  constructor
  · intro hplain col hcol hlayout d hd
    rw [htree] at hcol hd
    rw [layout_arrangeWorkspace hs hr ho hfull hcol] at hlayout
    exact inside_of_plainColumn hs hr ho hfull hcol (hplain col hcol hlayout) hd
  · intro hcontain col hcol hbar
    have hlayout : isColumnLayout ((arrangeWorkspace s w).geo col).layout := by
      rw [layout_arrangeWorkspace hs hr ho hfull hcol, isColumnLayout, hbar.2.1, Bool.or_true]
    obtain ⟨k, hk⟩ := List.exists_mem_of_ne_nil _ hbar.2.2
    have hbelow : (arrangeWorkspace s w).tree.Below col k := by
      rw [htree]
      exact Relation.TransGen.single hk
    obtain ⟨hleft, hright⟩ := hcontain col (htree.symm ▸ hcol) hlayout k hbelow
    -- the child is as wide as the column, so both edges agree
    have hacross := barColumn_starts hs hr ho hfull hcol hbar hk
    have hx : ((arrangeWorkspace s w).geo k).x = 0 := congrArg Prod.fst hacross
    have hwidth : ((arrangeWorkspace s w).geo k).width = ((arrangeWorkspace s w).geo col).width :=
      congrArg Prod.snd hacross
    rw [hx] at hleft
    rw [hx, hwidth] at hright
    linarith

end Workspace

/-- Columns of windows contain their windows. -/
theorem columnsContain_twoColumns : ColumnsContain (arrangeWorkspace (twoColumns .vert) 0) 0 :=
  (columnsContain_arrangeWorkspace (twoColumns .vert) 0 1 (wellFormed_twoColumns .vert) rfl
    (by decide +kernel) rfl).1 fun col hcol _ => by
      have hplain : ∀ c ∈ ((twoColumns .vert).tree.ws 0).tiling,
          ((twoColumns .vert).tree.con c).view = none ∧
            ∀ k ∈ ((twoColumns .vert).tree.con c).children,
              ((twoColumns .vert).tree.con k).children = [] := by decide +kernel
      refine Or.inr ⟨(hplain col hcol).1, ?_, (hplain col hcol).2⟩
      show (if col = 2 then Layout.vert else .vert) = .vert
      exact ite_self _

/-- The minimum heights of the windows of every column and the gaps between them fit. -/
def MinimumHeightsFit (s : State) (w : WsId) : Prop :=
  ∀ col ∈ (s.tree.ws w).tiling,
    ((s.tree.con col).children.map (containerClampTiledHeightMin s)).sum ≤
      (s.geo col).height - (s.wsGeo w).gapsInner * ((s.tree.con col).children.length - 1)

/-- The second column starts at 500, and its window at 0, though all minimums fit. -/
theorem columnsContain_misses :
    MinimumsFit (arrangeWorkspace (twoColumns .tabbed) 0) 0
        (workspaceGetBox (arrangeWorkspace (twoColumns .tabbed) 0) 0) ∧
      MinimumHeightsFit (arrangeWorkspace (twoColumns .tabbed) 0) 0 ∧
      ¬ ColumnsContain (arrangeWorkspace (twoColumns .tabbed) 0) 0 := by
  refine ⟨by decide +kernel, by unfold MinimumHeightsFit; decide +kernel, fun h => ?_⟩
  have htree := tree_arrangeWorkspace (twoColumns .tabbed) 0
  have hbelow : (twoColumns .tabbed).tree.Below 2 3 := Relation.TransGen.single (by decide +kernel)
  have hinside := (h 2 (by rw [htree]; decide +kernel) (by decide +kernel) 3 (htree.symm ▸ hbelow)).1
  exact absurd hinside (by decide +kernel)

end Swirl
