import Swirl.Tree.ArrangePair
import Swirl.Tree.FitColumn
import Swirl.Tree.SetFloating

set_option autoImplicit false

/-! # Maximizing a tiled window and back

`container_toggle_maximize` saves widths, height fractions and, of what is on no workspace, width
fractions of the columns and of the children of one column; when it is called again it writes them
back and arranges the workspace. For a window that was not maximized, and that is a child of a
column whose children are not side by side, this is the row as it was.
-/

namespace Swirl

open Lib

/-! ## The statement -/

/-- What the layout settles for a tiled container: its width and its height, with their
fractions. -/
def Geometry.shares (g : Geometry) : ℚ × ℚ × ℚ × ℚ :=
  (g.width, g.widthFraction, g.height, g.heightFraction)

/-- The row of a workspace is a fixed point of `arrange_workspace`. -/
def RowFixed (s : State) (w : WsId) : Prop :=
  ∀ d ∈ (s.tree.ws w).tiling.flatMap (withDescendants s.tree),
    ((arrangeWorkspace s w).geo d).shares = (s.geo d).shares

instance (s : State) (w : WsId) : Decidable (RowFixed s w) :=
  inferInstanceAs (Decidable (∀ d ∈ _, _))

/-- A view is tiled on a workspace that is at rest, with no container in fullscreen mode. -/
structure TiledAtRest (s : State) (w : WsId) (v : ConId) : Prop where
  wellFormed : s.tree.WellFormed
  awake : s.config.reloading = false
  output : ∃ o, (s.tree.ws w).output = some o
  noFullscreen : s.full.workspace w = none
  settled : RowFixed s w
  inRow : v ∈ rowViews s.tree w
  tiled : containerIsFloating s.tree v = false

/-- The columns have their widths and the windows their heights. -/
structure RowRestored (w : WsId) (s s' : State) : Prop where
  columns : ∀ c ∈ (s.tree.ws w).tiling, (s'.geo c).width = (s.geo c).width ∧
    (s'.geo c).widthFraction = (s.geo c).widthFraction
  windows : ∀ d ∈ rowViews s.tree w, (s'.geo d).height = (s.geo d).height ∧
    (s'.geo d).heightFraction = (s.geo d).heightFraction

theorem rowRestored_def (w : WsId) (s s' : State) : RowRestored w s s' ↔
    (∀ c ∈ (s.tree.ws w).tiling, (s'.geo c).width = (s.geo c).width ∧
      (s'.geo c).widthFraction = (s.geo c).widthFraction) ∧
    ∀ d ∈ rowViews s.tree w, (s'.geo d).height = (s.geo d).height ∧
      (s'.geo d).heightFraction = (s.geo d).heightFraction :=
  ⟨fun h => ⟨h.columns, h.windows⟩, fun h => ⟨h.1, h.2⟩⟩

instance (w : WsId) (s s' : State) : Decidable (RowRestored w s s') :=
  decidable_of_iff _ (rowRestored_def w s s').symm

/-- `container_toggle_maximize` twice. -/
def toggleTwice (s : State) (c : ConId) : State :=
  containerToggleMaximize (containerToggleMaximize s c) c

section Edits

variable {s s' s'' : State} {w : WsId} {c d : ConId} {cols kids : List ConId}

/-! ## What the edits write -/

/-- Only widths of some containers and height fractions of others are written. -/
structure Edited (cols kids : List ConId) (s s' : State) : Prop where
  backdrop : s'.backdrop = s.backdrop
  max : s'.max = s.max
  layout : ∀ d, (s'.geo d).layout = (s.geo d).layout
  height : ∀ d, (s'.geo d).height = (s.geo d).height
  wide : ∀ d, d ∉ cols → (s'.geo d).width = (s.geo d).width ∧
    (s'.geo d).widthFraction = (s.geo d).widthFraction
  tall : ∀ d, d ∉ kids → (s'.geo d).heightFraction = (s.geo d).heightFraction

namespace Edited

theorem refl (s : State) : Edited cols kids s s :=
  ⟨rfl, rfl, fun _ => rfl, fun _ => rfl, fun _ _ => ⟨rfl, rfl⟩, fun _ _ => rfl⟩

theorem trans (h : Edited cols kids s s') (h' : Edited cols kids s' s'') :
    Edited cols kids s s'' where
  backdrop := h'.backdrop.trans h.backdrop
  max := h'.max.trans h.max
  layout d := (h'.layout d).trans (h.layout d)
  height d := (h'.height d).trans (h.height d)
  wide d hd := ⟨(h'.wide d hd).1.trans (h.wide d hd).1, (h'.wide d hd).2.trans (h.wide d hd).2⟩
  tall d hd := (h'.tall d hd).trans (h.tall d hd)

theorem tree (h : Edited cols kids s s') : s'.tree = s.tree :=
  State.eq_of_backdrop State.tree h.backdrop fun _ => rfl

theorem foldl {α : Type} {f : State → α → State} {l : List α}
    (hstep : ∀ t, ∀ a ∈ l, Edited cols kids t (f t a)) : Edited cols kids s (l.foldl f s) :=
  foldl_invariant (I := fun t => Edited cols kids s t) f l
    (fun t a ha ht => ht.trans (hstep t a ha)) (refl s)

theorem modGeo (s : State) {f : Geometry → Geometry} (hl : (f (s.geo c)).layout = (s.geo c).layout)
    (hh : (f (s.geo c)).height = (s.geo c).height)
    (hw : c ∉ cols → (f (s.geo c)).width = (s.geo c).width ∧
      (f (s.geo c)).widthFraction = (s.geo c).widthFraction)
    (ht : c ∉ kids → (f (s.geo c)).heightFraction = (s.geo c).heightFraction) :
    Edited cols kids s (s.modGeo c f) := by
  have hself : (s.modGeo c f).geo c = f (s.geo c) := Function.update_self c _ _
  have hother : ∀ d, d ≠ c → (s.modGeo c f).geo d = s.geo d :=
    fun _ hd => Function.update_of_ne hd _ _
  refine ⟨rfl, rfl, fun d => ?_, fun d => ?_, fun d hd => ?_, fun d hd => ?_⟩
  · by_cases hdc : d = c
    · rw [hdc, hself, hl]
    · rw [hother d hdc]
  · by_cases hdc : d = c
    · rw [hdc, hself, hh]
    · rw [hother d hdc]
  · by_cases hdc : d = c
    · subst hdc
      rw [hself]
      exact hw hd
    · rw [hother d hdc]
      exact ⟨rfl, rfl⟩
  · by_cases hdc : d = c
    · subst hdc
      rw [hself]
      exact ht hd
    · rw [hother d hdc]

theorem columnSetWidthPx (s : State) (hc : c ∈ cols) (x : ℚ) :
    Edited cols kids s (columnSetWidthPx s c x) := by
  have hwidth : Edited cols kids s (s.modGeo c fun g => { g with width := x }) :=
    modGeo s rfl rfl (fun h => absurd hc h) fun _ => rfl
  unfold Swirl.columnSetWidthPx
  dsimp only
  split
  · split
    · exact hwidth.trans (modGeo _ rfl rfl (fun h => absurd hc h) fun _ => rfl)
    · exact hwidth
  · exact hwidth

theorem setHeightFraction (s : State) (hd : d ∈ kids) (x : ℚ) :
    Edited cols kids s (s.modGeo d fun g => { g with heightFraction := x }) :=
  modGeo s rfl rfl (fun _ => ⟨rfl, rfl⟩) fun h => absurd hd h

theorem maximizeColumn (s : State) (hc : c ∈ (s.tree.ws w).tiling) :
    Edited (s.tree.ws w).tiling kids s (maximizeColumn s w c) := by
  unfold Swirl.maximizeColumn
  dsimp only
  split
  · exact refl s
  · refine trans (foldl fun t d hd => ?_) (columnSetWidthPx _ hc _)
    exact columnSetWidthPx t (List.mem_filter.mp hd).1 _

theorem maximizeInColumn (s : State) (w : WsId) {col : ConId}
    (hc : c ∈ (s.tree.con col).children) :
    Edited cols (s.tree.con col).children s (maximizeInColumn s w col c) := by
  unfold Swirl.maximizeInColumn
  dsimp only
  split
  · exact refl s
  · refine trans (foldl fun t d hd => ?_) (setHeightFraction _ hc _)
    exact setHeightFraction t (List.mem_filter.mp hd).1 _

theorem restoreSnapshot (s : State) {m : MaximizeSnapshot} (hc : m.con ∈ cols)
    (hk : m.con ∈ kids) : Edited cols kids s (restoreSnapshot s m) := by
  unfold Swirl.restoreSnapshot
  dsimp only
  refine trans ?_ (setHeightFraction _ hk _)
  split
  · exact columnSetWidthPx s hc _
  · exact modGeo s rfl rfl (fun h => absurd hc h) fun _ => rfl

end Edited

/-- Writing back one entry touches nothing else. -/
theorem geo_restoreSnapshot_other (s : State) {m : MaximizeSnapshot} (hd : d ≠ m.con) :
    (restoreSnapshot s m).geo d = s.geo d := by
  unfold restoreSnapshot
  dsimp only
  show (Function.update _ m.con _) d = _
  rw [Function.update_of_ne hd]
  split
  · exact columnSetWidthPx_other s hd _
  · exact Function.update_of_ne hd _ _

theorem geo_restoreSnapshot_self (s : State) (m : MaximizeSnapshot) :
    ((restoreSnapshot s m).geo m.con).heightFraction = m.hf ∧
      ((s.tree.con m.con).workspace.isSome → ((restoreSnapshot s m).geo m.con).width = m.pxW) := by
  unfold restoreSnapshot
  dsimp only
  have hself : ∀ (t : State) (f : Geometry → Geometry),
      (t.modGeo m.con f).geo m.con = f (t.geo m.con) := fun t f => Function.update_self m.con _ _
  rw [hself]
  refine ⟨rfl, fun hws => ?_⟩
  rw [if_pos hws]
  exact columnSetWidthPx_self s m.con m.pxW

/-- **The snapshot brings back what it saved** of every container in it. -/
theorem geo_restoreAll {l : List ConId} {r : State} (hd : d ∈ l) :
    (((l.map (snapshotOf s)).foldl restoreSnapshot r).geo d).heightFraction =
        (s.geo d).heightFraction ∧
      ((r.tree.con d).workspace.isSome →
        (((l.map (snapshotOf s)).foldl restoreSnapshot r).geo d).width = (s.geo d).width) := by
  induction l generalizing r with
  | nil => cases hd
  | cons e l ih =>
      have hstep : Edited [e] [e] r (restoreSnapshot r (snapshotOf s e)) :=
        Edited.restoreSnapshot r (List.mem_singleton.mpr rfl) (List.mem_singleton.mpr rfl)
      rw [List.map_cons, List.foldl_cons]
      by_cases hmem : d ∈ l
      · have hrest := ih (r := restoreSnapshot r (snapshotOf s e)) hmem
        rwa [hstep.tree] at hrest
      · -- the later entries are not about `d`
        have hde : d = e := (List.mem_cons.mp hd).resolve_right hmem
        subst hde
        have hkeep : ((l.map (snapshotOf s)).foldl restoreSnapshot
            (restoreSnapshot r (snapshotOf s d))).geo d =
              (restoreSnapshot r (snapshotOf s d)).geo d := by
          refine foldl_invariant (I := fun t : State =>
            t.geo d = (restoreSnapshot r (snapshotOf s d)).geo d) _ _ ?_ rfl
          intro t m hm ht
          obtain ⟨e, he, rfl⟩ := List.mem_map.mp hm
          have hde : d ≠ (snapshotOf s e).con := by
            rintro rfl
            exact hmem he
          rw [geo_restoreSnapshot_other t hde, ht]
        rw [hkeep]
        exact geo_restoreSnapshot_self r (snapshotOf s d)

theorem edited_restoreAll (l : List ConId) (r : State) :
    Edited l l r ((l.map (snapshotOf s)).foldl restoreSnapshot r) := by
  refine Edited.foldl fun t m hm => ?_
  obtain ⟨e, he, rfl⟩ := List.mem_map.mp hm
  exact Edited.restoreSnapshot t he he

end Edits

/-! ## The two calls -/

/-- The snapshot of the first call. -/
def maximizeSnapshot (s : State) (w : WsId) (col : ConId) : List MaximizeSnapshot :=
  ((s.tree.ws w).tiling ++ (s.tree.con col).children).map (snapshotOf s)

/-- The first call up to the arrange pass. -/
def spread (s : State) (w : WsId) (col c : ConId) : State :=
  let s := s.modMax c fun m => { m with snapshot := some (maximizeSnapshot s w col) }
  (maximizeInColumn (maximizeColumn s w col) w col c).modMax c fun m => { m with maximized := true }

/-- The second call up to the arrange pass, with this snapshot. -/
def unspread (s : State) (c : ConId) (snapshot : List MaximizeSnapshot) : State :=
  (snapshot.foldl restoreSnapshot s).modMax c fun _ => { maximized := false, snapshot := none }

section Twice

variable {s : State} {w : WsId} {o : OutId} {v col d : ConId}

/-- A view that is a child of a top-level container of the row is a child of a column. -/
theorem TiledAtRest.column (h : TiledAtRest s w v) (hp : (s.tree.con v).parent = some col)
    (htop : (s.tree.con col).parent = none) :
    col ∈ (s.tree.ws w).tiling ∧ v ∈ (s.tree.con col).children := by
  refine ⟨?_, (h.wellFormed.forest.agree col v).mpr hp⟩
  have hrow := ((mem_rowViews h.wellFormed.forest).mp h.inRow).1
  cases hrow with
  | column hv =>
      rw [(h.wellFormed.linked.of_tiling hv).1] at hp
      cases hp
  | child hq hrow =>
      obtain rfl := Option.some.inj (hq.symm.trans hp)
      cases hrow with
      | column hcol => exact hcol
      | child hq _ =>
          rw [htop] at hq
          cases hq

/-- On the same tree, the toggle is about the same column. -/
theorem containerToggleMaximize_eq (h : TiledAtRest s w v)
    (hp : (s.tree.con v).parent = some col) (htop : (s.tree.con col).parent = none) {t : State}
    (ht : t.tree = s.tree) : containerToggleMaximize t v = toggleTiledMaximize t w col v := by
  obtain ⟨hcol, hv⟩ := h.column hp htop
  have hancestor : containerToplevelAncestor s.tree v = col := by
    have hend := h.wellFormed.forest.toplevel_parent v
    rcases h.wellFormed.forest.toplevel_above v with hself | habove
    · rw [hself, hp] at hend
      cases hend
    · obtain ⟨q, hq, hqa⟩ := under_iff.mp habove
      obtain rfl := Option.some.inj (hq.symm.trans hp)
      rcases hqa with heq | habove
      · exact heq.symm
      · exact absurd habove (Tree.not_hangsBelow_of_top htop)
  unfold containerToggleMaximize
  rw [ht, h.tiled, if_neg Bool.false_ne_true, hancestor]
  dsimp only
  rw [(h.wellFormed.linked.of_tiling hcol).2]

/-! ## The first call -/

theorem edited_spread (hcol : col ∈ (s.tree.ws w).tiling) (hv : v ∈ (s.tree.con col).children) :
    Edited (s.tree.ws w).tiling (s.tree.con col).children
      (s.modMax v fun m => { m with snapshot := some (maximizeSnapshot s w col) })
      (maximizeInColumn (maximizeColumn
        (s.modMax v fun m => { m with snapshot := some (maximizeSnapshot s w col) }) w col)
        w col v) := by
  set r := s.modMax v fun m => { m with snapshot := some (maximizeSnapshot s w col) }
  have hwidth : Edited (r.tree.ws w).tiling (s.tree.con col).children r (maximizeColumn r w col) :=
    Edited.maximizeColumn r hcol
  have hheight : Edited (r.tree.ws w).tiling ((maximizeColumn r w col).tree.con col).children
      (maximizeColumn r w col) (maximizeInColumn (maximizeColumn r w col) w col v) :=
    Edited.maximizeInColumn _ w (by rwa [hwidth.tree])
  rw [hwidth.tree] at hheight
  exact hwidth.trans hheight

theorem tree_spread (hcol : col ∈ (s.tree.ws w).tiling) (hv : v ∈ (s.tree.con col).children) :
    (spread s w col v).tree = s.tree :=
  State.eq_of_backdrop State.tree (edited_spread hcol hv).backdrop fun _ => rfl

theorem config_spread (hcol : col ∈ (s.tree.ws w).tiling) (hv : v ∈ (s.tree.con col).children) :
    (spread s w col v).config = s.config :=
  State.eq_of_backdrop State.config (edited_spread hcol hv).backdrop fun _ => rfl

theorem TiledAtRest.awake_spread (h : TiledAtRest s w v) (hcol : col ∈ (s.tree.ws w).tiling)
    (hv : v ∈ (s.tree.con col).children) : (spread s w col v).config.reloading = false := by
  rw [config_spread hcol hv, h.awake]

theorem full_spread (hcol : col ∈ (s.tree.ws w).tiling) (hv : v ∈ (s.tree.con col).children) :
    (spread s w col v).full = s.full :=
  State.eq_of_backdrop State.full (edited_spread hcol hv).backdrop fun _ => rfl

theorem max_spread (hcol : col ∈ (s.tree.ws w).tiling) (hv : v ∈ (s.tree.con col).children) :
    (spread s w col v).max v =
      { maximized := true, snapshot := some (maximizeSnapshot s w col) } := by
  have hmax := (edited_spread hcol hv).max
  unfold spread
  show Function.update _ v _ v = _
  rw [Function.update_self, hmax]
  show MaxState.mk _ (Function.update s.max v _ v).snapshot = _
  rw [Function.update_self]

theorem TiledAtRest.shares (h : TiledAtRest s w v) (hd : InRow s.tree w d) :
    ((arrangeWorkspace s w).geo d).shares = (s.geo d).shares := by
  refine h.settled d ?_
  rw [inRow_iff] at hd
  simpa only [List.mem_flatMap, h.wellFormed.forest.mem_withDescendants] using hd

/-- The pass of the first call beside the pass at rest: the widths of the columns and the height
fractions in one column differ, so that no box is the same. -/
def firstPass (hs : s.tree.WellFormed) (hcol : col ∈ (s.tree.ws w).tiling) : Comparison where
  tree := s.tree
  ws := w
  layout c := (s.geo c).layout
  wide c := c ∈ (s.tree.ws w).tiling
  tall c := c ∈ (s.tree.con col).children
  boxed := False
  linked := hs.linked
  columns_wide _ hc := hc
  wide_read p k hk hw := by
    have hparent := hs.linked.of_children hk
    rw [(hs.linked.of_tiling hw).1] at hparent
    cases hparent
  tall_read p k hk ht := by
    obtain ⟨htop, hws⟩ := hs.linked.of_tiling hcol
    have heq : p = col :=
      Option.some.inj ((hs.linked.of_children hk).symm.trans (hs.linked.of_children ht))
    rw [heq, hws]
    exact ⟨htop, rfl⟩
  boxed_tall hb := hb.elim

/-- **What the first call leaves of the row**: the width fractions below the columns, the height
fractions outside the column of the view, and the heights the pass does not write. -/
theorem first_call (h : TiledAtRest s w v) (ho : (s.tree.ws w).output = some o)
    (hcol : col ∈ (s.tree.ws w).tiling) (hv : v ∈ (s.tree.con col).children)
    (hd : InRow s.tree w d) :
    (d ∉ (s.tree.ws w).tiling →
      ((arrangeWorkspace (spread s w col v) w).geo d).widthFraction = (s.geo d).widthFraction) ∧
    (d ∉ (s.tree.con col).children →
      ((arrangeWorkspace (spread s w col v) w).geo d).heightFraction = (s.geo d).heightFraction) ∧
    ((∀ c ∈ (s.tree.ws w).tiling, d ≠ c ∧ d ∉ s.tree.placed (fun c => (s.geo c).layout) c) →
      ((arrangeWorkspace (spread s w col v) w).geo d).height = (s.geo d).height) := by
  have hedit := edited_spread hcol hv
  have htree := tree_spread hcol hv
  have hr := h.awake_spread hcol hv
  have hfull : (spread s w col v).full.workspace w = none := by
    rw [full_spread hcol hv, h.noFullscreen]
  have hagree : (firstPass h.wellFormed hcol).Agree s (spread s w col v) :=
    ⟨State.still_of_backdrop hedit.backdrop w, rfl, h.awake, fun _ => rfl, fun c => hedit.layout c,
      fun c _ hc => (hedit.wide c hc).2, fun c _ hc => hedit.tall c hc⟩
  have hpair := hagree.arrangedRow o fun hb => hb.elim
  have hshares := h.shares hd
  simp only [Geometry.shares, Prod.mk.injEq] at hshares
  obtain ⟨-, hwf, -, hhf⟩ := hshares
  have hgeo := geo_arrangeWorkspace (s := spread s w col v) (htree.symm ▸ h.wellFormed.linked) hr
    (htree.symm ▸ ho) hfull (htree.symm ▸ hd)
  have hgeo' := geo_arrangeWorkspace h.wellFormed.linked h.awake ho h.noFullscreen hd
  rw [hgeo'] at hwf hhf
  rw [hgeo]
  refine ⟨fun hwide => ?_, fun htall => ?_, fun hout => ?_⟩
  · exact (hpair.wf d hd hwide).trans hwf
  · exact (hpair.hf d hd htall).trans hhf
  · have hext := hagree.extent_arrangedRow o hd hout
    have hheight := congrArg (fun e : ℚ × ℚ × ℚ × ℚ => e.2.2.2) hext
    exact hheight.trans (hedit.height d)

/-! ## The second call -/

/-- The pass of the second call beside the pass at rest: nothing that it reads differs. -/
def secondPass (hs : s.tree.WellFormed) (w : WsId)
    (hlayout : (s.geo col).layout = .vert ∨ isTabbedOrStacked (s.geo col).layout) : Comparison where
  tree := s.tree
  ws := w
  layout c := (s.geo c).layout
  wide c := c ∈ (s.tree.ws w).tiling ++ (s.tree.con col).children
  tall _ := False
  boxed := True
  linked := hs.linked
  columns_wide _ hc := List.mem_append_left _ hc
  wide_read p k hk hw := by
    have hparent := hs.linked.of_children hk
    rcases List.mem_append.mp hw with hw | hw
    · rw [(hs.linked.of_tiling hw).1] at hparent
      cases hparent
    · have heq : p = col := Option.some.inj (hparent.symm.trans (hs.linked.of_children hw))
      rw [heq]
      constructor
      · intro hl
        rw [hl] at hlayout
        rcases hlayout with hlayout | hlayout <;> cases hlayout
      · intro hl
        rw [hl] at hlayout
        rcases hlayout with hlayout | hlayout <;> cases hlayout
  tall_read _ _ _ ht := ht.elim
  boxed_tall _ _ ht := ht

theorem agree_unspread (h : TiledAtRest s w v) (ho : (s.tree.ws w).output = some o)
    (hcol : col ∈ (s.tree.ws w).tiling) (hv : v ∈ (s.tree.con col).children)
    (hlayout : (s.geo col).layout = .vert ∨ isTabbedOrStacked (s.geo col).layout) :
    (secondPass h.wellFormed w hlayout).Agree s (unspread
      (arrangeWorkspace (spread s w col v) w) v (maximizeSnapshot s w col)) := by
  have hedit := edited_spread hcol hv
  have hr := h.awake_spread hcol hv
  have htree := tree_spread hcol hv
  have hlook := SameLook.arrangeWorkspace hr (htree.symm ▸ ho)
  have hstill := still_arrangeWorkspace hr (htree.symm ▸ ho)
  have hfirst := fun d (hd : InRow s.tree w d) => first_call h ho hcol hv hd
  generalize arrangeWorkspace (spread s w col v) w = a at hlook hstill hfirst ⊢
  have hrestore := edited_restoreAll (s := s)
    ((s.tree.ws w).tiling ++ (s.tree.con col).children) a
  refine ⟨?_, rfl, h.awake, fun _ => rfl, fun c => ?_, fun d hd hw => ?_, fun d hd _ => ?_⟩
  · exact (State.still_of_backdrop hrestore.backdrop w).trans
      (hstill.trans (State.still_of_backdrop hedit.backdrop w))
  · exact (hrestore.layout c).trans ((hlook.layout c).trans (hedit.layout c))
  · -- what is in no entry of the snapshot has the width fraction that the first call left
    obtain ⟨hrow, -⟩ := not_or.mp (mt List.mem_append.mpr hw)
    exact ((hrestore.wide d hw).2).trans ((hfirst d hd).1 hrow)
  · by_cases hmem : d ∈ (s.tree.ws w).tiling ++ (s.tree.con col).children
    · exact (geo_restoreAll hmem).1
    · obtain ⟨-, hkids⟩ := not_or.mp (mt List.mem_append.mpr hmem)
      exact (hrestore.tall d hmem).trans ((hfirst d hd).2.1 hkids)

theorem max_arrangeWorkspace (hr : s.config.reloading = false)
    (ho : (s.tree.ws w).output = some o) : (arrangeWorkspace s w).max = s.max := by
  rw [arrangeWorkspace_eq hr ho, (onlyGeometry_arrangeContents _ w o).max]
  exact (onlyGeometry_beforeGaps s w o).max.trans rfl

theorem width_unspread (h : TiledAtRest s w v) (ho : (s.tree.ws w).output = some o)
    (hcol : col ∈ (s.tree.ws w).tiling) (hv : v ∈ (s.tree.con col).children) {c : ConId}
    (hc : c ∈ (s.tree.ws w).tiling) : ((unspread (arrangeWorkspace (spread s w col v) w) v
      (maximizeSnapshot s w col)).geo c).width = (s.geo c).width := by
  have htree := tree_spread hcol hv
  have hr := h.awake_spread hcol hv
  refine (geo_restoreAll (s := s) (r := arrangeWorkspace (spread s w col v) w)
    (List.mem_append_left (s.tree.con col).children hc)).2 ?_
  rw [(kept_arrangeWorkspace hr (htree.symm ▸ ho)).1, htree, (h.wellFormed.linked.of_tiling hc).2]
  rfl

/-- The two calls are two edits, each with a pass after it. -/
theorem toggleTwice_eq (h : TiledAtRest s w v) (hmax : (s.max v).maximized = false)
    (hp : (s.tree.con v).parent = some col) (htop : (s.tree.con col).parent = none) :
    toggleTwice s v = arrangeWorkspace
      (unspread (arrangeWorkspace (spread s w col v) w) v (maximizeSnapshot s w col)) w := by
  obtain ⟨hcol, hv⟩ := h.column hp htop
  obtain ⟨o, ho⟩ := h.output
  have htree := tree_spread hcol hv
  have hr := h.awake_spread hcol hv
  have hfirst : containerToggleMaximize s v = arrangeWorkspace (spread s w col v) w := by
    rw [containerToggleMaximize_eq h hp htop rfl]
    unfold toggleTiledMaximize
    rw [if_neg (by rw [hmax]; exact Bool.false_ne_true)]
    rfl
  have harranged : (arrangeWorkspace (spread s w col v) w).tree = s.tree :=
    (kept_arrangeWorkspace hr (htree.symm ▸ ho)).1.trans htree
  have hrecord : (arrangeWorkspace (spread s w col v) w).max v =
      { maximized := true, snapshot := some (maximizeSnapshot s w col) } := by
    rw [max_arrangeWorkspace hr (htree.symm ▸ ho), max_spread hcol hv]
  unfold toggleTwice
  rw [hfirst, containerToggleMaximize_eq h hp htop harranged]
  unfold toggleTiledMaximize
  rw [hrecord, if_pos rfl]
  rfl

/-- **A state that agrees with a row at rest is arranged into that row.** -/
theorem rowRestored_of_agree (h : TiledAtRest s w v) (ho : (s.tree.ws w).output = some o)
    (hlayout : (s.geo col).layout = .vert ∨ isTabbedOrStacked (s.geo col).layout) {t : State}
    (hagree : (secondPass h.wellFormed w hlayout).Agree s t)
    (hwidth : ∀ c ∈ (s.tree.ws w).tiling, (t.geo c).width = (s.geo c).width)
    (hheight : ∀ d, InRow s.tree w d → (∀ c ∈ (s.tree.ws w).tiling,
      d ≠ c ∧ d ∉ s.tree.placed (fun c => (s.geo c).layout) c) →
        (t.geo d).height = (s.geo d).height) : RowRestored w s (arrangeWorkspace t w) := by
  have hpair := hagree.arrangedRow o fun _ => hwidth
  have htree : t.tree = s.tree := hagree.tree'
  have hr : t.config.reloading = false := by
    rw [State.eq_of_still State.config hagree.still fun _ => rfl, h.awake]
  have hfull : t.full.workspace w = none := by
    rw [State.eq_of_still State.full hagree.still fun _ => rfl, h.noFullscreen]
  have hgeo : ∀ d, InRow s.tree w d →
      (arrangeWorkspace t w).geo d = (arrangedRow t w o).geo d := fun d hd =>
    geo_arrangeWorkspace (htree.symm ▸ h.wellFormed.linked) hr (htree.symm ▸ ho) hfull
      (htree.symm ▸ hd)
  have hrest : ∀ d, InRow s.tree w d → ((arrangedRow s w o).geo d).shares = (s.geo d).shares := by
    intro d hd
    rw [← geo_arrangeWorkspace h.wellFormed.linked h.awake ho h.noFullscreen hd]
    exact h.shares hd
  constructor
  · intro c hc
    have hshares := hrest c (.column hc)
    simp only [Geometry.shares, Prod.mk.injEq] at hshares
    obtain ⟨hwidth', hfraction, -, -⟩ := hshares
    have hsame : ((arrangedRow t w o).geo c).width = ((arrangedRow s w o).geo c).width :=
      congrArg (fun e : ℚ × ℚ × ℚ × ℚ => e.2.2.1) (hpair.box trivial c ⟨c, hc, Or.inl rfl⟩)
    have hws : (readyForColumns t w o).wsGeo = (readyForColumns s w o).wsGeo :=
      (hagree.readyForColumns o).wsGeo
    rw [hgeo c (.column hc)]
    refine ⟨hsame.trans hwidth', ?_⟩
    -- the width fraction is computed from the width, on the same workspace
    rw [← hfraction, widthFraction_arrangedRow (htree.symm ▸ h.wellFormed.linked) (htree.symm ▸ hc),
      widthFraction_arrangedRow h.wellFormed.linked hc, hsame]
    unfold workspaceWidthToFraction
    rw [hws]
  · intro d hd
    have hrow := ((mem_rowViews h.wellFormed.forest).mp hd).1
    have hshares := hrest d hrow
    simp only [Geometry.shares, Prod.mk.injEq] at hshares
    obtain ⟨-, -, hheight', hfraction⟩ := hshares
    rw [hgeo d hrow]
    refine ⟨?_, (hpair.hf d hrow fun hf => hf).trans hfraction⟩
    by_cases hplaced : ∃ c ∈ (s.tree.ws w).tiling,
        d = c ∨ d ∈ s.tree.placed (fun c => (s.geo c).layout) c
    · have hbox := hpair.box trivial d hplaced
      exact (congrArg (fun e : ℚ × ℚ × ℚ × ℚ => e.2.2.2) hbox).trans hheight'
    · -- neither pass gives the window a box
      have hout : ∀ c ∈ (s.tree.ws w).tiling,
          d ≠ c ∧ d ∉ s.tree.placed (fun c => (s.geo c).layout) c := fun c hc =>
        ⟨fun heq => hplaced ⟨c, hc, Or.inl heq⟩, fun hmem => hplaced ⟨c, hc, Or.inr hmem⟩⟩
      have hext := hagree.extent_arrangedRow o hrow hout
      exact (congrArg (fun e : ℚ × ℚ × ℚ × ℚ => e.2.2.2) hext).trans (hheight d hrow hout)

/-- **For a window that is not maximized, in a column whose children are not side by side, two
calls of `container_toggle_maximize` bring back the row.** -/
theorem containerToggleMaximize_twice (h : TiledAtRest s w v) (hmax : (s.max v).maximized = false)
    (hp : (s.tree.con v).parent = some col) (htop : (s.tree.con col).parent = none)
    (hlayout : (s.geo col).layout = .vert ∨ isTabbedOrStacked (s.geo col).layout) :
    RowRestored w s (toggleTwice s v) := by
  obtain ⟨o, ho⟩ := h.output
  obtain ⟨hcol, hv⟩ := h.column hp htop
  have hrestore := edited_restoreAll (s := s)
    ((s.tree.ws w).tiling ++ (s.tree.con col).children) (arrangeWorkspace (spread s w col v) w)
  rw [toggleTwice_eq h hmax hp htop]
  refine rowRestored_of_agree h ho hlayout (agree_unspread h ho hcol hv hlayout) ?_ ?_
  · intro c hc
    exact width_unspread h ho hcol hv hc
  · -- the heights that no pass writes are in no edit either
    intro d hd hout
    exact (hrestore.height d).trans ((first_call h ho hcol hv hd).2.2 hout)

end Twice

/-! ## Where it fails -/

/-- A column of two windows beside a column of one, arranged. The column of two has this layout, and
its first window this share of the width. -/
def rowAtRest (l : Layout) (x : ℚ) : State :=
  arrangeWorkspace { State.outlined [⟨[(0, [1, 2]), (3, [4])], []⟩] with
    geo := fun c => { Geometry.blank with
      layout := if c = 0 then l else .vert, width := 500, heightFraction := 1 / 2,
      widthFraction := if c = 1 then x else 1 - x } } 0

theorem tree_rowAtRest (l : Layout) (x : ℚ) : (rowAtRest l x).tree =
    Tree.outlined [⟨[(0, [1, 2]), (3, [4])], []⟩] :=
  (kept_arrangeWorkspace (o := 1) rfl rfl).1

theorem wellFormed_rowAtRest (l : Layout) (x : ℚ) : (rowAtRest l x).tree.WellFormed := by
  rw [tree_rowAtRest]
  exact Tree.wellFormed_outlined (Tree.linked_outlined (by decide +kernel) (by decide +kernel))
    (by decide +kernel)

theorem tiledAtRest_stacked : TiledAtRest (rowAtRest .vert (1 / 2)) 0 1 :=
  ⟨wellFormed_rowAtRest _ _, by decide +kernel, ⟨1, by decide +kernel⟩, by decide +kernel,
    by decide +kernel, by decide +kernel, by decide +kernel⟩

/-- Two windows of a column that share its height have their shares again. -/
theorem containerToggleMaximize_twice_stacked : RowRestored 0 (rowAtRest .vert (1 / 2))
    (toggleTwice (rowAtRest .vert (1 / 2)) 1) := by
  have hparent : ((rowAtRest .vert (1 / 2)).tree.con 1).parent = some 0 := by decide +kernel
  exact containerToggleMaximize_twice tiledAtRest_stacked (by decide +kernel) hparent
    (by decide +kernel) (by decide +kernel)

/-- The row of a window that was maximized before, with the columns back at their old widths. -/
def maximizedBefore : State :=
  (rowAtRest .vert (1 / 2)).modMax 1 fun _ =>
    { maximized := true, snapshot := some (maximizeSnapshot (rowAtRest .vert (1 / 2)) 0 0) }

/-- The two columns inside another container, as `workspace_wrap_children` leaves them. -/
def wrappedTree : Tree :=
  let t := Tree.outlined [⟨[(0, [1, 2]), (3, [4])], []⟩]
  { t with
    con := fun c =>
      if c = 5 then { Links.blank with workspace := some 0, children := [0, 3] }
      else if c = 0 ∨ c = 3 then { t.con c with parent := some 5 }
      else t.con c
    ws := fun w => if w = 0 then { t.ws 0 with tiling := [5] } else WsLinks.blank
    nextCon := 6 }

def wrappedRow : State :=
  arrangeWorkspace { State.outlined [] with
    tree := wrappedTree
    geo := fun c => { Geometry.blank with
      layout := if c = 5 then .tabbed else .vert, width := 1000, heightFraction := 1 / 2 } } 0

theorem wellFormed_wrappedRow : wrappedRow.tree.WellFormed := by
  have htree : wrappedRow.tree = wrappedTree := (kept_arrangeWorkspace (o := 1) rfl rfl).1
  have hblank : ∀ c, 6 ≤ c → wrappedTree.con c = Links.blank := by
    intro c hc
    have hne : ∀ d < 6, c ≠ d := fun d hd hcd => absurd (hcd ▸ hc) (not_le.mpr hd)
    have hout : (Tree.outlined [⟨[(0, [1, 2]), (3, [4])], []⟩]).con c = Links.blank :=
      if_neg (not_lt.mpr (le_trans (by decide) hc))
    unfold wrappedTree
    dsimp only
    rw [if_neg (hne 5 (by decide)),
      if_neg (not_or.mpr ⟨hne 0 (by decide), hne 3 (by decide)⟩), hout]
  have hws : ∀ w, 1 ≤ w → (wrappedTree.ws w).tiling = [] ∧ (wrappedTree.ws w).floating = [] := by
    intro w hw
    have hblank : wrappedTree.ws w = WsLinks.blank :=
      if_neg fun h0 => absurd (h0 ▸ hw) (by decide)
    rw [hblank]
    exact ⟨rfl, rfl⟩
  rw [htree]
  refine Tree.WellFormedBut.of_bounds (fun c => if c = 5 then 0 else if c = 0 ∨ c = 3 then 1 else 2)
    (.of_bounds 6 1 (fun c hc => by rw [hblank c hc]; rfl) hws (by decide +kernel)
      (by decide +kernel)) hblank (by decide +kernel)

/-- A window that was maximized before is maximized again, the height fraction of a window that is
deeper in a column is not in the snapshot, and of two windows side by side the one that had no room
gets some. -/
theorem toggleTwice_moves :
    (TiledAtRest maximizedBefore 0 1 ∧
      ¬ RowRestored 0 maximizedBefore (toggleTwice maximizedBefore 1)) ∧
    (TiledAtRest wrappedRow 0 1 ∧ ¬ RowRestored 0 wrappedRow (toggleTwice wrappedRow 1)) ∧
    (TiledAtRest (rowAtRest .horiz (99 / 100)) 0 1 ∧
      ¬ RowRestored 0 (rowAtRest .horiz (99 / 100))
        (toggleTwice (rowAtRest .horiz (99 / 100)) 1)) := by
  refine ⟨⟨⟨wellFormed_rowAtRest .vert (1 / 2), ?_, ⟨1, ?_⟩, ?_, ?_, ?_, ?_⟩, ?_⟩,
    ⟨⟨wellFormed_wrappedRow, ?_, ⟨1, ?_⟩, ?_, ?_, ?_, ?_⟩, ?_⟩,
    ⟨⟨wellFormed_rowAtRest .horiz (99 / 100), ?_, ⟨1, ?_⟩, ?_, ?_, ?_, ?_⟩, ?_⟩⟩
  all_goals decide +kernel

end Swirl
