import Swirl.Tree.Containment

set_option autoImplicit false

/-! # Floating containers on an output that moves

`arrange_workspace` carries the floating containers along when its output has another place. It
scales their centres from the box inside the old gaps to the area without gaps, so that a container
comes along exactly only where the scaling leaves its centre alone.
-/

namespace Swirl

open Lib

variable {s t : State} {w : WsId} {o : OutId} {c d : ConId} {old new : Box}

/-! ## What the arrange pass does to a floating container -/

/-- A container without a parent keeps its extent when a container is arranged. -/
theorem extent_arrangeContainer (hs : s.tree.Linked) (hc : (s.tree.con c).parent = none)
    (d : ConId) : ((arrangeContainer s d).geo c).extent = (s.geo c).extent := by
  have hout : ¬ s.tree.Below d c := hs.not_below_top hc
  by_cases hd : c = d ∧ (s.tree.con d).view.isSome
  · obtain ⟨rfl, hview⟩ := hd
    unfold arrangeContainer
    rw [arrangeWithin, if_pos hview]
    split
    · rfl
    · exact extent_viewAutoconfigure s c c
  · rw [(writes_arrangeContainer s d).geo c (by rintro (h | h); exacts [hd h, hout h])]

theorem extent_arrangeColumns (hs : s.tree.Linked) (hc : c ∈ (s.tree.ws w).floating)
    (parent : Box) : ((workspaceArrangeColumns s w parent).geo c).extent = (s.geo c).extent := by
  have htop := (hs.of_floating hc).1
  have hrow : c ∉ (s.tree.ws w).tiling := fun hmem => hs.apart w c hmem hc
  unfold workspaceArrangeColumns
  dsimp only
  refine congrArg Geometry.extent (Writes.geo (D := fun d =>
    ∃ col ∈ (s.tree.ws w).tiling, d = col ∨ s.tree.Below col d) (Writes.foldl ?_) c ?_)
  · intro t ht r hr
    have htree : t.tree = s.tree := by rw [← ht]
    refine (writes_placeColumn w parent t r).mono fun d hd => ⟨r.1, (List.of_mem_zip hr).1, ?_⟩
    rwa [htree] at hd
  · rintro ⟨col, hcol, rfl | hbelow⟩
    · exact hrow hcol
    · exact hs.not_below_top htop hbelow

/-- Arranging what is on a workspace moves no floating container, except the fullscreen one. -/
theorem extent_arrangeContents (hs : s.tree.Linked) (hc : c ∈ (s.tree.ws w).floating) (o : OutId) :
    ((arrangeContents s w o).geo c).extent =
      if s.full.workspace w = some c then
        (((s.outGeo o).lx : ℚ), ((s.outGeo o).ly : ℚ), ((s.outGeo o).width : ℚ),
          ((s.outGeo o).height : ℚ))
      else (s.geo c).extent := by
  have htop := (hs.of_floating hc).1
  unfold arrangeContents
  cases hfs : s.full.workspace w with
  | some fs =>
      dsimp only
      set f : Geometry → Geometry := fun g =>
        { g with
          x := (s.outGeo o).lx, y := (s.outGeo o).ly, width := (s.outGeo o).width,
          height := (s.outGeo o).height } with hf
      rw [extent_arrangeContainer (s := s.modGeo fs f) hs htop]
      by_cases hcf : fs = c
      · rw [if_pos (congrArg some hcf), ← hcf]
        show (Function.update s.geo fs (f (s.geo fs)) fs).extent = _
        rw [Function.update_self]
        rfl
      · rw [if_neg fun h => hcf (Option.some.inj h), (Writes.modGeo s fs f).geo c (Ne.symm hcf)]
  | none =>
      rw [if_neg (by simp)]
      dsimp only
      set u := workspaceArrangeColumns s w (workspaceGetBox s w) with hu
      have hwrites := writes_workspaceArrangeColumns s w (workspaceGetBox s w)
      have hut : u.tree = s.tree := hwrites.tree
      refine Eq.trans ?_ (extent_arrangeColumns hs hc (workspaceGetBox s w))
      have hfold := foldl_invariant
        (I := fun t : State => t.tree = s.tree ∧ (t.geo c).extent = (u.geo c).extent)
        arrangeContainer (u.tree.ws w).floating (fun t d _ ht => ⟨?_, ?_⟩) ⟨hut, rfl⟩
      · exact hfold.2
      · exact (onlyGeometry_arrangeContainer t d).tree.trans ht.1
      · rw [extent_arrangeContainer (by rw [ht.1]; exact hs) (by rw [ht.1]; exact htop), ht.2]

/-- A fold over containers that each write no other one of them. -/
theorem exists_foldl_at {f : State → ConId → State} {l : List ConId} (hnodup : l.Nodup)
    (hc : c ∈ l) (honly : ∀ t, ∀ d ∈ l, OnlyGeometry s t → OnlyGeometry t (f t d))
    (hkeep : ∀ t, ∀ d ∈ l, OnlyGeometry s t → d ≠ c → (f t d).geo c = t.geo c) :
    ∃ t, OnlyGeometry s t ∧ t.geo c = s.geo c ∧ (l.foldl f s).geo c = (f t c).geo c := by
  obtain ⟨p, q, rfl⟩ := List.append_of_mem hc
  have hp : c ∉ p := fun hm => List.disjoint_of_nodup_append hnodup hm List.mem_cons_self
  have hq : c ∉ q := (List.nodup_cons.mp hnodup.of_append_right).1
  rw [List.foldl_append, List.foldl_cons]
  -- the containers before `c`, and then those behind it
  have hbefore := foldl_invariant (I := fun t => OnlyGeometry s t ∧ t.geo c = s.geo c) f p
    (fun t d hd ht => ⟨?_, ?_⟩) ⟨.refl s, rfl⟩
  · set u := p.foldl f s
    have hstep : OnlyGeometry s (f u c) := hbefore.1.trans (honly u c (by simp) hbefore.1)
    have hbehind := foldl_invariant
      (I := fun t => OnlyGeometry s t ∧ t.geo c = (f u c).geo c) f q
      (fun t d hd ht => ⟨?_, ?_⟩) ⟨hstep, rfl⟩
    · exact ⟨u, hbefore.1, hbefore.2, hbehind.2⟩
    · exact ht.1.trans (honly t d (by simp [hd]) ht.1)
    · rw [hkeep t d (by simp [hd]) ht.1 fun h => hq (h ▸ hd), ht.2]
  · exact ht.1.trans (honly t d (by simp [hd]) ht.1)
  · rw [hkeep t d (by simp [hd]) ht.1 fun h => hp (h ▸ hd), ht.2]

/-- A floating container gets the place `floating_fix_coordinates` gives it. -/
theorem extent_fixFloaters (hs : s.tree.Linked) (hc : c ∈ (s.tree.ws w).floating) (o : OutId)
    (old : Box) : ∃ t, OnlyGeometry s t ∧ t.geo c = s.geo c ∧
      ((fixFloaters s w o old).geo c).extent =
        ((floatingFixCoordinates t c old (workspaceGetBox s w)).geo c).extent := by
  have htop := (hs.of_floating hc).1
  obtain ⟨t, ht, hgeo, hfold⟩ := exists_foldl_at (f := fixFloater w o old)
    (hs.nodup (.floating w)) hc
    (fun t d _ _ => OnlyGeometry.of_writes (writes_fixFloater w o old t d))
    (fun t d _ ht hd => by
      refine (writes_fixFloater w o old t d).geo c ?_
      rintro (rfl | hbelow)
      · exact hd rfl
      · rw [ht.tree] at hbelow
        exact hs.not_below_top htop hbelow)
  refine ⟨t, ht, hgeo, (congrArg Geometry.extent hfold).trans ?_⟩
  have hbox : workspaceGetBox t w = workspaceGetBox s w := by
    unfold workspaceGetBox
    rw [ht.wsGeo]
  unfold fixFloater
  dsimp only
  rw [hbox]
  split
  · unfold State.modGeo
    dsimp only
    rw [Function.update_self]
    rfl
  · rfl

/-! ## Where `floating_fix_coordinates` puts a container -/

/-- A container without a parent is translated itself, once. -/
theorem extent_containerFloatingTranslate (hs : s.tree.Linked) (hc : (s.tree.con c).parent = none)
    (dx dy : ℚ) : ((containerFloatingTranslate s c dx dy).geo c).extent =
      ((s.geo c).x + dx, (s.geo c).y + dy, (s.geo c).width, (s.geo c).height) := by
  unfold containerFloatingTranslate
  rw [translateWithin]
  set f : Geometry → Geometry := fun g =>
    { g with x := g.x + dx, y := g.y + dy, contentX := g.contentX + dx,
             contentY := g.contentY + dy } with hf
  have hself : (s.modGeo c f).geo c = f (s.geo c) := Function.update_self _ _ _
  have hchildren : Writes (fun d => ∃ k ∈ (s.tree.con c).children, d = k ∨ s.tree.Below k d)
      (s.modGeo c f) ((s.tree.con c).children.foldl
        (fun u d => translateWithin s.tree.nextCon u d dx dy) (s.modGeo c f)) := by
    refine Writes.foldl fun t ht k hk => ?_
    have htree : t.tree = s.tree := by
      have h := congrArg State.tree ht
      exact h
    refine (writes_translateWithin _ t k dx dy).mono fun d hd => ⟨k, hk, ?_⟩
    rwa [htree] at hd
  have hout : ¬ ∃ k ∈ (s.tree.con c).children, c = k ∨ s.tree.Below k c := by
    rintro ⟨k, hk, rfl | hbelow⟩
    · rw [hs.of_children hk] at hc
      cases hc
    · exact hs.not_below_top hc hbelow
  have hgeo := (hchildren.geo c hout).trans hself
  have htree : (s.modGeo c f).tree = s.tree := rfl
  rw [htree, hgeo]
  rfl

/-- The new place: scaled from one box to the other, or in the middle of the new one. -/
def carried (old new : Box) (g : Geometry) : ℚ × ℚ :=
  if old.width = 0 ∨ old.height = 0 then
    (new.x + (new.width - g.width) / 2, new.y + (new.height - g.height) / 2)
  else
    (new.x + (g.x - old.x + g.width / 2) * new.width / old.width - g.width / 2,
      new.y + (g.y - old.y + g.height / 2) * new.height / old.height - g.height / 2)

/-- The workspace takes an area. -/
def onArea (s : State) (w : WsId) (area : Box) : State :=
  s.modWsGeo w fun k =>
    { k with width := area.width, height := area.height, x := area.x, y := area.y }

theorem wsGeo_onArea (s : State) (w : WsId) (area : Box) : (onArea s w area).wsGeo w =
    { s.wsGeo w with width := area.width, height := area.height, x := area.x, y := area.y } :=
  Function.update_self _ _ _

theorem workspaceGetBox_onArea (s : State) (w : WsId) (area : Box) :
    workspaceGetBox (onArea s w area) w = area := by
  unfold workspaceGetBox
  rw [wsGeo_onArea]
  dsimp only
  rw [truncInt_intCast, truncInt_intCast]

theorem extent_carried (hs : s.tree.Linked) (hc : c ∈ (s.tree.ws w).floating) (o : OutId)
    (old area : Box) : ((fixFloaters (onArea s w area) w o old).geo c).extent =
      ((carried old area (s.geo c)).1, (carried old area (s.geo c)).2, (s.geo c).width,
        (s.geo c).height) := by
  obtain ⟨htop, hws⟩ := hs.of_floating hc
  obtain ⟨t, ht, hgeo, hfix⟩ := extent_fixFloaters (s := onArea s w area) hs hc o old
  have htree : t.tree = s.tree := ht.tree
  rw [hfix, workspaceGetBox_onArea]
  have hgeo : t.geo c = s.geo c := hgeo
  unfold floatingFixCoordinates carried
  by_cases hzero : old.width = 0 ∨ old.height = 0
  · have hfloats : containerIsFloating t.tree c = true := by
      unfold containerIsFloating
      rw [htree, htop, hws]
      simp [hc]
    rw [if_pos hzero, if_pos hzero]
    unfold containerFloatingMoveToCenter
    rw [if_pos hfloats, htree, hws]
    dsimp only
    rw [extent_containerFloatingTranslate (by rw [htree]; exact hs) (by rw [htree]; exact htop),
      ht.wsGeo, wsGeo_onArea, hgeo]
    dsimp only
    rw [add_sub_cancel, add_sub_cancel]
  · rw [if_neg hzero, if_neg hzero]
    unfold State.modGeo
    dsimp only
    rw [Function.update_self, hgeo]
    rfl

/-! ## `arrange_workspace` -/

/-- The usable area of an output in the layout. -/
def areaOf (g : OutGeometry) : Box :=
  ⟨g.lx + g.usableArea.x, g.ly + g.usableArea.y, g.usableArea.width, g.usableArea.height⟩

/-- The workspace was arranged before, and its area is not where it was. -/
def Displaced (s : State) (w : WsId) (o : OutId) : Prop :=
  let k := s.wsGeo w
  ¬ (k.width = 0 ∧ k.height = 0) ∧
    (((areaOf (s.outGeo o)).x : ℚ) - (k.x - k.currentGaps.left) ≠ 0 ∨
      ((areaOf (s.outGeo o)).y : ℚ) - (k.y - k.currentGaps.top) ≠ 0)

instance (s : State) (w : WsId) (o : OutId) : Decidable (Displaced s w o) :=
  inferInstanceAs (Decidable (_ ∧ _))

/-- The workspace before it gets its gaps. -/
def beforeGaps (s : State) (w : WsId) (o : OutId) : State :=
  if Displaced s w o then fixFloaters (onArea s w (areaOf (s.outGeo o))) w o (workspaceGetBox s w)
  else onArea s w (areaOf (s.outGeo o))

theorem arrangeWorkspace_eq (hr : s.config.reloading = false)
    (ho : (s.tree.ws w).output = some o) :
    arrangeWorkspace s w = arrangeContents (workspaceAddGaps (beforeGaps s w o) w) w o := by
  unfold arrangeWorkspace beforeGaps Displaced onArea areaOf
  rw [if_neg (by rw [hr]; exact Bool.false_ne_true), ho]
  push_cast
  rfl

theorem onlyGeometry_beforeGaps (s : State) (w : WsId) (o : OutId) :
    OnlyGeometry (onArea s w (areaOf (s.outGeo o))) (beforeGaps s w o) := by
  unfold beforeGaps
  split
  · exact onlyGeometry_fixFloaters _ w o _
  · exact .refl _

/-- The extent of a floating container after an arrange pass. -/
theorem extent_arrangeWorkspace (hs : s.tree.Linked) (hr : s.config.reloading = false)
    (ho : (s.tree.ws w).output = some o) (hc : c ∈ (s.tree.ws w).floating) :
    ((arrangeWorkspace s w).geo c).extent =
      if s.full.workspace w = some c then
        (((s.outGeo o).lx : ℚ), ((s.outGeo o).ly : ℚ), ((s.outGeo o).width : ℚ),
          ((s.outGeo o).height : ℚ))
      else if Displaced s w o then
        ((carried (workspaceGetBox s w) (areaOf (s.outGeo o)) (s.geo c)).1,
          (carried (workspaceGetBox s w) (areaOf (s.outGeo o)) (s.geo c)).2, (s.geo c).width,
          (s.geo c).height)
      else (s.geo c).extent := by
  have honly := onlyGeometry_beforeGaps s w o
  have htree : (beforeGaps s w o).tree = s.tree := honly.tree
  have hfull : (beforeGaps s w o).full = s.full := honly.full
  have hout : (beforeGaps s w o).outGeo = s.outGeo := honly.outGeo
  rw [arrangeWorkspace_eq hr ho]
  rw [extent_arrangeContents (s := workspaceAddGaps (beforeGaps s w o) w) (by
    show (beforeGaps s w o).tree.Linked
    rw [htree]
    exact hs) (by
    show c ∈ ((beforeGaps s w o).tree.ws w).floating
    rw [htree]
    exact hc)]
  have hsame : (workspaceAddGaps (beforeGaps s w o) w).full = s.full ∧
      (workspaceAddGaps (beforeGaps s w o) w).outGeo = s.outGeo ∧
      (workspaceAddGaps (beforeGaps s w o) w).geo = (beforeGaps s w o).geo :=
    ⟨hfull, hout, rfl⟩
  rw [hsame.1, hsame.2.1, hsame.2.2]
  split
  · rfl
  · unfold beforeGaps
    split
    · exact extent_carried hs hc o _ _
    · rfl

/-- The workspace is as `arrange_workspace` leaves it on its output. -/
structure Arranged (s : State) (w : WsId) (o : OutId) : Prop where
  x : (s.wsGeo w).x = (areaOf (s.outGeo o)).x + (s.wsGeo w).currentGaps.left
  y : (s.wsGeo w).y = (areaOf (s.outGeo o)).y + (s.wsGeo w).currentGaps.top
  width : (s.wsGeo w).width = (areaOf (s.outGeo o)).width -
    ((s.wsGeo w).currentGaps.left + (s.wsGeo w).currentGaps.right)
  height : (s.wsGeo w).height = (areaOf (s.outGeo o)).height -
    ((s.wsGeo w).currentGaps.top + (s.wsGeo w).currentGaps.bottom)
  fullscreen : ∀ c ∈ (s.tree.ws w).floating, s.full.workspace w = some c →
    (s.geo c).x = (s.outGeo o).lx ∧ (s.geo c).y = (s.outGeo o).ly

theorem wsGeo_arrangeWorkspace (hr : s.config.reloading = false)
    (ho : (s.tree.ws w).output = some o) : ∃ g : SideGaps, (arrangeWorkspace s w).wsGeo w =
      { s.wsGeo w with
        currentGaps := g
        x := (areaOf (s.outGeo o)).x + g.left
        y := (areaOf (s.outGeo o)).y + g.top
        width := (areaOf (s.outGeo o)).width - (g.left + g.right)
        height := (areaOf (s.outGeo o)).height - (g.top + g.bottom) } := by
  refine ⟨currentGaps (beforeGaps s w o) w, ?_⟩
  rw [arrangeWorkspace_eq hr ho, (onlyGeometry_arrangeContents _ w o).wsGeo]
  unfold workspaceAddGaps State.modWsGeo
  dsimp only
  rw [Function.update_self, (onlyGeometry_beforeGaps s w o).wsGeo, wsGeo_onArea]

theorem kept_arrangeWorkspace (hr : s.config.reloading = false)
    (ho : (s.tree.ws w).output = some o) : (arrangeWorkspace s w).tree = s.tree ∧
      (arrangeWorkspace s w).full = s.full ∧ (arrangeWorkspace s w).outGeo = s.outGeo ∧
      (arrangeWorkspace s w).config = s.config := by
  have honly := onlyGeometry_beforeGaps s w o
  have hcontents := onlyGeometry_arrangeContents (workspaceAddGaps (beforeGaps s w o) w) w o
  rw [arrangeWorkspace_eq hr ho]
  exact ⟨hcontents.tree.trans honly.tree, hcontents.full.trans honly.full,
    hcontents.outGeo.trans honly.outGeo, hcontents.config.trans honly.config⟩

theorem arranged_arrangeWorkspace (hs : s.tree.Linked) (hr : s.config.reloading = false)
    (ho : (s.tree.ws w).output = some o) : Arranged (arrangeWorkspace s w) w o := by
  obtain ⟨htree, hfull, hout, -⟩ := kept_arrangeWorkspace hr ho
  obtain ⟨g, hg⟩ := wsGeo_arrangeWorkspace hr ho
  refine ⟨?_, ?_, ?_, ?_, fun c hc hfs => ?_⟩
  · rw [hg, hout]
  · rw [hg, hout]
  · rw [hg, hout]
  · rw [hg, hout]
  · rw [htree] at hc
    rw [hfull] at hfs
    have hextent := extent_arrangeWorkspace hs hr ho hc
    rw [if_pos hfs] at hextent
    rw [hout]
    exact ⟨congrArg Prod.fst hextent, congrArg (fun e => e.2.1) hextent⟩

/-! ## An output that moves -/

/-- An output goes to another place of the layout. -/
def moveOutput (s : State) (o : OutId) (dx dy : Int) : State :=
  { s with
    outGeo := Function.update s.outGeo o
      { s.outGeo o with lx := (s.outGeo o).lx + dx, ly := (s.outGeo o).ly + dy } }

@[simp] theorem full_moveOutput (s : State) (o : OutId) (dx dy : Int) :
    (moveOutput s o dx dy).full = s.full := rfl

@[simp] theorem geo_moveOutput (s : State) (o : OutId) (dx dy : Int) :
    (moveOutput s o dx dy).geo = s.geo := rfl

@[simp] theorem workspaceGetBox_moveOutput (s : State) (o : OutId) (dx dy : Int) (w : WsId) :
    workspaceGetBox (moveOutput s o dx dy) w = workspaceGetBox s w := rfl

theorem outGeo_moveOutput (s : State) (o : OutId) (dx dy : Int) :
    (moveOutput s o dx dy).outGeo o =
      { s.outGeo o with lx := (s.outGeo o).lx + dx, ly := (s.outGeo o).ly + dy } :=
  Function.update_self _ _ _

theorem areaOf_moveOutput (s : State) (o : OutId) (dx dy : Int) :
    areaOf ((moveOutput s o dx dy).outGeo o) =
      ⟨(areaOf (s.outGeo o)).x + dx, (areaOf (s.outGeo o)).y + dy, (areaOf (s.outGeo o)).width,
        (areaOf (s.outGeo o)).height⟩ := by
  rw [outGeo_moveOutput]
  unfold areaOf
  dsimp only
  congr 1 <;> ring

/-- The centre of the container stays when the box inside the gaps is scaled to the area without
gaps: it divides the box as the gaps on both sides do. Without a box, it is that of the area. -/
def KeepsCentre (s : State) (w : WsId) (o : OutId) (c : ConId) : Prop :=
  let k := s.wsGeo w
  let area := areaOf (s.outGeo o)
  let g := s.geo c
  if k.width = 0 ∨ k.height = 0 then
    ¬ (k.width = 0 ∧ k.height = 0) ∧ g.x + g.width / 2 = area.x + (area.width : ℚ) / 2 ∧
      g.y + g.height / 2 = area.y + (area.height : ℚ) / 2
  else
    (g.x + g.width / 2 - k.x) * (k.currentGaps.left + k.currentGaps.right) =
        k.currentGaps.left * k.width ∧
      (g.y + g.height / 2 - k.y) * (k.currentGaps.top + k.currentGaps.bottom) =
        k.currentGaps.top * k.height

/-- The container is arranged, and is the fullscreen one or stays where it is in its box. -/
def ComesAlong (s : State) (w : WsId) (o : OutId) (c : ConId) : Prop :=
  s.config.reloading = false ∧ (s.full.workspace w = some c ∨ KeepsCentre s w o c)

/-- A container moves by an offset. -/
def Shifted (s s' : State) (c : ConId) (dx dy : Int) : Prop :=
  (s'.geo c).x = (s.geo c).x + dx ∧ (s'.geo c).y = (s.geo c).y + dy

instance (s : State) (w : WsId) (o : OutId) (c : ConId) : Decidable (KeepsCentre s w o c) :=
  inferInstanceAs (Decidable (ite _ _ _))

instance (s : State) (w : WsId) (o : OutId) (c : ConId) : Decidable (ComesAlong s w o c) :=
  inferInstanceAs (Decidable (_ ∧ _))

/-- Scaling one axis shifts a container with the area exactly if it keeps the centre. -/
theorem scaled_eq_iff {start near far extent d : Int} {x size : ℚ} (hextent : extent ≠ 0) :
    ((start + d : Int) : ℚ) + (x - (start + near : Int) + size / 2) *
        ((extent + (near + far) : Int) : ℚ) / extent - size / 2 = x + d ↔
      (x + size / 2 - (start + near : Int)) * (near + far) = near * extent := by
  have hne : (extent : ℚ) ≠ 0 := Int.cast_ne_zero.mpr hextent
  push_cast
  constructor
  · intro h
    field_simp at h
    linarith
  · intro h
    field_simp
    linarith

theorem centred_eq_iff {start extent d : Int} {x size : ℚ} :
    ((start + d : Int) : ℚ) + (extent - size) / 2 = x + d ↔
      x + size / 2 = start + (extent : ℚ) / 2 := by
  push_cast
  constructor <;> intro h <;> linarith

section Moves

variable (hs : s.tree.Linked) (ho : (s.tree.ws w).output = some o) (harranged : Arranged s w o)

include harranged in
/-- On an output that moved, the workspace is displaced unless it has no area at all. -/
theorem displaced_moveOutput (dx dy : Int) : Displaced (moveOutput s o dx dy) w o ↔
    ¬ ((s.wsGeo w).width = 0 ∧ (s.wsGeo w).height = 0) ∧ (dx ≠ 0 ∨ dy ≠ 0) := by
  have hx : ((areaOf ((moveOutput s o dx dy).outGeo o)).x : ℚ) -
      ((s.wsGeo w).x - (s.wsGeo w).currentGaps.left) = dx := by
    rw [harranged.x, areaOf_moveOutput]
    push_cast
    ring
  have hy : ((areaOf ((moveOutput s o dx dy).outGeo o)).y : ℚ) -
      ((s.wsGeo w).y - (s.wsGeo w).currentGaps.top) = dy := by
    rw [harranged.y, areaOf_moveOutput]
    push_cast
    ring
  have hws : (moveOutput s o dx dy).wsGeo = s.wsGeo := rfl
  unfold Displaced
  dsimp only
  rw [hws, hx, hy, Int.cast_ne_zero, Int.cast_ne_zero]

include harranged in
/-- What an arrange pass does to the place of a container, on an output that moved. -/
theorem carried_eq_iff (dx dy : Int) (hbox : ¬ ((s.wsGeo w).width = 0 ∧ (s.wsGeo w).height = 0)) :
    carried (workspaceGetBox s w) (areaOf ((moveOutput s o dx dy).outGeo o)) (s.geo c) =
        ((s.geo c).x + dx, (s.geo c).y + dy) ↔ KeepsCentre s w o c := by
  have hx : truncInt (s.wsGeo w).x =
      (areaOf (s.outGeo o)).x + (s.wsGeo w).currentGaps.left := by
    rw [harranged.x]
    exact_mod_cast truncInt_intCast _
  have hy : truncInt (s.wsGeo w).y =
      (areaOf (s.outGeo o)).y + (s.wsGeo w).currentGaps.top := by
    rw [harranged.y]
    exact_mod_cast truncInt_intCast _
  have hwidth : (areaOf (s.outGeo o)).width = (s.wsGeo w).width +
      ((s.wsGeo w).currentGaps.left + (s.wsGeo w).currentGaps.right) := by
    rw [harranged.width]
    ring
  have hheight : (areaOf (s.outGeo o)).height = (s.wsGeo w).height +
      ((s.wsGeo w).currentGaps.top + (s.wsGeo w).currentGaps.bottom) := by
    rw [harranged.height]
    ring
  unfold carried KeepsCentre workspaceGetBox
  dsimp only
  rw [areaOf_moveOutput, hx, hy]
  dsimp only
  by_cases hzero : (s.wsGeo w).width = 0 ∨ (s.wsGeo w).height = 0
  · rw [if_pos hzero, if_pos hzero, Prod.mk.injEq, centred_eq_iff, centred_eq_iff,
      and_iff_right hbox]
  · obtain ⟨hw, hh⟩ := not_or.mp hzero
    rw [if_neg hzero, if_neg hzero, Prod.mk.injEq, hwidth, hheight, scaled_eq_iff hw,
      scaled_eq_iff hh, harranged.x, harranged.y]
    push_cast
    rfl

include hs ho harranged in
/-- One floating container moves with the output exactly if it comes along. -/
theorem shifted_iff (hc : c ∈ (s.tree.ws w).floating) (dx dy : Int) :
    Shifted s (arrangeWorkspace (moveOutput s o dx dy) w) c dx dy ↔
      (dx = 0 ∧ dy = 0) ∨ ComesAlong s w o c := by
  have hstill : ∀ t : State, (t.geo c).x = (s.geo c).x → (t.geo c).y = (s.geo c).y →
      (Shifted s t c dx dy ↔ dx = 0 ∧ dy = 0) := by
    intro t htx hty
    unfold Shifted
    rw [htx, hty, left_eq_add, left_eq_add, Int.cast_eq_zero, Int.cast_eq_zero]
  cases hr : s.config.reloading with
  | true =>
      have hsame : arrangeWorkspace (moveOutput s o dx dy) w = moveOutput s o dx dy :=
        if_pos hr
      rw [hsame, hstill (moveOutput s o dx dy) rfl rfl]
      refine ⟨Or.inl, fun h => h.resolve_right fun halong => ?_⟩
      have hno := halong.1
      rw [hr] at hno
      cases hno
  | false =>
      have hextent := extent_arrangeWorkspace (s := moveOutput s o dx dy) hs hr ho hc
      rw [full_moveOutput, geo_moveOutput, workspaceGetBox_moveOutput] at hextent
      by_cases hfs : s.full.workspace w = some c
      · -- the fullscreen container is at the corner of the output
        rw [if_pos hfs, outGeo_moveOutput] at hextent
        have hat := harranged.fullscreen c hc hfs
        refine iff_of_true ⟨?_, ?_⟩ (Or.inr ⟨hr, Or.inl hfs⟩)
        · rw [hat.1]
          have hx := congrArg Prod.fst hextent
          dsimp only at hx
          push_cast at hx
          exact hx
        · rw [hat.2]
          have hy := congrArg (fun e => e.2.1) hextent
          dsimp only at hy
          push_cast at hy
          exact hy
      · rw [if_neg hfs] at hextent
        by_cases hbox : (s.wsGeo w).width = 0 ∧ (s.wsGeo w).height = 0
        · rw [if_neg fun h => ((displaced_moveOutput harranged dx dy).mp h).1 hbox] at hextent
          rw [hstill _ (congrArg Prod.fst hextent) (congrArg (fun e => e.2.1) hextent)]
          refine ⟨Or.inl, fun h => h.resolve_right fun halong => ?_⟩
          have hsteady := halong.2.resolve_left hfs
          unfold KeepsCentre at hsteady
          dsimp only at hsteady
          rw [if_pos (Or.inl hbox.1)] at hsteady
          exact hsteady.1 hbox
        · by_cases hmoved : dx ≠ 0 ∨ dy ≠ 0
          · rw [if_pos ((displaced_moveOutput harranged dx dy).mpr ⟨hbox, hmoved⟩)] at hextent
            have hplace := carried_eq_iff (c := c) harranged dx dy hbox
            have hat : Shifted s (arrangeWorkspace (moveOutput s o dx dy) w) c dx dy ↔
                carried (workspaceGetBox s w) (areaOf ((moveOutput s o dx dy).outGeo o))
                  (s.geo c) = ((s.geo c).x + dx, (s.geo c).y + dy) := by
              rw [Prod.ext_iff]
              refine and_congr (Eq.congr_left ?_) (Eq.congr_left ?_)
              · exact congrArg Prod.fst hextent
              · exact congrArg (fun e => e.2.1) hextent
            rw [hat, hplace]
            constructor
            · exact fun h => Or.inr ⟨hr, Or.inr h⟩
            · rintro (⟨rfl, rfl⟩ | halong)
              · exact absurd hmoved (by simp)
              · exact halong.2.resolve_left hfs
          · rw [if_neg fun h => hmoved ((displaced_moveOutput harranged dx dy).mp h).2] at hextent
            obtain ⟨hdx, hdy⟩ := not_or.mp hmoved
            rw [not_not] at hdx hdy
            rw [hstill _ (congrArg Prod.fst hextent) (congrArg (fun e => e.2.1) hextent)]
            exact ⟨Or.inl, fun _ => ⟨hdx, hdy⟩⟩

include hs ho harranged in
/-- A container that comes along with the output still does so at its new place, with the same
gaps. -/
theorem ComesAlong.moved (hc : c ∈ (s.tree.ws w).floating) {dx dy : Int}
    (halong : ComesAlong s w o c)
    (hgaps : ((arrangeWorkspace (moveOutput s o dx dy) w).wsGeo w).currentGaps =
      (s.wsGeo w).currentGaps) :
    ComesAlong (arrangeWorkspace (moveOutput s o dx dy) w) w o c := by
  obtain ⟨hr, hcase⟩ := halong
  obtain ⟨-, hfull, hout, hconfig⟩ := kept_arrangeWorkspace (s := moveOutput s o dx dy) hr ho
  refine ⟨by rw [hconfig]; exact hr, ?_⟩
  rw [hfull, full_moveOutput]
  by_cases hfs : s.full.workspace w = some c
  · exact Or.inl hfs
  · have hsteady := hcase.resolve_left hfs
    have hshift := (shifted_iff hs ho harranged hc dx dy).mpr (Or.inr ⟨hr, Or.inr hsteady⟩)
    have hextent := extent_arrangeWorkspace (s := moveOutput s o dx dy) hs hr ho hc
    rw [full_moveOutput, if_neg hfs] at hextent
    have hsize : ((arrangeWorkspace (moveOutput s o dx dy) w).geo c).width = (s.geo c).width ∧
        ((arrangeWorkspace (moveOutput s o dx dy) w).geo c).height = (s.geo c).height := by
      split at hextent
      · exact ⟨congrArg (fun e => e.2.2.1) hextent, congrArg (fun e => e.2.2.2) hextent⟩
      · exact ⟨congrArg (fun e => e.2.2.1) hextent, congrArg (fun e => e.2.2.2) hextent⟩
    have hnew := arranged_arrangeWorkspace (s := moveOutput s o dx dy) hs hr ho
    set s' := arrangeWorkspace (moveOutput s o dx dy) w
    have harea : areaOf (s'.outGeo o) = ⟨(areaOf (s.outGeo o)).x + dx, (areaOf (s.outGeo o)).y + dy,
        (areaOf (s.outGeo o)).width, (areaOf (s.outGeo o)).height⟩ := by
      rw [hout, areaOf_moveOutput]
    have hx : (s'.wsGeo w).x = (s.wsGeo w).x + dx := by
      rw [hnew.x, harranged.x, hgaps, harea]
      push_cast
      ring
    have hy : (s'.wsGeo w).y = (s.wsGeo w).y + dy := by
      rw [hnew.y, harranged.y, hgaps, harea]
      push_cast
      ring
    have hwidth : (s'.wsGeo w).width = (s.wsGeo w).width := by
      rw [hnew.width, harranged.width, hgaps, harea]
    have hheight : (s'.wsGeo w).height = (s.wsGeo w).height := by
      rw [hnew.height, harranged.height, hgaps, harea]
    right
    unfold KeepsCentre at hsteady ⊢
    dsimp only at hsteady ⊢
    rw [hx, hy, hwidth, hheight, hgaps, harea, hshift.1, hshift.2, hsize.1, hsize.2]
    dsimp only
    push_cast
    split
    next hzero =>
      rw [if_pos hzero] at hsteady
      obtain ⟨hbox, hcx, hcy⟩ := hsteady
      exact ⟨hbox, by linarith, by linarith⟩
    next hzero =>
      rw [if_neg hzero] at hsteady
      obtain ⟨hcx, hcy⟩ := hsteady
      -- the offset of the container cancels with that of the box
      constructor
      · rw [← hcx]
        ring
      · rw [← hcy]
        ring

end Moves

/-- The floating containers move with the output, and get back to where they were when it does. -/
structure CarriesFloating (s : State) (w : WsId) (o : OutId) (dx dy : Int) : Prop where
  moves : ∀ c ∈ (s.tree.ws w).floating,
    Shifted s (arrangeWorkspace (moveOutput s o dx dy) w) c dx dy
  returns : ∀ c ∈ (s.tree.ws w).floating,
    Shifted s (arrangeWorkspace
      (moveOutput (arrangeWorkspace (moveOutput s o dx dy) w) o (-dx) (-dy)) w) c 0 0

/-- **The floating containers come along with an output that moves** exactly if it does not move
really, or each one's centre divides the box of the workspace as the gaps do. -/
theorem carriesFloating_iff {dx dy : Int} (hs : s.tree.Linked)
    (ho : (s.tree.ws w).output = some o) (harranged : Arranged s w o)
    (hgaps : ((arrangeWorkspace (moveOutput s o dx dy) w).wsGeo w).currentGaps =
      (s.wsGeo w).currentGaps) :
    CarriesFloating s w o dx dy ↔
      (dx = 0 ∧ dy = 0) ∨ ∀ c ∈ (s.tree.ws w).floating, ComesAlong s w o c := by
  have hmoves : (∀ c ∈ (s.tree.ws w).floating,
      Shifted s (arrangeWorkspace (moveOutput s o dx dy) w) c dx dy) ↔
      (dx = 0 ∧ dy = 0) ∨ ∀ c ∈ (s.tree.ws w).floating, ComesAlong s w o c := by
    by_cases hzero : dx = 0 ∧ dy = 0
    · refine iff_of_true (fun c hc => ?_) (Or.inl hzero)
      exact (shifted_iff hs ho harranged hc dx dy).mpr (Or.inl hzero)
    · rw [or_iff_right hzero]
      refine forall₂_congr fun c hc => ?_
      rw [shifted_iff hs ho harranged hc, or_iff_right hzero]
  constructor
  · exact fun h => hmoves.mp h.moves
  · intro hcond
    refine ⟨hmoves.mpr hcond, fun c hc => ?_⟩
    have hshift := hmoves.mpr hcond c hc
    cases hr : s.config.reloading with
    | true =>
        have hsame : arrangeWorkspace (moveOutput s o dx dy) w = moveOutput s o dx dy := if_pos hr
        have hback : arrangeWorkspace (moveOutput (moveOutput s o dx dy) o (-dx) (-dy)) w =
            moveOutput (moveOutput s o dx dy) o (-dx) (-dy) := if_pos hr
        rw [hsame, hback]
        unfold Shifted
        simp
    | false =>
        obtain ⟨htree, -, -, -⟩ := kept_arrangeWorkspace (s := moveOutput s o dx dy) hr ho
        have hnew := arranged_arrangeWorkspace (s := moveOutput s o dx dy) hs hr ho
        set s' := arrangeWorkspace (moveOutput s o dx dy) w
        have htree : s'.tree = s.tree := htree
        have hagain :
            Shifted s' (arrangeWorkspace (moveOutput s' o (-dx) (-dy)) w) c (-dx) (-dy) := by
          refine (shifted_iff (by rw [htree]; exact hs) (by rw [htree]; exact ho) hnew
            (by rw [htree]; exact hc) (-dx) (-dy)).mpr ?_
          rcases hcond with ⟨rfl, rfl⟩ | halong
          · exact Or.inl ⟨neg_zero, neg_zero⟩
          · exact Or.inr ((halong c hc).moved hs ho harranged hc hgaps)
        unfold Shifted at hshift hagain ⊢
        rw [hagain.1, hagain.2, hshift.1, hshift.2]
        push_cast
        constructor <;> ring

/-- A floating window of 200 by 100 pixels on a workspace that gets gaps of 10 pixels. -/
def floatingStart (x y : ℚ) : State :=
  let s := State.outlined [⟨[], [0]⟩]
  { s with
    wsGeo := fun w => { s.wsGeo w with gapsInner := 10 }
    geo := fun _ => { Geometry.blank with x, y, width := 200, height := 100 } }

/-- The workspace has its gaps. -/
def floatingAt (x y : ℚ) : State := arrangeWorkspace (floatingStart x y) 0

theorem linked_floatingStart (x y : ℚ) : (floatingStart x y).tree.Linked := by
  show (Tree.outlined [⟨[], [0]⟩]).Linked
  exact Tree.linked_outlined (by decide +kernel) (by decide +kernel)

theorem linked_floatingAt (x y : ℚ) : (floatingAt x y).tree.Linked := by
  unfold floatingAt
  rw [tree_arrangeWorkspace]
  exact linked_floatingStart x y

theorem arranged_floatingAt (x y : ℚ) : Arranged (floatingAt x y) 0 1 :=
  arranged_arrangeWorkspace (linked_floatingStart x y) rfl rfl

/-- In the middle of the workspace, the window comes along. -/
theorem carriesFloating_iff_middle : CarriesFloating (floatingAt 400 350) 0 1 100 0 := by
  refine (carriesFloating_iff (linked_floatingAt 400 350) (by decide +kernel)
    (arranged_floatingAt 400 350) (by decide +kernel)).mpr (Or.inr ?_)
  decide +kernel

/-- Elsewhere, the window is scaled away from the middle. -/
theorem carriesFloating_corner :
    ¬ ∀ (s : State) (w : WsId) (o : OutId) (dx dy : Int), s.tree.Linked →
      (s.tree.ws w).output = some o → Arranged s w o →
      ((arrangeWorkspace (moveOutput s o dx dy) w).wsGeo w).currentGaps =
        (s.wsGeo w).currentGaps → CarriesFloating s w o dx dy := by
  intro h
  have hmoves := (h (floatingAt 50 60) 0 1 100 0 (linked_floatingAt 50 60) (by decide +kernel)
    (arranged_floatingAt 50 60) (by decide +kernel)).moves 0 (by decide +kernel)
  have hx : ((arrangeWorkspace (moveOutput (floatingAt 50 60) 1 100 0) 0).geo 0).x ≠
      ((floatingAt 50 60).geo 0).x + 100 := by
    decide +kernel
  exact hx hmoves.1

end Swirl
