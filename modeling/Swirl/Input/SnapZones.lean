import Swirl.Input.MoveFloating

set_option autoImplicit false

/-! # Where the zones are

The zones that `handle_pointer_motion` of `seatop_move_floating.c` activates are triggered by the
edges of the output under the cursor, and cut from the box of the workspace the container is on. The
two belong together where that workspace is the one the output shows.
-/

namespace Swirl

/-- The strips of the zone that fills the height only. -/
def Strips.isBottom (k : Strips) : Bool := !k.left && !k.right && !k.top && k.bottom

/-! ## What is claimed -/

/-- A zone that a motion activates lies inside a box and has a size; of the zone that fills the
height, this is said of the vertical extent. -/
def ZoneLands (s : State) (c : ConId) (k : Strips) (v : Box) (x y : ℚ) : Prop :=
  ∀ z, moveZone s c x y = some z → 0 < z.height ∧ z.Upright v ∧
    (k.isBottom = false → 0 < z.width ∧ z.Inside v)

/-- The two halves, and the four quadrants. -/
def halves : List Strips := [⟨true, false, false, false⟩, ⟨false, true, false, false⟩]

def quadrants : List Strips :=
  [⟨true, false, true, false⟩, ⟨false, true, true, false⟩, ⟨true, false, false, true⟩,
    ⟨false, true, false, true⟩]

/-- Zones of a workspace are disjoint. -/
def ZonesApart (b : Box) (g : Int) (con : Box) (ks : List Strips) : Prop :=
  ks.Pairwise fun k k' => ∀ z ∈ zoneOf b g con k, ∀ z' ∈ zoneOf b g con k', z.Apart z'

/-! ## Layouts -/

/-- The outputs do not overlap, the cursor is on one of them, which shows a workspace; the workspaces
lie within their outputs, and that of the container has a gap and is wider and higher than twice the
gap and two pixels. -/
structure ZoneLayout (s : State) (c : ConId) (o : OutId) (v : WsId) (x y : ℚ) : Prop where
  output : o ∈ s.tree.outputs
  cursor : (outputGetBox s o).Contains x y
  apart : ∀ p ∈ s.tree.outputs, ∀ q ∈ s.tree.outputs, p ≠ q →
    (outputGetBox s p).Apart (outputGetBox s q)
  shown : outputGetActiveWorkspace s o = some v
  home : (s.tree.ws v).output = some o
  usable : ∀ w, ∀ p ∈ s.tree.outputs, (s.tree.ws w).output = some p →
    (workspaceGetBox s w).Inside (outputGetBox s p)
  gap : ∀ w, (s.tree.con c).workspace = some w → 0 ≤ (s.wsGeo w).gapsInner
  wide : ∀ w, (s.tree.con c).workspace = some w →
    2 * (s.wsGeo w).gapsInner + 2 < (workspaceGetBox s w).width
  high : ∀ w, (s.tree.con c).workspace = some w →
    2 * (s.wsGeo w).gapsInner + 2 < (workspaceGetBox s w).height

/-- The part of a box that is cut out near some edges fits another box, edge by edge. -/
def SlotFits (b v : Box) (g : Int) (k : Strips) : Prop :=
  (if k.left then v.x ≤ b.x ∧ b.x + b.width / 2 - g / 2 ≤ v.x + v.width
    else if k.right then v.x ≤ b.x + b.width / 2 + g / 2 ∧ b.x + b.width ≤ v.x + v.width
    else k.top = true → v.x ≤ b.x ∧ b.x + b.width ≤ v.x + v.width) ∧
  (if (k.left || k.right) && k.top then
      v.y ≤ b.y ∧ b.y + b.height / 2 - g / 2 ≤ v.y + v.height
    else if (k.left || k.right) && k.bottom then
      v.y ≤ b.y + b.height / 2 + g / 2 ∧ b.y + b.height ≤ v.y + v.height
    else v.y ≤ b.y ∧ b.y + b.height ≤ v.y + v.height)

/-- The zone belongs to the output under the cursor: the cursor is near no edge; or the workspace of
the container is the one that is shown there; or it is another one whose box fits there as far as
the zone goes, and which is not on another output unless the zone only fills the height. -/
def ZoneBelongs (s : State) (c : ConId) (o : OutId) (v : WsId) (x y : ℚ) : Prop :=
  let k := (outputGetBox s o).strips x y
  ∀ w, (s.tree.con c).workspace = some w →
    k = ⟨false, false, false, false⟩ ∨ w = v ∨
    (SlotFits (workspaceGetBox s w) (workspaceGetBox s v) (s.wsGeo w).gapsInner k ∧
      (k.isBottom = false → ∀ p ∈ s.tree.outputs, (s.tree.ws w).output = some p → p = o))

section Zones

variable {s : State} {c : ConId} {o : OutId} {v w : WsId} {x y : ℚ} {b con : Box} {g : Int}
variable {k : Strips}

/-- The output under the cursor activates the zones. -/
theorem triggerBox_eq (h : ZoneLayout s c o v x y) (w : WsId) :
    triggerBox s w x y = outputGetBox s o := by
  unfold triggerBox
  cases hfind : s.tree.outputs.find? fun o => decide ((outputGetBox s o).Contains x y) with
  | none =>
      have hnone := List.find?_eq_none.1 hfind o h.output
      exact absurd (decide_eq_true h.cursor) hnone
  | some p =>
      have hp : (outputGetBox s p).Contains x y := by
        have hfound := List.find?_some hfind
        exact of_decide_eq_true hfound
      by_cases hpo : p = o
      · rw [hpo]
      · exact absurd ⟨hp, h.cursor⟩ (h.apart p (List.mem_of_find?_eq_some hfind) o h.output hpo x y)

/-- **Where a zone is**: what it takes of the box of its workspace has a size, and lies inside another
box exactly where it fits there. -/
theorem zoneOf_inside_iff (hg : 0 ≤ g) (hwide : 2 * g + 2 < b.width) (hhigh : 2 * g + 2 < b.height)
    {z : Box} (hz : zoneOf b g con k = some z) (u : Box) :
    (0 < z.height ∧ z.Upright u ∧ (k.isBottom = false → 0 < z.width ∧ z.Inside u)) ↔
      SlotFits b u g k := by
  have hw : b.width.tdiv 2 = b.width / 2 := Int.tdiv_eq_ediv_of_nonneg (by omega)
  have hh : b.height.tdiv 2 = b.height / 2 := Int.tdiv_eq_ediv_of_nonneg (by omega)
  have hgap : g.tdiv 2 = g / 2 := Int.tdiv_eq_ediv_of_nonneg hg
  obtain ⟨l, r, t, d⟩ := k
  unfold zoneOf at hz
  rw [hw, hh, hgap] at hz
  cases l <;> cases r <;> cases t <;> cases d <;>
    simp only [Bool.and_true, Bool.and_false, Bool.false_eq_true, if_true, if_false,
      Option.some.injEq, reduceCtorEq] at hz <;>
    subst hz <;>
    simp [SlotFits, Box.Upright, Box.Inside, Strips.isBottom] <;>
    omega

/-- What a zone takes of a box fits the box. -/
theorem slotFits_self (hg : 0 ≤ g) (hwide : 2 * g + 2 < b.width) (hhigh : 2 * g + 2 < b.height)
    (k : Strips) : SlotFits b b g k := by
  obtain ⟨l, r, t, d⟩ := k
  unfold SlotFits
  refine ⟨?_, ?_⟩ <;> split_ifs <;> omega

theorem zoneOf_eq_none_iff : zoneOf b g con k = none ↔ k = ⟨false, false, false, false⟩ := by
  obtain ⟨l, r, t, d⟩ := k
  cases l <;> cases r <;> cases t <;> cases d <;> simp [zoneOf]

/-- The corner of a box with a size is in it. -/
theorem contains_corner (hw : 0 < b.width) (hh : 0 < b.height) {u : Box} (h : b.Inside u) :
    u.Contains b.x b.y := by
  obtain ⟨⟨hx, hx'⟩, hy, hy'⟩ := h
  refine ⟨?_, ?_, ?_, ?_⟩
  · exact_mod_cast hx
  · have hlt : b.x < u.x + u.width := by omega
    exact_mod_cast hlt
  · exact_mod_cast hy
  · have hlt : b.y < u.y + u.height := by omega
    exact_mod_cast hlt

theorem Box.Inside.trans {u : Box} (h : b.Inside u) {t : Box} (h' : u.Inside t) : b.Inside t := by
  obtain ⟨⟨hx, hx'⟩, hy, hy'⟩ := h
  obtain ⟨⟨ux, ux'⟩, uy, uy'⟩ := h'
  exact ⟨⟨by omega, by omega⟩, by omega, by omega⟩

/-- **Zones land** where they belong to the output under the cursor, and only there. -/
theorem zoneLands_iff (h : ZoneLayout s c o v x y) :
    ZoneLands s c ((outputGetBox s o).strips x y) (workspaceGetBox s v) x y ↔
      ZoneBelongs s c o v x y := by
  unfold ZoneLands ZoneBelongs moveZone
  cases hw : (s.tree.con c).workspace with
  | none => exact iff_of_true (fun z hz => by cases hz) fun w hw => by cases hw
  | some w =>
      have hg := h.gap w hw
      have hwide := h.wide w hw
      have hhigh := h.high w hw
      dsimp only
      rw [triggerBox_eq h w]
      generalize hk : (outputGetBox s o).strips x y = k
      constructor
      · rintro hlands w' hw'
        obtain rfl := Option.some.inj hw'
        cases hz : zoneOf (workspaceGetBox s w) (s.wsGeo w).gapsInner (containerGetBox s c) k with
        | none => exact Or.inl (zoneOf_eq_none_iff.1 hz)
        | some z =>
            have hin := hlands z hz
            refine Or.inr (Or.inr ⟨(zoneOf_inside_iff hg hwide hhigh hz _).1 hin, ?_⟩)
            intro hbottom p hp hpw
            by_contra hpo
            -- the corner of the zone would be on two outputs
            obtain ⟨hwidth, hinside⟩ := hin.2.2 hbottom
            have hself := ((zoneOf_inside_iff hg hwide hhigh hz (workspaceGetBox s w)).2
              (slotFits_self hg hwide hhigh k)).2.2 hbottom
            refine h.apart p hp o h.output hpo z.x z.y ⟨?_, ?_⟩
            · exact contains_corner hwidth hin.1 (hself.2.trans (h.usable w p hp hpw))
            · exact contains_corner hwidth hin.1 (hinside.trans (h.usable v o h.output h.home))
      · intro hbelongs z hz
        refine (zoneOf_inside_iff hg hwide hhigh hz _).2 ?_
        rcases hbelongs w rfl with hnone | rfl | ⟨hfits, -⟩
        · rw [zoneOf_eq_none_iff.2 hnone] at hz
          cases hz
        · exact slotFits_self hg hwide hhigh k
        · exact hfits

/-- Zones at different edges are on different sides of the middle. -/
theorem zoneOf_side {k' : Strips} {z z' : Box} (hg : 0 ≤ g) (hl : k.left = true)
    (hr : k.right = false) (hl' : k'.left = false) (hr' : k'.right = true)
    (hz : zoneOf b g con k = some z) (hz' : zoneOf b g con k' = some z') : z.Apart z' := by
  have hgap : 0 ≤ g.tdiv 2 := Int.tdiv_nonneg hg (by norm_num)
  apply Box.apart_of_left
  obtain ⟨l, r, t, d⟩ := k
  obtain ⟨l', r', t', d'⟩ := k'
  subst hl hr hl' hr'
  have hleft : z.x + z.width = b.x + (b.width.tdiv 2 - g.tdiv 2) := by
    cases t <;> cases d <;> (injection hz with hz; rw [← hz])
  have hright : z'.x = b.x + b.width.tdiv 2 + g.tdiv 2 := by
    cases t' <;> cases d' <;> (injection hz' with hz'; rw [← hz'])
  omega

theorem zoneOf_height {k' : Strips} {z z' : Box} (hg : 0 ≤ g) (hside : (k.left || k.right) = true)
    (hside' : (k'.left || k'.right) = true) (ht : k.top = true) (ht' : k'.top = false)
    (hd' : k'.bottom = true) (hz : zoneOf b g con k = some z)
    (hz' : zoneOf b g con k' = some z') : z.Apart z' := by
  have hgap : 0 ≤ g.tdiv 2 := Int.tdiv_nonneg hg (by norm_num)
  apply Box.apart_of_above
  obtain ⟨l, r, t, d⟩ := k
  obtain ⟨l', r', t', d'⟩ := k'
  subst ht ht' hd'
  have habove : z.y + z.height = b.y + (b.height.tdiv 2 - g.tdiv 2) := by
    cases l <;> cases r <;> cases hside <;> (injection hz with hz; rw [← hz])
  have hbelow : z'.y = b.y + b.height.tdiv 2 + g.tdiv 2 := by
    cases l' <;> cases r' <;> cases hside' <;> (injection hz' with hz'; rw [← hz'])
  omega

/-- The halves and the quadrants of a workspace are disjoint. -/
theorem zonesApart (hg : 0 ≤ g) : ZonesApart b g con halves ∧ ZonesApart b g con quadrants := by
  unfold ZonesApart halves quadrants
  constructor
  · simp only [List.pairwise_cons, List.mem_singleton, forall_eq, List.not_mem_nil, false_imp_iff,
      implies_true, List.Pairwise.nil, and_true]
    exact fun z hz z' hz' => zoneOf_side hg rfl rfl rfl rfl hz hz'
  · simp only [List.pairwise_cons, List.mem_cons, forall_eq_or_imp, List.not_mem_nil, false_imp_iff,
      implies_true, List.Pairwise.nil, and_true]
    refine ⟨⟨?_, ?_, ?_⟩, ⟨?_, ?_⟩, ?_⟩
    · exact fun z hz z' hz' => zoneOf_side hg rfl rfl rfl rfl hz hz'
    · exact fun z hz z' hz' => zoneOf_height hg rfl rfl rfl rfl rfl hz hz'
    · exact fun z hz z' hz' => zoneOf_side hg rfl rfl rfl rfl hz hz'
    · exact fun z hz z' hz' => (zoneOf_side hg rfl rfl rfl rfl hz' hz).symm
    · exact fun z hz z' hz' => zoneOf_height hg rfl rfl rfl rfl rfl hz hz'
    · exact fun z hz z' hz' => zoneOf_side hg rfl rfl rfl rfl hz hz'

end Zones

/-- **Zones land where the pointer is**, and those of one workspace are disjoint, exactly where the
zone belongs to the output under the cursor. -/
theorem moveFloating_zone_iff {s : State} {c : ConId} {o : OutId} {v : WsId} {x y : ℚ}
    (h : ZoneLayout s c o v x y) :
    (ZoneLands s c ((outputGetBox s o).strips x y) (workspaceGetBox s v) x y ∧
      ∀ w, (s.tree.con c).workspace = some w → ∀ ks ∈ [halves, quadrants],
        ZonesApart (workspaceGetBox s w) (s.wsGeo w).gapsInner (containerGetBox s c) ks) ↔
      ZoneBelongs s c o v x y := by
  rw [← zoneLands_iff h]
  refine and_iff_left fun w hw ks hks => ?_
  simp only [List.mem_cons, List.not_mem_nil, or_false] at hks
  rcases hks with rfl | rfl
  · exact (zonesApart (h.gap w hw)).1
  · exact (zonesApart (h.gap w hw)).2

/-- The cursor is on the only screen, at its left edge. -/
theorem zoneLayout_twoFloaters : ZoneLayout twoFloaters 0 1 0 5 400 where
  output := List.mem_cons_self
  cursor := by decide +kernel
  apart p hp q hq hne :=
    absurd ((List.mem_singleton.1 hp).trans (List.mem_singleton.1 hq).symm) hne
  shown := by decide +kernel
  home := rfl
  usable w p hp _ := by
    obtain rfl := List.mem_singleton.1 hp
    -- all workspaces have the box of the screen
    show (workspaceGetBox twoFloaters 0).Inside _
    exact ⟨⟨by decide +kernel, by decide +kernel⟩, by decide +kernel, by decide +kernel⟩
  gap w _ := by show (0 : Int) ≤ 0; exact le_rfl
  wide w _ := by show 2 * (0 : Int) + 2 < 1000; norm_num
  high w _ := by show 2 * (0 : Int) + 2 < 800; norm_num

theorem moveFloating_zone_iff_twoFloaters :
    (ZoneLands twoFloaters 0 ((outputGetBox twoFloaters 1).strips 5 400)
        (workspaceGetBox twoFloaters 0) 5 400 ∧
      ∀ w, (twoFloaters.tree.con 0).workspace = some w → ∀ ks ∈ [halves, quadrants],
        ZonesApart (workspaceGetBox twoFloaters w) (twoFloaters.wsGeo w).gapsInner
          (containerGetBox twoFloaters 0) ks) ↔
      ZoneBelongs twoFloaters 0 1 0 5 400 :=
  moveFloating_zone_iff zoneLayout_twoFloaters

/-- The two windows, with a second screen to the right of the first. -/
def besideScreens : State :=
  { twoFloaters with
    tree := { twoFloaters.tree with
      ws := fun w =>
        if w = 1 then { WsLinks.blank with name := "2", output := some 2 }
        else twoFloaters.tree.ws w
      workspaces := fun o => if o = 1 then [0] else if o = 2 then [1] else []
      outputs := [1, 2]
      nextWs := 2 }
    outGeo := fun o =>
      if o = 2 then { twoFloaters.outGeo 2 with lx := 1000 } else twoFloaters.outGeo o
    wsGeo := fun w => if w = 1 then { twoFloaters.wsGeo 1 with x := 1000 } else twoFloaters.wsGeo w }

theorem zoneLayout_besideScreens : ZoneLayout besideScreens 0 2 1 1005 400 where
  output := by decide
  cursor := by decide +kernel
  apart := by
    have hapart : (outputGetBox besideScreens 1).Apart (outputGetBox besideScreens 2) :=
      Box.apart_of_left (by decide +kernel)
    intro p hp q hq hne
    replace hp : p ∈ [1, 2] := hp
    replace hq : q ∈ [1, 2] := hq
    simp only [List.mem_cons, List.not_mem_nil, or_false] at hp hq
    rcases hp with rfl | rfl <;> rcases hq with rfl | rfl
    · exact absurd rfl hne
    · exact hapart
    · exact hapart.symm
    · exact absurd rfl hne
  shown := by decide +kernel
  home := rfl
  usable w p hp hout := by
    by_cases hw : w = 1
    · subst hw
      obtain rfl := Option.some.inj (show some 2 = some p from hout)
      exact ⟨⟨by decide +kernel, by decide +kernel⟩, by decide +kernel, by decide +kernel⟩
    · have hgeo : besideScreens.wsGeo w = twoFloaters.wsGeo 0 := if_neg hw
      have hlinks : besideScreens.tree.ws w = twoFloaters.tree.ws w := if_neg hw
      have hfirst : w = 0 := by
        rw [hlinks] at hout
        match w with
        | 0 => rfl
        | w + 1 => cases hout
      rw [hlinks, hfirst] at hout
      obtain rfl := Option.some.inj (show some 1 = some p from hout)
      unfold workspaceGetBox
      rw [hgeo]
      exact ⟨⟨by decide +kernel, by decide +kernel⟩, by decide +kernel, by decide +kernel⟩
  gap w hw := by
    obtain rfl := Option.some.inj (show some 0 = some w from hw)
    decide +kernel
  wide w hw := by
    obtain rfl := Option.some.inj (show some 0 = some w from hw)
    decide +kernel
  high w hw := by
    obtain rfl := Option.some.inj (show some 0 = some w from hw)
    decide +kernel

/-- A window of the first screen is dragged to the left edge of the second one: its zone is the left
half of the first screen. -/
theorem moveFloating_zone_elsewhere : ZoneLayout besideScreens 0 2 1 1005 400 ∧
    ¬ ZoneLands besideScreens 0 ((outputGetBox besideScreens 2).strips 1005 400)
      (workspaceGetBox besideScreens 1) 1005 400 := by
  refine ⟨zoneLayout_besideScreens, fun h => ?_⟩
  have hz : moveZone besideScreens 0 1005 400 = some ⟨0, 0, 500, 800⟩ := by decide +kernel
  have hinside := ((h _ hz).2.2 (by decide +kernel)).2
  exact absurd hinside.1.1 (by decide +kernel)

end Swirl
