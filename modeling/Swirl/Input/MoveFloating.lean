import Swirl.Input.FloatingSnap
import Swirl.Tree.Workspace

set_option autoImplicit false

/-! # The move of a floating container by the pointer

`seatop_move_floating.c`: at every motion of the pointer the container follows it. Near an edge of
the output a zone is active, to which the container goes when it is released; elsewhere its edges
and its centre snap to the candidates of `floating_snap.c`, along each axis to the nearest one.
-/

namespace Swirl

open Lib

variable (fo : FocusOps)

/-! ## The nearest candidate -/

/-- `struct snap_result` -/
structure SnapResult where
  hit : Bool
  shift : ℚ
  hl : Box

/-- The place of the moving container that a role is about. -/
def snapRef (lo hi : ℚ) : SnapRole → ℚ
  | .hi => hi
  | .center => lo + (hi - lo) / 2
  | .lo => lo

/-- `eff_thr` -/
def effThreshold (threshold : Int) : SnapRole → Int
  | .center => threshold * 2
  | _ => threshold

/-- How far a candidate is from the moving container. -/
def SnapCand.dist (c : SnapCand) (lo hi : ℚ) : ℚ := c.edge - snapRef lo hi c.role

/-- A candidate is within its threshold. -/
def SnapCand.Within (c : SnapCand) (lo hi : ℚ) (threshold : Int) : Prop :=
  |c.dist lo hi| ≤ effThreshold threshold c.role

instance (c : SnapCand) (lo hi : ℚ) (threshold : Int) : Decidable (c.Within lo hi threshold) :=
  inferInstanceAs (Decidable (_ ≤ _))

/-- One turn of the loop of `snap_axis`. -/
def snapStep (lo hi : ℚ) (threshold : Int) (res : SnapResult) (c : SnapCand) : SnapResult :=
  let d := c.dist lo hi
  if c.Within lo hi threshold ∧ (res.hit = false ∨ |d| < |res.shift|) then ⟨true, d, c.hl⟩ else res

/-- `snap_axis` -/
def snapAxis (lo hi : ℚ) (cands : List SnapCand) (threshold : Int) : SnapResult :=
  cands.foldl (snapStep lo hi threshold) ⟨false, 0, ⟨0, 0, 0, 0⟩⟩

/-- A shift is right for some candidates: zero if none is within its threshold, and otherwise the
distance of one of the nearest. -/
def NearestShift (cands : List SnapCand) (lo hi : ℚ) (threshold : Int) (shift : ℚ) : Prop :=
  ((∀ c ∈ cands, ¬ c.Within lo hi threshold) ∧ shift = 0) ∨
    ∃ c ∈ cands, c.Within lo hi threshold ∧ shift = c.dist lo hi ∧
      ∀ d ∈ cands, d.Within lo hi threshold → |c.dist lo hi| ≤ |d.dist lo hi|

instance (cands : List SnapCand) (lo hi : ℚ) (threshold : Int) (shift : ℚ) :
    Decidable (NearestShift cands lo hi threshold shift) := inferInstanceAs (Decidable (_ ∨ _))

section Nearest

variable {lo hi : ℚ} {threshold : Int} {cands cands' : List SnapCand} {x y : ℚ}

/-- What has been found among some candidates. -/
def SnapFound (cands : List SnapCand) (lo hi : ℚ) (threshold : Int) (res : SnapResult) : Prop :=
  (res.hit = true ↔ ∃ c ∈ cands, c.Within lo hi threshold) ∧
    NearestShift cands lo hi threshold res.shift

section Found

variable {l : List SnapCand} {c : SnapCand} {res : SnapResult}

/-- A candidate that is within its threshold, and nearer than all before. -/
theorem SnapFound.take (h : SnapFound l lo hi threshold res) (hwithin : c.Within lo hi threshold)
    (hcloser : res.hit = false ∨ |c.dist lo hi| < |res.shift|) :
    SnapFound (l ++ [c]) lo hi threshold ⟨true, c.dist lo hi, c.hl⟩ := by
  obtain ⟨hhit, hnearest⟩ := h
  have hc : c ∈ l ++ [c] := List.mem_append_right l List.mem_cons_self
  refine ⟨iff_of_true rfl ⟨c, hc, hwithin⟩, Or.inr ⟨c, hc, hwithin, rfl, ?_⟩⟩
  intro d hd hdwithin
  rcases List.mem_append.1 hd with hdl | hdc
  · have hfound : res.hit = true := hhit.2 ⟨d, hdl, hdwithin⟩
    rcases hcloser with hmiss | hlt
    · rw [hmiss] at hfound
      exact absurd hfound Bool.false_ne_true
    · rcases hnearest with ⟨hnone, -⟩ | ⟨b, -, -, hshift, hbest⟩
      · exact absurd hdwithin (hnone d hdl)
      · rw [hshift] at hlt
        exact hlt.le.trans (hbest d hdl hdwithin)
  · rw [List.mem_singleton.1 hdc]

/-- A candidate that is not within its threshold, or not nearer than what was found. -/
theorem SnapFound.keep (h : SnapFound l lo hi threshold res)
    (hworse : c.Within lo hi threshold → res.hit = true ∧ |res.shift| ≤ |c.dist lo hi|) :
    SnapFound (l ++ [c]) lo hi threshold res := by
  obtain ⟨hhit, hnearest⟩ := h
  constructor
  · constructor
    · intro h
      obtain ⟨d, hd, hdwithin⟩ := hhit.1 h
      exact ⟨d, List.mem_append_left _ hd, hdwithin⟩
    · rintro ⟨d, hd, hdwithin⟩
      rcases List.mem_append.1 hd with hdl | hdc
      · exact hhit.2 ⟨d, hdl, hdwithin⟩
      · exact (hworse (List.mem_singleton.1 hdc ▸ hdwithin)).1
  · rcases hnearest with ⟨hnone, hzero⟩ | ⟨b, hb, hbwithin, hshift, hbest⟩
    · refine Or.inl ⟨fun d hd hdwithin => ?_, hzero⟩
      rcases List.mem_append.1 hd with hdl | hdc
      · exact hnone d hdl hdwithin
      · obtain ⟨d, hd, hdwithin⟩ := hhit.1 (hworse (List.mem_singleton.1 hdc ▸ hdwithin)).1
        exact hnone d hd hdwithin
    · refine Or.inr ⟨b, List.mem_append_left _ hb, hbwithin, hshift, fun d hd hdwithin => ?_⟩
      rcases List.mem_append.1 hd with hdl | hdc
      · exact hbest d hdl hdwithin
      · rw [← hshift, List.mem_singleton.1 hdc]
        exact (hworse (List.mem_singleton.1 hdc ▸ hdwithin)).2

/-- One turn of the loop. -/
theorem SnapFound.step (h : SnapFound l lo hi threshold res) :
    SnapFound (l ++ [c]) lo hi threshold (snapStep lo hi threshold res c) := by
  unfold snapStep
  dsimp only
  split
  next htake => exact h.take htake.1 htake.2
  next hkeep =>
    refine h.keep fun hwithin => ?_
    have hnot := fun h => hkeep ⟨hwithin, h⟩
    exact ⟨by simpa using fun h => hnot (Or.inl h), not_lt.1 fun h => hnot (Or.inr h)⟩

end Found

/-- **`snap_axis`** finds a candidate exactly where one is within its threshold, and a nearest
one. -/
theorem snapAxis_nearest (lo hi : ℚ) (cands : List SnapCand) (threshold : Int) :
    ((snapAxis lo hi cands threshold).hit = true ↔ ∃ c ∈ cands, c.Within lo hi threshold) ∧
      NearestShift cands lo hi threshold (snapAxis lo hi cands threshold).shift := by
  induction cands using List.reverseRecOn with
  | nil => exact ⟨by simp [snapAxis], Or.inl ⟨fun _ h => absurd h List.not_mem_nil, rfl⟩⟩
  | append_singleton l c ih =>
      have hfold : snapAxis lo hi (l ++ [c]) threshold =
          snapStep lo hi threshold (snapAxis lo hi l threshold) c := by
        rw [snapAxis, List.foldl_append]
        rfl
      rw [hfold]
      exact SnapFound.step ih

/-- A shift that is right for some candidates is as long as any other that is, in whatever order the
candidates are. -/
theorem NearestShift.abs_eq (hx : NearestShift cands lo hi threshold x)
    (hy : NearestShift cands' lo hi threshold y) (hmem : ∀ c, c ∈ cands ↔ c ∈ cands') :
    |x| = |y| := by
  rcases hx with ⟨hnone, hx⟩ | ⟨c, hc, hcwithin, hx, hbest⟩
  · rcases hy with ⟨-, hy⟩ | ⟨d, hd, hdwithin, -⟩
    · rw [hx, hy]
    · exact absurd hdwithin (hnone d ((hmem d).2 hd))
  · rcases hy with ⟨hnone', -⟩ | ⟨d, hd, hdwithin, hy, hbest'⟩
    · exact absurd hcwithin (hnone' c ((hmem c).1 hc))
    · rw [hx, hy]
      exact le_antisymm (hbest d ((hmem d).2 hd) hdwithin) (hbest' c ((hmem c).1 hc) hcwithin)

end Nearest

/-! ## The zones -/

/-- `ZONE_STRIP` -/
def zoneStrip : Int := 10

/-- The box whose edges activate zones: that of the output under the cursor, or that of the
workspace if there is none. -/
def triggerBox (s : State) (w : WsId) (x y : ℚ) : Box :=
  match s.tree.outputs.find? fun o => decide ((outputGetBox s o).Contains x y) with
  | some o => outputGetBox s o
  | none => workspaceGetBox s w

/-- The edges of a box that the cursor is near. -/
structure Strips where
  left : Bool
  right : Bool
  top : Bool
  bottom : Bool
  deriving DecidableEq

def Box.strips (t : Box) (x y : ℚ) : Strips where
  left := decide (x ≤ t.x + zoneStrip)
  right := decide ((t.x + t.width - zoneStrip : ℚ) ≤ x)
  top := decide (y ≤ t.y + zoneStrip)
  bottom := decide ((t.y + t.height - zoneStrip : ℚ) ≤ y)

/-- The zone of a workspace for the edges the cursor is near; `con` is the box of the container. -/
def zoneOf (b : Box) (g : Int) (con : Box) (k : Strips) : Option Box :=
  let hw := b.width.tdiv 2
  let hh := b.height.tdiv 2
  let h := g.tdiv 2
  if k.left && k.top then some ⟨b.x, b.y, hw - h, hh - h⟩
  else if k.right && k.top then some ⟨b.x + hw + h, b.y, b.width - hw - h, hh - h⟩
  else if k.left && k.bottom then some ⟨b.x, b.y + hh + h, hw - h, b.height - hh - h⟩
  else if k.right && k.bottom then
    some ⟨b.x + hw + h, b.y + hh + h, b.width - hw - h, b.height - hh - h⟩
  else if k.left then some ⟨b.x, b.y, hw - h, b.height⟩
  else if k.right then some ⟨b.x + hw + h, b.y, b.width - hw - h, b.height⟩
  else if k.top then some b
  -- the window keeps its own place and width
  else if k.bottom then some ⟨con.x, b.y, con.width, b.height⟩
  else none

/-- The zone that a motion to a place activates. -/
def moveZone (s : State) (c : ConId) (x y : ℚ) : Option Box :=
  match (s.tree.con c).workspace with
  | some w =>
      zoneOf (workspaceGetBox s w) (s.wsGeo w).gapsInner (containerGetBox s c)
        ((triggerBox s w x y).strips x y)
  | none => none

/-! ## The motion -/

/-- `struct seatop_move_floating_event` -/
structure MoveEvent where
  con : ConId
  dx : ℚ
  dy : ℚ
  zone : Option Box

/-- `seatop_begin_move_floating`, with the cursor at a place. -/
def beginMoveFloating (s : State) (c : ConId) (x y : ℚ) : MoveEvent where
  con := c
  dx := x - (s.geo c).x
  dy := y - (s.geo c).y
  zone := none

/-- The place along an axis that the cursor asks for. -/
def MoveEvent.raw (e : MoveEvent) (x y : ℚ) (a : Axis) : ℚ :=
  match a with
  | .horiz => x - e.dx
  | .vert => y - e.dy

/-- How far the container snaps along an axis from there. -/
def MoveEvent.shift (e : MoveEvent) (s : State) (threshold : Int) (x y : ℚ) (a : Axis) : ℚ :=
  match (s.tree.con e.con).workspace with
  | some w =>
      if (moveZone s e.con x y).isNone ∧ 0 < threshold ∧ s.pool.minimized e.con = false then
        (snapAxis (e.raw x y a) (e.raw x y a + a.size (s.geo e.con))
          (floatingSnapCollect s e.con w a (workspaceGetBox s w)) threshold).shift
      else 0
  | none => 0

/-- `handle_pointer_motion` -/
def MoveEvent.handlePointerMotion (e : MoveEvent) (s : State) (threshold : Int) (x y : ℚ) :
    MoveEvent × State :=
  let nx := e.raw x y .horiz + e.shift s threshold x y .horiz
  let ny := e.raw x y .vert + e.shift s threshold x y .vert
  ({ e with zone := moveZone s e.con x y }, containerFloatingMoveTo fo s e.con nx ny)

/-! ## Snapping to the nearest edge -/

/-- The floating containers of a workspace in another order. -/
def State.withFloating (s : State) (w : WsId) (l : List ConId) : State :=
  s.modTree fun t =>
    { t with ws := Function.update t.ws w { t.ws w with floating := l } }

section Snap

variable {e : MoveEvent} {s : State} {w : WsId} {threshold : Int} {x y lo hi : ℚ}
variable {cands : List SnapCand}

/-- Without a threshold no shift is right. -/
theorem nearestShift_of_nonpos (h : threshold ≤ 0) : NearestShift cands lo hi threshold 0 := by
  have hzero : ∀ c : SnapCand, c.Within lo hi threshold → |c.dist lo hi| = 0 := by
    intro c hc
    refine le_antisymm (le_trans hc ?_) (abs_nonneg _)
    have heff : effThreshold threshold c.role ≤ 0 := by
      unfold effThreshold
      split <;> omega
    exact_mod_cast heff
  by_cases hsome : ∃ c ∈ cands, c.Within lo hi threshold
  · obtain ⟨c, hc, hwithin⟩ := hsome
    refine Or.inr ⟨c, hc, hwithin, (abs_eq_zero.1 (hzero c hwithin)).symm, fun d _ _ => ?_⟩
    rw [hzero c hwithin]
    exact abs_nonneg _
  · exact Or.inl ⟨fun c hc hwithin => hsome ⟨c, hc, hwithin⟩, rfl⟩

/-- The shift where nothing else comes in: no zone is active, and the container is not minimized. -/
theorem shift_nearest (threshold : Int) (hw : (s.tree.con e.con).workspace = some w)
    (hminimized : s.pool.minimized e.con = false) (hzone : moveZone s e.con x y = none) (a : Axis) :
    NearestShift (floatingSnapCollect s e.con w a (workspaceGetBox s w)) (e.raw x y a)
      (e.raw x y a + a.size (s.geo e.con)) threshold (e.shift s threshold x y a) := by
  unfold MoveEvent.shift
  rw [hw]
  dsimp only
  by_cases hpos : 0 < threshold
  · rw [if_pos ⟨by rw [hzone]; rfl, hpos, hminimized⟩]
    exact (snapAxis_nearest _ _ _ _).2
  · rw [if_neg fun h => hpos h.2.1]
    exact nearestShift_of_nonpos (not_lt.1 hpos)

/-- The same candidates are there when the floating containers are in another order. -/
theorem mem_snapCands_withFloating {l : List ConId} (hl : l.Perm (s.tree.ws w).floating)
    (skip : ConId) (a : Axis) (wsBox : Box) (c : SnapCand) :
    c ∈ snapCands (s.withFloating w l) skip w a wsBox ↔ c ∈ snapCands s skip w a wsBox := by
  have hfloating : ((s.withFloating w l).tree.ws w).floating = l := by
    show (Function.update s.tree.ws w _ w).floating = l
    rw [Function.update_self]
  unfold snapCands
  rw [hfloating, List.mem_append, List.mem_append]
  exact or_congr_right ((hl.filter _).flatMap_right _).mem_iff

end Snap

/-- **Edge snapping picks the nearest edge**: while no zone is active, the shift along an axis is
right for the candidates there is room for; with at most twelve other windows these are all, and in
another order of the floating windows the shift is as long. -/
theorem moveFloating_nearest (e : MoveEvent) (s : State) (w : WsId) (threshold : Int) (x y : ℚ)
    (hw : (s.tree.con e.con).workspace = some w) (hminimized : s.pool.minimized e.con = false)
    (hzone : moveZone s e.con x y = none) (a : Axis) :
    NearestShift ((snapCands s e.con w a (workspaceGetBox s w)).take floatingSnapMaxCands)
      (e.raw x y a) (e.raw x y a + a.size (s.geo e.con)) threshold (e.shift s threshold x y a) ∧
    (((s.tree.ws w).floating.filter fun f => !snapSkips s e.con f).length ≤ 12 →
      NearestShift (snapCands s e.con w a (workspaceGetBox s w))
        (e.raw x y a) (e.raw x y a + a.size (s.geo e.con)) threshold (e.shift s threshold x y a) ∧
      ∀ l, l.Perm (s.tree.ws w).floating →
        |e.shift (s.withFloating w l) threshold x y a| = |e.shift s threshold x y a|) := by
  have hshift := shift_nearest threshold hw hminimized hzone a
  refine ⟨by rwa [floatingSnapCollect_eq] at hshift, fun hfew => ?_⟩
  rw [floatingSnapCollect_of_le hfew] at hshift
  refine ⟨hshift, fun l hl => ?_⟩
  have hother := shift_nearest (e := e) (s := s.withFloating w l) threshold hw hminimized hzone a
  have hfew' : (((s.withFloating w l).tree.ws w).floating.filter
      fun f => !snapSkips (s.withFloating w l) e.con f).length ≤ 12 := by
    show ((Function.update s.tree.ws w _ w).floating.filter fun f => !snapSkips s e.con f).length ≤ 12
    rw [Function.update_self, (hl.filter _).length_eq]
    exact hfew
  rw [floatingSnapCollect_of_le hfew'] at hother
  exact hother.abs_eq hshift (mem_snapCands_withFloating hl _ _ _)

/-- The first window of two is moved to the right, near the other one. -/
theorem moveFloating_nearest_twoFloaters :
    NearestShift ((snapCands twoFloaters 0 0 .horiz (workspaceGetBox twoFloaters 0)).take
        floatingSnapMaxCands)
      ((beginMoveFloating twoFloaters 0 110 110).raw 205 210 .horiz)
      ((beginMoveFloating twoFloaters 0 110 110).raw 205 210 .horiz +
        Axis.horiz.size (twoFloaters.geo 0)) 10
      ((beginMoveFloating twoFloaters 0 110 110).shift twoFloaters 10 205 210 .horiz) :=
  (moveFloating_nearest (beginMoveFloating twoFloaters 0 110 110) twoFloaters 0 10 205 210 rfl rfl
    (by decide +kernel) .horiz).1

/-- A window with thirteen others, all but the last of them far away. -/
def manyFloaters : State :=
  { State.outlined [⟨[], List.range 14⟩] with
    geo := fun c =>
      if c = 0 then { Geometry.blank with x := 400, y := 400, width := 100, height := 100 }
      else if c = 13 then { Geometry.blank with x := 500, y := 100, width := 300, height := 100 }
      else { Geometry.blank with x := 5000, y := 5000, width := 100, height := 100 } }

/-- The window is moved to 503 and does not snap to the left edge of the last one at 500, for which
there is no room among the candidates. -/
theorem moveFloating_left_out :
    ¬ NearestShift (snapCands manyFloaters 0 0 .horiz (workspaceGetBox manyFloaters 0))
      ((beginMoveFloating manyFloaters 0 410 410).raw 513 413 .horiz)
      ((beginMoveFloating manyFloaters 0 410 410).raw 513 413 .horiz +
        Axis.horiz.size (manyFloaters.geo 0)) 10
      ((beginMoveFloating manyFloaters 0 410 410).shift manyFloaters 10 513 413 .horiz) := by
  decide +kernel

end Swirl
