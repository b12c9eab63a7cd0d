import Swirl.Tree.Containment
import Swirl.Tree.Floating
import Swirl.Tree.Start
import Swirl.Tree.WellFormed

set_option autoImplicit false

/-! # Snap candidates

`floating_snap.c`: the edges that a floating container can snap to while it is moved or resized.
They are collected along one axis: the edges of the workspace first, then five of every other
floating container that is not minimized, in the order of the floating list. The array has room for
64 of them, and what does not fit is left out.
-/

namespace Swirl

namespace Axis

/-- Where a container starts along an axis. -/
def place (a : Axis) (g : Geometry) : ℚ :=
  match a with
  | horiz => g.x
  | vert => g.y

/-- How long it is. -/
def size (a : Axis) (g : Geometry) : ℚ :=
  match a with
  | horiz => g.width
  | vert => g.height

end Axis

/-- `FLOATING_SNAP_MAX_CANDS` -/
def floatingSnapMaxCands : Nat := 64

/-- `FLOATING_SNAP_EDGE_STRIP` -/
def floatingSnapEdgeStrip : Int := 8

/-- `enum floating_snap_role`: which edge of the moving container a candidate is for. -/
inductive SnapRole where
  | lo | hi | center
  deriving DecidableEq, Repr

/-- `struct floating_snap_cand`: the place of an edge, and the box that is shown when it wins. -/
structure SnapCand where
  edge : ℚ
  hl : Box
  role : SnapRole
  deriving DecidableEq

/-- `add_cand` -/
def addCand (cands : List SnapCand) (c : SnapCand) : List SnapCand :=
  if cands.length < floatingSnapMaxCands then cands ++ [c] else cands

/-- The candidates at the edges of the usable area, which show no box. -/
def edgeCands (a : Axis) (wsBox : Box) : List SnapCand :=
  [⟨a.start wsBox, ⟨0, 0, 0, 0⟩, .lo⟩, ⟨a.start wsBox + a.extent wsBox, ⟨0, 0, 0, 0⟩, .hi⟩]

/-- A strip of a box, from a place along an axis. -/
def edgeStrip (a : Axis) (place : Int) (b : Box) : Box :=
  match a with
  | .horiz => ⟨place, b.y, floatingSnapEdgeStrip, b.height⟩
  | .vert => ⟨b.x, place, b.width, floatingSnapEdgeStrip⟩

/-- The candidates at a floating container: a gap before and after it, its edges, and its centre. -/
def floaterCands (a : Axis) (gap : Int) (fb : Box) : List SnapCand :=
  let near := a.start fb
  let far := a.start fb + a.extent fb
  let hl := edgeStrip a near fb
  let hl2 := edgeStrip a (far - floatingSnapEdgeStrip) fb
  let fcenter : ℚ := near + (a.extent fb : ℚ) / 2
  [⟨(near : ℚ) - gap, hl, .hi⟩, ⟨(far : ℚ) + gap, hl2, .lo⟩, ⟨near, hl, .lo⟩, ⟨far, hl2, .hi⟩,
    ⟨fcenter, edgeStrip a (Lib.truncInt (fcenter - floatingSnapEdgeStrip / 2)) fb, .center⟩]

/-- A floating container is left out: it is the one that moves, or it is minimized. -/
def snapSkips (s : State) (skip f : ConId) : Bool := decide (f = skip) || s.pool.minimized f

/-- `floating_snap_collect` -/
def floatingSnapCollect (s : State) (skip : ConId) (w : WsId) (a : Axis) (wsBox : Box) :
    List SnapCand :=
  let gap := (s.wsGeo w).gapsInner
  (s.tree.ws w).floating.foldl
    (fun cands f =>
      if snapSkips s skip f then cands
      else (floaterCands a gap (containerGetBox s f)).foldl addCand cands)
    ((edgeCands a wsBox).foldl addCand [])

/-! ## The candidates as one list -/

/-- All candidates there are, in the order they are collected. -/
def snapCands (s : State) (skip : ConId) (w : WsId) (a : Axis) (wsBox : Box) : List SnapCand :=
  edgeCands a wsBox ++ ((s.tree.ws w).floating.filter fun f => !snapSkips s skip f).flatMap fun f =>
    floaterCands a (s.wsGeo w).gapsInner (containerGetBox s f)

section Collect

variable {cands : List SnapCand} {s : State} {skip : ConId} {w : WsId} {a : Axis} {wsBox : Box}

theorem addCand_take (l : List SnapCand) (c : SnapCand) :
    addCand (l.take floatingSnapMaxCands) c = (l ++ [c]).take floatingSnapMaxCands := by
  unfold addCand
  split
  next hlt =>
    rw [List.length_take] at hlt
    have hlen : l.length < floatingSnapMaxCands := by
      rcases min_lt_iff.1 hlt with h | h
      · exact absurd h (lt_irrefl _)
      · exact h
    rw [List.take_of_length_le hlen.le, List.take_of_length_le]
    rw [List.length_append]
    exact hlen
  next hge =>
    rw [List.length_take, not_lt] at hge
    rw [List.take_append_of_le_length (hge.trans (min_le_right _ _))]

/-- What is added comes after what is there, up to the room there is. -/
theorem foldl_addCand (cs l : List SnapCand) :
    cs.foldl addCand (l.take floatingSnapMaxCands) = (l ++ cs).take floatingSnapMaxCands := by
  induction cs generalizing l with
  | nil => rw [List.append_nil, List.foldl_nil]
  | cons c cs ih => rw [List.foldl_cons, addCand_take, ih, List.append_assoc, List.singleton_append]

/-- **The candidates that are collected** are the first 64 of them. -/
theorem floatingSnapCollect_eq (s : State) (skip : ConId) (w : WsId) (a : Axis) (wsBox : Box) :
    floatingSnapCollect s skip w a wsBox =
      (snapCands s skip w a wsBox).take floatingSnapMaxCands := by
  have hstart : (edgeCands a wsBox).foldl addCand [] =
      (edgeCands a wsBox).take floatingSnapMaxCands := by
    rw [← List.take_nil (i := floatingSnapMaxCands), foldl_addCand, List.nil_append]
  unfold floatingSnapCollect snapCands
  dsimp only
  rw [hstart]
  generalize edgeCands a wsBox = l
  induction (s.tree.ws w).floating generalizing l with
  | nil => rw [List.foldl_nil, List.filter_nil, List.flatMap_nil, List.append_nil]
  | cons f fs ih =>
      rw [List.foldl_cons]
      cases hskip : snapSkips s skip f with
      | true =>
          rw [if_pos rfl, ih, List.filter_cons_of_neg (by rw [hskip]; decide)]
      | false =>
          rw [if_neg Bool.false_ne_true, foldl_addCand, ih,
            List.filter_cons_of_pos (by rw [hskip]; decide), List.flatMap_cons, List.append_assoc]

theorem floaterCands_length (a : Axis) (gap : Int) (fb : Box) :
    (floaterCands a gap fb).length = 5 := rfl

/-- There are two candidates at the workspace, and five at every container that is not left out. -/
theorem snapCands_length (s : State) (skip : ConId) (w : WsId) (a : Axis) (wsBox : Box) :
    (snapCands s skip w a wsBox).length =
      2 + 5 * ((s.tree.ws w).floating.filter fun f => !snapSkips s skip f).length := by
  unfold snapCands
  rw [List.length_append, List.length_flatMap]
  simp only [floaterCands_length, List.map_const', List.sum_replicate, smul_eq_mul]
  rw [Nat.mul_comm]
  rfl

/-- With at most twelve containers all candidates are collected. -/
theorem floatingSnapCollect_of_le
    (h : ((s.tree.ws w).floating.filter fun f => !snapSkips s skip f).length ≤ 12) :
    floatingSnapCollect s skip w a wsBox = snapCands s skip w a wsBox := by
  rw [floatingSnapCollect_eq, List.take_of_length_le]
  rw [snapCands_length]
  show _ ≤ 64
  omega

end Collect

/-! ## An example -/

/-- Two floating windows on a screen of 1000 by 800 pixels. -/
def twoFloaters : State :=
  { State.outlined [⟨[], [0, 1]⟩] with
    geo := fun c =>
      if c = 0 then { Geometry.blank with x := 100, y := 100, width := 400, height := 300 }
      else { Geometry.blank with x := 600, y := 500, width := 200, height := 200 } }

theorem forest_twoFloaters : twoFloaters.tree.Forest := by
  have hcon : ∀ c, (twoFloaters.tree.con c).children = [] ∧
      (twoFloaters.tree.con c).parent = none := by
    intro c
    by_cases hc : c < 2
    · interval_cases c
      · exact ⟨rfl, rfl⟩
      · exact ⟨rfl, rfl⟩
    · have hblank : twoFloaters.tree.con c = Links.blank := if_neg hc
      rw [hblank]
      exact ⟨rfl, rfl⟩
  refine ⟨fun p c => ?_, ⟨fun _ => 0, fun d p hp => ?_⟩, fun p _ => (hcon p).1⟩
  · rw [(hcon p).1, (hcon c).2]
    exact iff_of_false List.not_mem_nil (by simp)
  · rw [Tree.parentOf, (hcon d).2] at hp
    cases hp

end Swirl
