import Swirl.Input.FloatingSnap

set_option autoImplicit false

/-! # The resize of a floating container by the pointer

`seatop_resize_floating.c`: every motion of the pointer gives the container the size that the drag
asks for, within the limits of floating containers and of its view, snapped to an edge nearby. What
the two directions have in common is written once, for an axis; `preserve_ratio` couples them. The
border that is added to the limits is that of the current state, which a transaction has applied.
-/

namespace Swirl

open Lib

/-! ## The operation -/

/-- What is dragged along an axis: no edge, the left (top) or the right (bottom) one. -/
inductive Drag where
  | none | low | high
  deriving DecidableEq, Repr

/-- `struct seatop_resize_floating_event`, with one entry an axis for the pointer, the size and the
place at the start. -/
structure ResizeEvent where
  con : ConId
  edge : Axis → Drag
  preserveRatio : Bool
  refL : Axis → ℚ
  refSize : Axis → ℚ
  refCon : Axis → ℚ

/-- The border of the current state. -/
structure CurrentBorder where
  border : Border
  thickness : Int

namespace Axis

/-- Moved and grown along an axis, the content with it. -/
def bump (a : Axis) (move grow : ℚ) (g : Geometry) : Geometry :=
  match a with
  | horiz =>
      { g with
        x := g.x + move, width := g.width + grow,
        contentX := g.contentX + move, contentWidth := g.contentWidth + grow }
  | vert =>
      { g with
        y := g.y + move, height := g.height + grow,
        contentY := g.contentY + move, contentHeight := g.contentHeight + grow }

end Axis

/-- `seatop_begin_resize_floating`, with the pointer at `cursor` and Shift down or not. Where no edge
is asked for, it is the bottom right corner. -/
def beginResizeFloating (s : State) (c : ConId) (edge : Axis → Drag) (cursor : Axis → ℚ)
    (shift : Bool) : ResizeEvent where
  con := c
  edge := if edge .horiz = .none ∧ edge .vert = .none then fun _ => .high else edge
  preserveRatio := shift
  refL := cursor
  refSize a := a.size (s.geo c)
  refCon a := a.place (s.geo c)

/-! ## The size -/

/-- How far the pointer has moved. An edge that is dragged alone moves along its own axis only. -/
def ResizeEvent.mouseMove (e : ResizeEvent) (cursor : Axis → ℚ) (a : Axis) : ℚ :=
  if e.edge a = .none ∧ e.edge a.other ≠ .none then 0 else cursor a - e.refL a

/-- `grow_width` and `grow_height`, as the pointer asks for them. -/
def ResizeEvent.grow (e : ResizeEvent) (cursor : Axis → ℚ) (a : Axis) : ℚ :=
  let grow (a : Axis) := if e.edge a = .low then -e.mouseMove cursor a else e.mouseMove cursor a
  if e.preserveRatio then
    e.refSize a * max (grow .horiz / e.refSize .horiz) (grow .vert / e.refSize .vert)
  else grow a

/-- `border_width` and `border_height` -/
def CurrentBorder.extent (k : CurrentBorder) (titlebarHeight : Int) (a : Axis) : ℚ :=
  match k.border, a with
  | .normal, .horiz => k.thickness * 2
  | .normal, .vert => titlebarHeight + k.thickness
  | .pixel, _ => k.thickness * 2
  | _, _ => 0

/-- The smallest and the largest size that `floating_calculate_constraints` gives. -/
def FloatingConstraints.bounds (k : FloatingConstraints) (a : Axis) : Int × Int :=
  match a with
  | .horiz => (k.minWidth, k.maxWidth)
  | .vert => (k.minHeight, k.maxHeight)

/-- The size a drag asks for, within the limits of floating containers. -/
def floatingLimited (bounds : Int × Int) (border size : ℚ) : ℚ :=
  max (max (min size (bounds.2 - border)) (bounds.1 + border)) 1

/-- The part of `handle_pointer_motion` that limits the size. -/
def ResizeEvent.limited (e : ResizeEvent) (s : State) (k : CurrentBorder) (cursor : Axis → ℚ)
    (a : Axis) : ℚ :=
  let border := k.extent s.config.titlebarHeight
  let limits := (floatingCalculateConstraints s).bounds
  let size a := floatingLimited (limits a) (border a) (e.refSize a + e.grow cursor a)
  if (s.tree.con e.con).view.isSome then
    let content := containerClampContentSize s e.con
      (size .horiz - border .horiz) (size .vert - border .vert)
    match a with
    | .horiz => max (content.1 + border .horiz) 1
    | .vert => max (content.2 + border .vert) 1
  else size a

/-- The role of the candidates for the edge that is dragged. -/
def Drag.role : Drag → SnapRole
  | .high => .hi
  | _ => .lo

/-- Where the dragged edge is when the container has a size. -/
def ResizeEvent.moving (e : ResizeEvent) (a : Axis) (size : ℚ) : ℚ :=
  if e.edge a = .high then e.refCon a + size else e.refCon a + e.refSize a - size

/-- The candidate that the dragged edge snaps to: the first one within the threshold. -/
def ResizeEvent.snapCand (e : ResizeEvent) (s : State) (w : WsId) (threshold : Int) (a : Axis)
    (size : ℚ) : Option SnapCand :=
  (floatingSnapCollect s e.con w a (workspaceGetBox s w)).find? fun c =>
    decide (c.role = (e.edge a).role) && decide (|c.edge - e.moving a size| ≤ threshold)

/-- The part of `snap_floating_resize` for one axis. -/
def ResizeEvent.snap (e : ResizeEvent) (s : State) (threshold : Int) (a : Axis) (size : ℚ) : ℚ :=
  match (s.tree.con e.con).workspace with
  | some w =>
      if threshold ≤ 0 ∨ e.edge a = .none then size
      else
        match e.snapCand s w threshold a size with
        | some c =>
            let d := c.edge - e.moving a size
            if e.edge a = .high then size + d else size - d
        | none => size
  | none => size

/-- `width` and `height`, from which the new geometry is derived. -/
def ResizeEvent.newSize (e : ResizeEvent) (s : State) (k : CurrentBorder) (threshold : Int)
    (cursor : Axis → ℚ) (a : Axis) : ℚ :=
  e.snap s threshold a (e.limited s k cursor a)

/-! ## The motion -/

/-- How far the container has moved since the start when it has grown by so much. -/
def Drag.growPlace (d : Drag) (grow : ℚ) : ℚ :=
  match d with
  | .low => -grow
  | .high => 0
  | .none => -grow / 2

/-- The container gets a size along an axis: what changes is cut to integers. -/
def ResizeEvent.resize (e : ResizeEvent) (a : Axis) (size : ℚ) (g : Geometry) : Geometry :=
  a.bump (truncInt (e.refCon a + (e.edge a).growPlace (size - e.refSize a) - a.place g))
    (truncInt (size - a.size g)) g

/-- `handle_pointer_motion` -/
def ResizeEvent.handlePointerMotion (e : ResizeEvent) (s : State) (k : CurrentBorder)
    (threshold : Int) (cursor : Axis → ℚ) : State :=
  let size := e.newSize s k threshold cursor
  let s := s.modGeo e.con fun g => e.resize .vert (size .vert) (e.resize .horiz (size .horiz) g)
  arrangeContainer s e.con

/-! ## What stays -/

section Opposite

variable {e : ResizeEvent} {s t : State} {a : Axis} {c : ConId}

@[simp] theorem place_bump_self (a : Axis) (m n : ℚ) (g : Geometry) :
    a.place (a.bump m n g) = a.place g + m := by cases a <;> rfl

@[simp] theorem size_bump_self (a : Axis) (m n : ℚ) (g : Geometry) :
    a.size (a.bump m n g) = a.size g + n := by cases a <;> rfl

@[simp] theorem place_bump_other (a : Axis) (m n : ℚ) (g : Geometry) :
    a.place (a.other.bump m n g) = a.place g := by cases a <;> rfl

@[simp] theorem size_bump_other (a : Axis) (m n : ℚ) (g : Geometry) :
    a.size (a.other.bump m n g) = a.size g := by cases a <;> rfl

theorem place_of_extent {g g' : Geometry} (h : g.extent = g'.extent) (a : Axis) :
    a.place g = a.place g' := by
  cases a with
  | horiz => exact congrArg (fun x => x.1) h
  | vert => exact congrArg (fun x => x.2.1) h

theorem size_of_extent {g g' : Geometry} (h : g.extent = g'.extent) (a : Axis) :
    a.size g = a.size g' := by
  cases a with
  | horiz => exact congrArg (fun x => x.2.2.1) h
  | vert => exact congrArg (fun x => x.2.2.2) h

theorem hangsBelow_of_below {u : Tree} {d : ConId} (h : u.Forest) (hb : u.Below c d) :
    u.HangsBelow d c := by
  induction hb with
  | single hd => exact Under.of_parent ((h.agree _ _).1 hd)
  | tail _ hd ih => exact (Under.of_parent ((h.agree _ _).1 hd)).trans ih

/-- `arrange_container` leaves the box of the container itself alone. -/
theorem extent_arrangeContainer_self (h : s.tree.Forest) (c : ConId) :
    ((arrangeContainer s c).geo c).extent = (s.geo c).extent := by
  by_cases hview : (s.tree.con c).view.isSome
  · rw [arrangeContainer, arrangeWithin]
    split
    · rfl
    · exact extent_viewAutoconfigure s c c
  · rw [(writes_arrangeContainer s c).geo c]
    rintro (⟨-, hsome⟩ | hbelow)
    · exact hview hsome
    · exact h.not_below_self c (hangsBelow_of_below h hbelow)

/-- **What a motion does** to the box of the container: along each axis it is resized to some
size. -/
theorem handlePointerMotion_axis (h : s.tree.Forest) (k : CurrentBorder) (threshold : Int)
    (cursor : Axis → ℚ) (a : Axis) :
    let g := (e.handlePointerMotion s k threshold cursor).geo e.con
    let g' := e.resize a (e.newSize s k threshold cursor a) (s.geo e.con)
    a.place g = a.place g' ∧ a.size g = a.size g' := by
  have hext := extent_arrangeContainer_self (s := s.modGeo e.con fun g =>
    e.resize .vert (e.newSize s k threshold cursor .vert)
      (e.resize .horiz (e.newSize s k threshold cursor .horiz) g)) h e.con
  constructor
  · refine (place_of_extent hext a).trans ?_
    rw [State.modGeo]
    cases a with
    | horiz => simp [ResizeEvent.resize, Axis.place, Axis.bump]
    | vert => simp [ResizeEvent.resize, Axis.place, Axis.size, Axis.bump]
  · refine (size_of_extent hext a).trans ?_
    rw [State.modGeo]
    cases a with
    | horiz => simp [ResizeEvent.resize, Axis.size, Axis.bump]
    | vert => simp [ResizeEvent.resize, Axis.place, Axis.size, Axis.bump]

theorem handlePointerMotion_tree (e : ResizeEvent) (s : State) (k : CurrentBorder) (threshold : Int)
    (cursor : Axis → ℚ) : (e.handlePointerMotion s k threshold cursor).tree = s.tree :=
  (onlyGeometry_arrangeContainer _ e.con).tree

/-- What a drag keeps along an axis: the right (bottom) edge where the left (top) one is dragged, and
the left (top) one where the right (bottom) one is. -/
structure ResizeEvent.Anchored (e : ResizeEvent) (a : Axis) (g : Geometry) : Prop where
  low : e.edge a = .low → a.place g + a.size g = e.refCon a + e.refSize a
  high : e.edge a = .high → a.place g = e.refCon a

theorem anchored_resize {g : Geometry} (h : e.Anchored a g) (size : ℚ) :
    e.Anchored a (e.resize a size g) where
  low hlow := by
    have hopposite := h.low hlow
    have hmove : e.refCon a + -(size - e.refSize a) - a.place g = -(size - a.size g) := by
      linarith
    -- the container moves by what it grows, and both are cut the same way
    rw [ResizeEvent.resize, place_bump_self, size_bump_self, hlow, Drag.growPlace, hmove,
      truncInt_neg]
    push_cast
    linarith
  high hhigh := by
    rw [ResizeEvent.resize, place_bump_self, hhigh, Drag.growPlace, h.high hhigh, add_zero, sub_self]
    show e.refCon a + ((0 : Int) : ℚ) = e.refCon a
    rw [Int.cast_zero, add_zero]

theorem anchored_congr {g g' : Geometry} (hplace : a.place g = a.place g')
    (hsize : a.size g = a.size g') (h : e.Anchored a g') : e.Anchored a g := by
  constructor
  · rw [hplace, hsize]
    exact h.low
  · rw [hplace]
    exact h.high

end Opposite

/-! ## A drag -/

/-- What happens during a drag: a motion of the pointer, with the border that is applied then and
the configured threshold; or anything else. -/
inductive ResizeStep where
  | motion (k : CurrentBorder) (threshold : Int) (cursor : Axis → ℚ)
  | other (t : State)

def ResizeEvent.step (e : ResizeEvent) (s : State) : ResizeStep → State
  | .motion k threshold cursor => e.handlePointerMotion s k threshold cursor
  | .other t => t

/-- What is not a motion leaves the box of the container as it is, and the tree in order. -/
def ResizeEvent.Leaves (e : ResizeEvent) (s : State) : ResizeStep → Prop
  | .motion .. => True
  | .other t => t.tree.Forest ∧ (t.geo e.con).extent = (s.geo e.con).extent

/-- **A step** keeps what a drag keeps. -/
theorem anchored_step {e : ResizeEvent} {s : State} (hforest : s.tree.Forest)
    (h : ∀ a, e.Anchored a (s.geo e.con)) (r : ResizeStep) (hr : e.Leaves s r) :
    (e.step s r).tree.Forest ∧ ∀ a, e.Anchored a ((e.step s r).geo e.con) := by
  cases r with
  | motion k threshold cursor =>
      constructor
      · show (e.handlePointerMotion s k threshold cursor).tree.Forest
        rw [handlePointerMotion_tree]
        exact hforest
      · intro a
        obtain ⟨hplace, hsize⟩ := handlePointerMotion_axis (e := e) hforest k threshold cursor a
        exact anchored_congr hplace hsize (anchored_resize (h a) _)
  | other t =>
      refine ⟨hr.1, fun a => ?_⟩
      exact anchored_congr (place_of_extent hr.2 a) (size_of_extent hr.2 a) (h a)

/-- **The opposite edge stays put**: in every state of a drag. -/
theorem resizeFloating_anchored {s t : State} (c : ConId) (edge : Axis → Drag) (cursor : Axis → ℚ)
    (shift : Bool) (hforest : s.tree.Forest)
    (h : Run (beginResizeFloating s c edge cursor shift).step
      (beginResizeFloating s c edge cursor shift).Leaves s t) (a : Axis) :
    ((beginResizeFloating s c edge cursor shift).edge a = .low →
      a.place (t.geo c) + a.size (t.geo c) = a.place (s.geo c) + a.size (s.geo c)) ∧
    ((beginResizeFloating s c edge cursor shift).edge a = .high →
      a.place (t.geo c) = a.place (s.geo c)) := by
  have hrun := h.invariant
    (I := fun u => u.tree.Forest ∧
      ∀ a, (beginResizeFloating s c edge cursor shift).Anchored a (u.geo c))
    (fun u r hu hr => anchored_step hu.1 hu.2 r hr)
    ⟨hforest, fun a => ⟨fun _ => rfl, fun _ => rfl⟩⟩
  exact ⟨(hrun.2 a).low, (hrun.2 a).high⟩

/-- The left edge of a window is dragged to the right by 30 pixels; the right one stays at 500. -/
theorem resizeFloating_anchored_left :
    Axis.horiz.place (((beginResizeFloating twoFloaters 0 (fun _ => .low) (fun _ => 110)
      false).handlePointerMotion twoFloaters ⟨.none, 0⟩ 0 fun _ => 140).geo 0) +
    Axis.horiz.size (((beginResizeFloating twoFloaters 0 (fun _ => .low) (fun _ => 110)
      false).handlePointerMotion twoFloaters ⟨.none, 0⟩ 0 fun _ => 140).geo 0) =
    Axis.horiz.place (twoFloaters.geo 0) + Axis.horiz.size (twoFloaters.geo 0) :=
  (resizeFloating_anchored 0 (fun _ => .low) (fun _ => 110) false forest_twoFloaters
    (Run.single (e := ResizeStep.motion ⟨.none, 0⟩ 0 fun _ => 140) trivial) .horiz).1 (by decide)

end Swirl
