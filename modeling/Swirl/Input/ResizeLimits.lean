import Swirl.Input.ResizeFloating
import Swirl.Lib.Closest

set_option autoImplicit false

/-! # The limits of a floating resize

The size a drag asks for is brought within the limits of floating containers and of the view, which
gives the closest size that meets them, if there is one. Then the dragged edge snaps to the first
candidate that is near, and nothing limits the size after that.
-/

namespace Swirl

open Lib

/-! ## The limits -/

/-- The limits of a view along an axis. -/
def SizeConstraints.bounds (k : SizeConstraints) (a : Axis) : ℚ × ℚ :=
  match a with
  | .horiz => (k.minWidth, k.maxWidth)
  | .vert => (k.minHeight, k.maxHeight)

/-- A content size is within the limits of a view; `DBL_MIN` and `DBL_MAX` stand for no limit. -/
def SizeConstraints.Allows (k : SizeConstraints) (a : Axis) (content : ℚ) : Prop :=
  ((k.bounds a).1 ≠ dblMin → (k.bounds a).1 ≤ content) ∧
    ((k.bounds a).2 ≠ dblMax → content ≤ (k.bounds a).2)

/-- The sizes along an axis that are within all limits: one pixel, the limits of floating containers
with the border, and for the content those of the view. -/
def ResizeEvent.limits (e : ResizeEvent) (s : State) (k : CurrentBorder) (a : Axis) : Set ℚ :=
  { x |
    1 ≤ x ∧
    ((floatingCalculateConstraints s).bounds a).1 + k.extent s.config.titlebarHeight a ≤ x ∧
    x ≤ ((floatingCalculateConstraints s).bounds a).2 - k.extent s.config.titlebarHeight a ∧
    ∀ v, (s.tree.con e.con).view = some v →
      (viewGetConstraints v).Allows a (x - k.extent s.config.titlebarHeight a) }

/-- The size that the pointer asks for. -/
def ResizeEvent.wanted (e : ResizeEvent) (cursor : Axis → ℚ) (a : Axis) : ℚ :=
  e.refSize a + e.grow cursor a

/-- The size at which the dragged edge is at a place. -/
def ResizeEvent.sizeAt (e : ResizeEvent) (a : Axis) (edge : ℚ) : ℚ :=
  if e.edge a = .high then edge - e.refCon a else e.refCon a + e.refSize a - edge

/-- A motion can respect the limits along an axis: they can be met; and where the dragged edge, at
the size closest to the wanted one, is near a candidate, the size at which it is there meets them
too. -/
def ResizeEvent.Limitable (e : ResizeEvent) (s : State) (k : CurrentBorder) (threshold : Int)
    (cursor : Axis → ℚ) (a : Axis) : Prop :=
  ∃ x, Closest (e.limits s k a) (e.wanted cursor a) x ∧
    ∀ w c, (s.tree.con e.con).workspace = some w → 0 < threshold → e.edge a ≠ .none →
      e.snapCand s w threshold a x = some c → e.sizeAt a c.edge ∈ e.limits s k a

section Limits

variable {e : ResizeEvent} {s : State} {k : CurrentBorder} {threshold : Int} {cursor : Axis → ℚ}
variable {a : Axis}

/-- One side of `container_clamp_content_size`. -/
def clampContent (bounds : ℚ × ℚ) (content : ℚ) : ℚ :=
  let content := if bounds.1 ≠ dblMin then max content bounds.1 else content
  if bounds.2 ≠ dblMax then min content bounds.2 else content

/-- The limits without those of the view. -/
def floatingLimits (bounds : Int × Int) (border : ℚ) : Set ℚ :=
  Set.univ ∩ Set.Iic (bounds.2 - border) ∩ Set.Ici (bounds.1 + border) ∩ Set.Ici 1

theorem ordConnected_floatingLimits (bounds : Int × Int) (border : ℚ) :
    (floatingLimits bounds border).OrdConnected :=
  ((Set.ordConnected_univ.inter Set.ordConnected_Iic).inter Set.ordConnected_Ici).inter
    Set.ordConnected_Ici

theorem closest_floatingLimited {bounds : Int × Int} {border v : ℚ}
    (hne : (floatingLimits bounds border).Nonempty) :
    Closest (floatingLimits bounds border) v (floatingLimited bounds border v) := by
  unfold floatingLimits at hne ⊢
  have hhi := (Closest.univ v).min Set.ordConnected_univ
    (hne.mono (Set.inter_subset_left.trans Set.inter_subset_left))
  have hlo := hhi.max (Set.ordConnected_univ.inter Set.ordConnected_Iic)
    (hne.mono Set.inter_subset_left)
  exact hlo.max ((Set.ordConnected_univ.inter Set.ordConnected_Iic).inter Set.ordConnected_Ici) hne

/-- The limits of a view, for the size with the border. -/
def viewLimits (bounds : ℚ × ℚ) (border : ℚ) : Set ℚ :=
  {x | bounds.1 ≠ dblMin → bounds.1 + border ≤ x} ∩ {x | bounds.2 ≠ dblMax → x ≤ bounds.2 + border}

/-- The content is clamped without its border as the size is with it. -/
theorem clampContent_sub_add (bounds : ℚ × ℚ) (border x : ℚ) :
    clampContent bounds (x - border) + border =
      if bounds.2 ≠ dblMax then
        min (if bounds.1 ≠ dblMin then max x (bounds.1 + border) else x) (bounds.2 + border)
      else if bounds.1 ≠ dblMin then max x (bounds.1 + border) else x := by
  unfold clampContent
  dsimp only
  split_ifs
  · rw [← min_add_add_right, ← max_add_add_right, sub_add_cancel]
  · rw [← min_add_add_right, sub_add_cancel]
  · rw [← max_add_add_right, sub_add_cancel]
  · rw [sub_add_cancel]

/-- Clamped to the limits of the view as well, and to one pixel again. -/
theorem closest_clampContent {p : Set ℚ} {bounds : ℚ × ℚ} {border v x : ℚ} (hp : p.OrdConnected)
    (hone : p ⊆ Set.Ici 1) (h : Closest p v x) (hne : (p ∩ viewLimits bounds border).Nonempty) :
    Closest (p ∩ viewLimits bounds border) v (max (clampContent bounds (x - border) + border) 1) := by
  unfold viewLimits at hne ⊢
  rw [← Set.inter_assoc] at hne ⊢
  have hlo := h.maxIf (bounds.1 ≠ dblMin) hp (hne.mono Set.inter_subset_left)
  have hhi := hlo.minIf (bounds.2 ≠ dblMax) (hp.inter (ordConnected_lowerIf _ _)) hne
  rw [clampContent_sub_add, max_eq_left]
  · exact hhi
  · exact hone hhi.mem.1.1

/-- **The limited size** is the size within the limits that is closest to the wanted one, if any size
is within the limits. -/
theorem closest_limited (hne : (e.limits s k a).Nonempty) :
    Closest (e.limits s k a) (e.wanted cursor a) (e.limited s k cursor a) := by
  cases hview : (s.tree.con e.con).view with
  | none =>
      have hset : e.limits s k a = floatingLimits ((floatingCalculateConstraints s).bounds a)
          (k.extent s.config.titlebarHeight a) := by
        ext x
        simp only [ResizeEvent.limits, floatingLimits, hview, Set.mem_ofPred_eq, Set.mem_inter_iff,
          Set.mem_univ, Set.mem_Iic, Set.mem_Ici, true_and, reduceCtorEq, false_imp_iff,
          implies_true, and_true]
        tauto
      rw [hset] at hne ⊢
      rw [ResizeEvent.limited, hview]
      exact closest_floatingLimited hne
  | some v =>
      have hset : e.limits s k a = floatingLimits ((floatingCalculateConstraints s).bounds a)
          (k.extent s.config.titlebarHeight a) ∩
          viewLimits ((viewGetConstraints v).bounds a) (k.extent s.config.titlebarHeight a) := by
        ext x
        simp only [ResizeEvent.limits, floatingLimits, viewLimits, SizeConstraints.Allows, hview,
          Set.mem_ofPred_eq, Set.mem_inter_iff, Set.mem_univ, Set.mem_Iic, Set.mem_Ici, true_and,
          Option.some.injEq, forall_eq', le_sub_iff_add_le, sub_le_iff_le_add]
        tauto
      rw [hset] at hne ⊢
      have hclosest := closest_clampContent (ordConnected_floatingLimits _ _)
        Set.inter_subset_right (closest_floatingLimited (v := e.wanted cursor a)
          (hne.mono Set.inter_subset_left)) hne
      rw [ResizeEvent.limited, hview]
      cases a with
      | horiz =>
          dsimp only [Option.isSome]
          rw [if_pos rfl, containerClampContentSize, hview]
          exact hclosest
      | vert =>
          dsimp only [Option.isSome]
          rw [if_pos rfl, containerClampContentSize, hview]
          exact hclosest

theorem ordConnected_limits : (e.limits s k a).OrdConnected := by
  refine ⟨fun x hx y hy z hz => ?_⟩
  obtain ⟨hone, hlo, -, hview⟩ := hx
  obtain ⟨-, -, hhi, hview'⟩ := hy
  refine ⟨hone.trans hz.1, hlo.trans hz.1, hz.2.trans hhi, fun v hv => ⟨fun h => ?_, fun h => ?_⟩⟩
  · exact ((hview v hv).1 h).trans (sub_le_sub_right hz.1 _)
  · exact (sub_le_sub_right hz.2 _).trans ((hview' v hv).2 h)

/-- Where the dragged edge snaps to a candidate, it ends there. -/
theorem snap_cases (size : ℚ) :
    (∃ w c, (s.tree.con e.con).workspace = some w ∧ 0 < threshold ∧ e.edge a ≠ .none ∧
      e.snapCand s w threshold a size = some c ∧ e.snap s threshold a size = e.sizeAt a c.edge) ∨
    (∀ w c, (s.tree.con e.con).workspace = some w → 0 < threshold → e.edge a ≠ .none →
      e.snapCand s w threshold a size = some c → False) ∧ e.snap s threshold a size = size := by
  unfold ResizeEvent.snap
  cases hw : (s.tree.con e.con).workspace with
  | none => exact Or.inr ⟨fun _ _ h => (by cases h), rfl⟩
  | some w =>
      dsimp only
      by_cases hoff : threshold ≤ 0 ∨ e.edge a = .none
      · rw [if_pos hoff]
        refine Or.inr ⟨fun _ _ _ hpos hedge _ => ?_, rfl⟩
        rcases hoff with hle | hnone
        · exact absurd hpos (not_lt.2 hle)
        · exact hedge hnone
      · rw [if_neg hoff]
        obtain ⟨hpos, hedge⟩ := not_or.1 hoff
        cases hc : e.snapCand s w threshold a size with
        | none =>
            refine Or.inr ⟨fun w' c hw' _ _ hc' => ?_, rfl⟩
            rw [← Option.some.inj hw', hc] at hc'
            cases hc'
        | some c =>
            refine Or.inl ⟨w, c, rfl, not_le.1 hpos, hedge, hc, ?_⟩
            dsimp only
            unfold ResizeEvent.moving ResizeEvent.sizeAt
            split_ifs <;> ring

/-- **A motion respects the limits** along an axis exactly where it can. -/
theorem newSize_mem_iff :
    e.newSize s k threshold cursor a ∈ e.limits s k a ↔ e.Limitable s k threshold cursor a := by
  have hclosest : (e.limits s k a).Nonempty → Closest (e.limits s k a) (e.wanted cursor a)
      (e.limited s k cursor a) := closest_limited
  constructor
  · intro h
    refine ⟨e.limited s k cursor a, hclosest ⟨_, h⟩, fun w c hw hpos hedge hc => ?_⟩
    obtain ⟨w', c', hw', -, -, hc', hsnap⟩ | ⟨hnone, -⟩ :=
      @snap_cases e s threshold a (e.limited s k cursor a)
    · rw [hw] at hw'
      rw [← Option.some.inj hw', hc] at hc'
      rw [Option.some.inj hc', ← hsnap]
      exact h
    · exact absurd (hnone w c hw hpos hedge hc) not_false
  · rintro ⟨x, hx, hsnaps⟩
    have heq : e.limited s k cursor a = x :=
      (hclosest ⟨x, hx.mem⟩).unique ordConnected_limits hx
    show e.snap s threshold a (e.limited s k cursor a) ∈ _
    rw [heq]
    obtain ⟨w, c, hw, hpos, hedge, hc, hsnap⟩ | ⟨-, hsnap⟩ := @snap_cases e s threshold a x
    · rw [hsnap]
      exact hsnaps w c hw hpos hedge hc
    · rw [hsnap]
      exact hx.mem

end Limits

/-! ## A drag -/

/-- The width and the height from which a motion derives the new geometry are within the limits. -/
def ResizeEvent.Respects (e : ResizeEvent) (s : State) : ResizeStep → Prop
  | .motion k threshold cursor => ∀ a, e.newSize s k threshold cursor a ∈ e.limits s k a
  | .other _ => True

/-- They can be. -/
def ResizeEvent.CanRespect (e : ResizeEvent) (s : State) : ResizeStep → Prop
  | .motion k threshold cursor => ∀ a, e.Limitable s k threshold cursor a
  | .other _ => True

/-- **A floating resize respects the limits** at every motion of a drag exactly where it can at every
motion: the limits can be met together, and no edge snaps to a place that is outside them. -/
theorem resizeFloating_limits_iff (e : ResizeEvent) (s : State) (rs : List ResizeStep) :
    Allowed e.step e.Respects s rs ↔ Allowed e.step e.CanRespect s rs := by
  refine Allowed.congr (I := fun _ => True) (fun _ _ _ _ => trivial) ?_ trivial (Allowed.free s rs)
  intro s r _ _
  cases r with
  | motion k threshold cursor => exact forall_congr' fun a => newSize_mem_iff
  | other t => exact Iff.rfl

/-- The two windows, where floating containers may be 490 pixels wide at most. -/
def narrowFloaters : State :=
  { twoFloaters with config := { configDefaults with floatingMaximumWidth := 490 } }

/-- The right edge is dragged from 500 to 700. The limit leaves it at 590, and from there it snaps to
the edge of the other window at 600: the window is 500 pixels wide. -/
theorem resizeFloating_above_maximum :
    ¬ (beginResizeFloating narrowFloaters 0 (fun a => if a = .horiz then .high else .none)
      (fun _ => 500) false).Respects narrowFloaters
      (.motion ⟨.none, 0⟩ 10 fun a => if a = .horiz then 700 else 500) := by
  intro h
  have hsize : (beginResizeFloating narrowFloaters 0 (fun a => if a = .horiz then .high else .none)
      (fun _ => 500) false).newSize narrowFloaters ⟨.none, 0⟩ 10
      (fun a => if a = .horiz then 700 else 500) .horiz = 500 := by decide +kernel
  have hmax := (h .horiz).2.2.1
  rw [hsize] at hmax
  exact absurd hmax (by decide +kernel)

end Swirl
