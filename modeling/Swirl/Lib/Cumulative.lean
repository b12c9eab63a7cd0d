import Mathlib.Tactic
import Swirl.Lib.Rounding

set_option autoImplicit false

/-! # Cumulative rounding

Widths are laid out one after the other on the integers, with gaps between them. What is rounded is
not a width but the sum of the widths up to an edge, so that no width is off by a whole unit,
however many come before it, and the gaps are exact.
-/

namespace Swirl.Lib

section Scale

variable {K : Type*} [Field K]

/-- The edge behind the first widths, without the gaps. -/
def roundedEdge (round : K → ℤ) (ws : List K) (i : ℕ) : ℤ := round (ws.take i).sum

theorem roundedEdge_length (round : K → ℤ) (ws : List K) :
    roundedEdge round ws ws.length = round ws.sum := by
  rw [roundedEdge, List.take_length]

/-- Where a width begins, with a gap behind each one before it, and how wide it gets. -/
def cumulativePlace (round : K → ℤ) (gap : ℤ) (ws : List K) (i : ℕ) : ℤ × ℤ :=
  (roundedEdge round ws i + gap * i, roundedEdge round ws (i + 1) - roundedEdge round ws i)

/-- The places of all widths. -/
def cumulativePlaces (round : K → ℤ) (gap : ℤ) (ws : List K) : List (ℤ × ℤ) :=
  (List.range ws.length).map (cumulativePlace round gap ws)

/-- Where a place ends. -/
def placeEnd (p : ℤ × ℤ) : ℤ := p.1 + p.2

/-- Every place ends the gap before the next one. -/
theorem cumulativePlace_succ (round : K → ℤ) (gap : ℤ) (ws : List K) (i : ℕ) :
    (cumulativePlace round gap ws (i + 1)).1 = placeEnd (cumulativePlace round gap ws i) + gap := by
  unfold cumulativePlace placeEnd
  push_cast
  ring

/-- The last place ends at the rounded sum of all widths, with the gaps before it. -/
theorem placeEnd_last (round : K → ℤ) (gap : ℤ) {ws : List K} (hne : ws ≠ []) :
    placeEnd (cumulativePlace round gap ws (ws.length - 1)) =
      round ws.sum + gap * (ws.length - 1) := by
  have hpos := List.length_pos_iff.2 hne
  have hlast : ws.length - 1 + 1 = ws.length := by omega
  have hcast : ((ws.length - 1 : ℕ) : ℤ) = ws.length - 1 := by omega
  unfold placeEnd cumulativePlace
  rw [hlast, roundedEdge_length, hcast]
  ring

theorem cumulativePlaces_getElem? (round : K → ℤ) (gap : ℤ) (ws : List K) {i : ℕ} {p : ℤ × ℤ}
    (h : (cumulativePlaces round gap ws)[i]? = some p) :
    i < ws.length ∧ p = cumulativePlace round gap ws i := by
  unfold cumulativePlaces at h
  rw [List.getElem?_map, Option.map_eq_some_iff] at h
  obtain ⟨j, hj, rfl⟩ := h
  obtain ⟨hlt, rfl⟩ := List.getElem?_eq_some_iff.1 hj
  rw [List.length_range] at hlt
  rw [List.getElem_range]
  exact ⟨hlt, rfl⟩

end Scale

variable {K : Type*} [Field K] [LinearOrder K] [IsStrictOrderedRing K]

/-- A rounding of the amounts that are not negative: it keeps their order, it takes shifts by an
integer out, and it is off by a half at most, and less than that downwards. -/
structure Rounds (round : K → ℤ) : Prop where
  mono : ∀ {x y}, 0 ≤ x → x ≤ y → round x ≤ round y
  shift : ∀ {x} {n : ℤ}, 0 ≤ x → 0 ≤ n → round (x + n) = round x + n
  above : ∀ {x}, 0 ≤ x → x - 1 / 2 < round x
  below : ∀ {x}, 0 ≤ x → (round x : K) ≤ x + 1 / 2

theorem rounds_lround : Rounds lround where
  mono {x y} hx hxy := by
    rw [lround_of_nonneg hx, lround_of_nonneg (hx.trans hxy)]
    exact Int.floor_mono (by linarith)
  shift {x n} hx hn := by
    have hn' : (0 : ℚ) ≤ n := by exact_mod_cast hn
    rw [lround_of_nonneg hx, lround_of_nonneg (add_nonneg hx hn'), ← Int.floor_add_intCast]
    congr 1
    ring
  above {x} hx := by
    rw [lround_of_nonneg hx]
    have hlt := Int.lt_floor_add_one (x + 1 / 2)
    linarith
  below {x} hx := by
    rw [lround_of_nonneg hx]
    exact Int.floor_le _

variable {round : K → ℤ} (hr : Rounds round) {ws : List K} (hws : ∀ w ∈ ws, 0 ≤ w) {gap : ℤ}
include hr

theorem Rounds.zero : round 0 = 0 := by
  have habove := hr.above (le_refl (0 : K))
  have hbelow := hr.below (le_refl (0 : K))
  have hlt : (round 0 : K) < ((1 : ℤ) : K) := by
    push_cast
    linarith
  have hgt : ((-1 : ℤ) : K) < round 0 := by
    push_cast
    linarith
  have hlt' := Int.cast_lt.1 hlt
  have hgt' := Int.cast_lt.1 hgt
  omega

theorem roundedEdge_zero : roundedEdge round ws 0 = 0 := hr.zero

include hws

omit hr in
theorem take_sum_nonneg (i : ℕ) : 0 ≤ (ws.take i).sum :=
  List.sum_nonneg fun w hw => hws w (List.mem_of_mem_take hw)

/-- The edges are in order. -/
theorem roundedEdge_le_succ (i : ℕ) : roundedEdge round ws i ≤ roundedEdge round ws (i + 1) := by
  refine hr.mono (take_sum_nonneg hws i) ?_
  rw [List.take_add_one, List.sum_append]
  refine le_add_of_nonneg_right (List.sum_nonneg fun w hw => ?_)
  exact hws w (List.mem_of_getElem? (Option.mem_toList.1 hw))

theorem roundedEdge_mono : Monotone (roundedEdge round ws) :=
  monotone_nat_of_le_succ (roundedEdge_le_succ hr hws)

/-- **No width is off by a unit**, whatever comes before it. -/
theorem width_near {i : ℕ} {w : K} (hw : ws[i]? = some w) :
    |((roundedEdge round ws (i + 1) - roundedEdge round ws i : ℤ) : K) - w| < 1 := by
  have hsum : (ws.take (i + 1)).sum = (ws.take i).sum + w := by
    rw [List.take_add_one, hw, List.sum_append]
    simp
  -- of two roundings by a half at most, one is by less
  have hleft := take_sum_nonneg hws i
  have hright := take_sum_nonneg hws (i + 1)
  have h1 := hr.above hleft
  have h2 := hr.below hleft
  have h3 := hr.above hright
  have h4 := hr.below hright
  rw [hsum] at h3 h4
  unfold roundedEdge
  rw [hsum, abs_lt]
  push_cast
  constructor <;> linarith

theorem cumulativePlace_nonneg (i : ℕ) : 0 ≤ (cumulativePlace round gap ws i).2 :=
  sub_nonneg.2 (roundedEdge_le_succ hr hws i)

/-- Between two places there is at least one gap. -/
theorem cumulativePlace_apart (hgap : 0 ≤ gap) {i j : ℕ} (hij : i < j) :
    placeEnd (cumulativePlace round gap ws i) + gap ≤ (cumulativePlace round gap ws j).1 := by
  have hedge := roundedEdge_mono hr hws (Nat.succ_le_of_lt hij)
  have hcast : ((i + 1 : ℕ) : ℤ) ≤ j := by exact_mod_cast hij
  have hgaps := mul_le_mul_of_nonneg_left hcast hgap
  rw [← cumulativePlace_succ]
  exact add_le_add hedge hgaps

end Swirl.Lib
